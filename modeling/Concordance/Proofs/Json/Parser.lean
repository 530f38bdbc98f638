import Concordance.Json.Fields
import Concordance.Json.Parser

/-!
# Reading back JSON

A whole number in decimal digits is read back (`JsonValue.takeNumber_toDigits`), a text of plain
characters too (`JsonValue.takeText_plain`), and so is a member of an object that has such a name
and such a number (`JsonValue.takeMembers_number`).
-/

namespace Concordance
namespace JsonValue

/-! ## Digits -/

/-- What a digit stands for. -/
def digit (c : Char) : Nat :=
  c.toNat - '0'.toNat

/-- A whole number as it is written. -/
def whole (value : Nat) : JsonNumber :=
  { whole := (Nat.toDigits 10 value).map digit }

/-- The digits of a number stand for it. -/
theorem ofDigits_toDigits (value : Nat) :
    JsonNumber.ofDigits ((Nat.toDigits 10 value).map digit) = value := by
  have hvalue := @Nat.ofDigitChars_ten_toDigits value
  rw [Nat.ofDigitChars_eq_foldl] at hvalue
  rw [JsonNumber.ofDigits, List.foldl_map]
  exact hvalue

/-- A whole number below the limit is the number it was written for. -/
theorem toNat?_whole {value limit : Nat} (h : value < limit) :
    toNat? limit (.number (whole value)) = some value := by
  simp [toNat?, JsonNumber.toNat?, whole, ofDigits_toDigits, h]

/-- The first digit of a number is not zero, unless the number is. -/
theorem toDigits_eq_cons {value : Nat} (h : 0 < value) :
    ∃ first rest, Nat.toDigits 10 value = first :: rest ∧ digit first ≠ 0 := by
  induction value using Nat.strongRecOn with
  | ind value ih =>
      rw [Nat.toDigits_eq_if (by decide)]
      by_cases hsmall : value < 10
      · rw [if_pos hsmall]
        refine ⟨_, [], rfl, ?_⟩
        rw [digit, show '0'.toNat = 48 from rfl, Nat.toNat_digitChar_sub_48_of_lt_ten hsmall]
        omega
      · obtain ⟨first, rest, hdigits, hfirst⟩ := ih (value / 10) (by omega) (by omega)
        rw [if_neg hsmall, hdigits]
        exact ⟨first, _, rfl, hfirst⟩

/-- No zero stands in front of the digits of a number. -/
theorem toDigits_ne_zero_cons {value second : Nat} {rest : List Nat} :
    (Nat.toDigits 10 value).map digit ≠ 0 :: second :: rest := by
  intro h
  by_cases hzero : value = 0
  · subst hzero
    cases h
  · obtain ⟨first, others, hdigits, hfirst⟩ := toDigits_eq_cons (Nat.pos_of_ne_zero hzero)
    rw [hdigits, List.map_cons] at h
    exact hfirst (List.cons.inj h).1

/-- Nothing follows that could be read as a part of a whole number. -/
def EndsNumber (rest : List Char) : Prop :=
  ∀ c ∈ rest.head?, c.isDigit = false ∧ c ≠ '.' ∧ c ≠ 'e' ∧ c ≠ 'E'

/-- Whatever cannot continue a number ends it. -/
theorem endsNumber_cons {c : Char} (h : c.isDigit = false ∧ c ≠ '.' ∧ c ≠ 'e' ∧ c ≠ 'E')
    (rest : List Char) : EndsNumber (c :: rest) := by
  intro first hfirst
  cases hfirst
  exact h

/-- All digits are taken, and nothing else. -/
theorem takeDigits_append {digits rest : List Char} (hdigits : ∀ c ∈ digits, c.isDigit = true)
    (hrest : EndsNumber rest) : takeDigits (digits ++ rest) = (digits.map digit, rest) := by
  have hnone : rest.takeWhile Char.isDigit = [] ∧ rest.dropWhile Char.isDigit = rest := by
    cases rest with
    | nil => exact ⟨rfl, rfl⟩
    | cons c rest => simp [(hrest c rfl).1]
  rw [takeDigits, List.takeWhile_append_of_pos hdigits, List.dropWhile_append_of_pos hdigits,
    hnone.1, hnone.2, List.append_nil]
  rfl

/-! ## Numbers -/

/-- What ends a number has no fraction. -/
theorem takeFraction_of_ends {rest : List Char} (h : EndsNumber rest) :
    takeFraction rest = some (none, rest) := by
  unfold takeFraction
  split
  · exact absurd rfl (h '.' rfl).2.1
  · rfl

/-- What ends a number has no exponent. -/
theorem takeExponent_of_ends {rest : List Char} (h : EndsNumber rest) :
    takeExponent rest = some (none, rest) := by
  cases rest with
  | nil => rfl
  | cons c rest =>
      have hc := h c rfl
      simp [takeExponent, hc.2.2.1, hc.2.2.2]

/-- A whole number is read back. -/
theorem takeNumber_toDigits (value : Nat) {rest : List Char} (h : EndsNumber rest) :
    takeNumber (Nat.toDigits 10 value ++ rest) = some (whole value, rest) := by
  have hdigits : ∀ c ∈ Nat.toDigits 10 value, c.isDigit = true :=
    fun c => Nat.isDigit_of_mem_toDigits (by decide) (by decide)
  have htake := takeDigits_append hdigits h
  have hfirst : ∀ others, Nat.toDigits 10 value ++ rest ≠ '-' :: others := by
    intro others heq
    cases hvalue : Nat.toDigits 10 value with
    | nil => exact Nat.toDigits_ne_nil hvalue
    | cons first later =>
        rw [hvalue, List.cons_append] at heq
        have hminus := hdigits first (hvalue ▸ List.mem_cons_self)
        rw [(List.cons.inj heq).1] at hminus
        cases hminus
  unfold takeNumber
  split
  rename_i negative chars hsign
  split at hsign
  · rename_i heq
    exact absurd heq (hfirst _)
  · cases hsign
    rw [htake]
    dsimp only
    split
    · rename_i hnil
      exact absurd (List.map_eq_nil_iff.1 hnil) Nat.toDigits_ne_nil
    · rename_i hzero
      exact absurd hzero toDigits_ne_zero_cons
    · rw [takeFraction_of_ends h]
      show (takeExponent rest >>= _) = _
      rw [takeExponent_of_ends h]
      rfl

/-! ## Values -/

/-- A blank in front is skipped. -/
theorem skipBlanks_blank {c : Char} (h : isBlank c = true) (rest : List Char) :
    skipBlanks (c :: rest) = skipBlanks rest :=
  List.dropWhile_cons_of_pos h

/-- Nothing is skipped if no blank is in front. -/
theorem skipBlanks_of_not_blank {c : Char} (h : isBlank c = false) (rest : List Char) :
    skipBlanks (c :: rest) = c :: rest :=
  List.dropWhile_cons_of_neg (by simp [h])

/-- A whole number is read back as a value. -/
theorem takeValue_toDigits (fuel value : Nat) {rest : List Char} (h : EndsNumber rest) :
    takeValue (fuel + 1) (Nat.toDigits 10 value ++ rest) =
      some (.number (whole value), rest) := by
  have htake := takeNumber_toDigits value h
  have hdigits : ∀ c ∈ Nat.toDigits 10 value, c.isDigit = true :=
    fun c => Nat.isDigit_of_mem_toDigits (by decide) (by decide)
  cases hvalue : Nat.toDigits 10 value with
  | nil => exact absurd hvalue Nat.toDigits_ne_nil
  | cons first later =>
      rw [hvalue, List.cons_append] at htake
      have hfirst := hdigits first (hvalue ▸ List.mem_cons_self)
      have hother : ∀ c : Char, c.isDigit = false → first ≠ c := by
        rintro c hc rfl
        rw [hfirst] at hc
        cases hc
      have hblank : isBlank first = false := by
        simp [isBlank, hother ' ' rfl, hother '\n' rfl, hother '\t' rfl, hother '\r' rfl]
      rw [List.cons_append, takeValue, skipBlanks_of_not_blank hblank]
      split
      -- none of the signs that begin another value is a digit
      iterate 6
        · rename_i heq
          exact absurd (List.cons.inj heq).1 (hother _ rfl)
      · rw [htake]
        rfl

/-- Characters that stand for themselves in a text. -/
def Plain (chars : List Char) : Prop :=
  ∀ c ∈ chars, c ≠ '"' ∧ c ≠ '\\' ∧ 32 ≤ c.toNat

/-- Whether characters stand for themselves can be checked. -/
instance (chars : List Char) : Decidable (Plain chars) :=
  List.decidableBAll (fun c => c ≠ '"' ∧ c ≠ '\\' ∧ 32 ≤ c.toNat) chars

/-- A text of plain characters is read back. -/
theorem takeText_plain {chars : List Char} (h : Plain chars) (read rest : List Char)
    {fuel : Nat} (hfuel : chars.length < fuel) :
    takeText read fuel (chars ++ '"' :: rest) =
      some (String.ofList (read.reverse ++ chars), rest) := by
  induction chars generalizing read fuel with
  | nil =>
      obtain ⟨fuel, rfl⟩ := Nat.exists_eq_add_one_of_ne_zero (Nat.ne_of_gt hfuel)
      rw [List.nil_append, List.append_nil]
      unfold takeText
      exact if_pos rfl
  | cons c later ih =>
      obtain ⟨fuel, rfl⟩ :=
        Nat.exists_eq_add_one_of_ne_zero (Nat.ne_of_gt (Nat.zero_lt_of_lt hfuel))
      obtain ⟨⟨hquote, hescape, hcontrol⟩, hlater⟩ := List.forall_mem_cons.1 h
      have hrest := ih hlater (c :: read) (Nat.lt_of_succ_lt_succ hfuel)
      rw [List.reverse_cons, List.append_assoc, List.singleton_append] at hrest
      rw [List.cons_append, ← hrest, takeText.eq_def]
      exact (if_neg hquote).trans ((if_neg hescape).trans (if_neg (Nat.not_lt.2 hcontrol)))

/-- Blanks in front of a value do not count. -/
theorem takeValue_blank {c : Char} (h : isBlank c = true) (fuel : Nat) (rest : List Char) :
    takeValue (fuel + 1) (c :: rest) = takeValue (fuel + 1) rest := by
  rw [takeValue, takeValue, skipBlanks_blank h]

/-- Blanks in front of a member do not count. -/
theorem takeMembers_blank {c : Char} (h : isBlank c = true) (fuel : Nat) (rest : List Char) :
    takeMembers (fuel + 1) (c :: rest) = takeMembers (fuel + 1) rest := by
  rw [takeMembers, takeMembers, skipBlanks_blank h]

/-- A member of an object that has a whole number as its value. -/
def member (name : String) (value : Nat) : List Char :=
  '"' :: (name.toList ++ '"' :: ':' :: ' ' :: Nat.toDigits 10 value)

section

variable {name : String} {fuel value : Nat} {rest after : List Char}

/-- The name and the number of a member are read back, and reading goes on behind them. -/
theorem takeMembers_number (hname : Plain name.toList) (hrest : EndsNumber rest) :
    takeMembers (fuel + 2) (member name value ++ rest) =
      match skipBlanks rest with
      | ',' :: rest => do
          let (members, rest) ← takeMembers (fuel + 1) rest
          pure ((name, .number (whole value)) :: members, rest)
      | '}' :: rest => pure ([(name, .number (whole value))], rest)
      | _ => none := by
  have hfuel : name.toList.length <
      (name.toList ++ '"' :: ':' :: ' ' :: (Nat.toDigits 10 value ++ rest)).length + 1 := by
    rw [List.length_append]
    omega
  have htext := takeText_plain hname [] (':' :: ' ' :: (Nat.toDigits 10 value ++ rest)) hfuel
  rw [List.reverse_nil, List.nil_append, String.ofList_toList] at htext
  have hvalue := takeValue_toDigits fuel value hrest
  rw [← takeValue_blank (c := ' ') rfl] at hvalue
  rw [takeMembers, member, List.cons_append, List.append_assoc, skipBlanks_of_not_blank rfl]
  show (takeText [] ((name.toList ++ _).length + 1) (name.toList ++ _) >>= _) = _
  rw [List.cons_append, List.cons_append, List.cons_append, htext]
  show (takeValue (fuel + 1) (' ' :: _) >>= _) = _
  rw [hvalue]
  rfl

/-- A member with a plain name and a whole number is read back if it is followed by a comma and the
other members. -/
theorem takeMembers_member (hname : Plain name.toList) (hrest : EndsNumber rest)
    (hcomma : skipBlanks rest = ',' :: after) {members : List (String × JsonValue)}
    {last : List Char} (hmembers : takeMembers (fuel + 1) after = some (members, last)) :
    takeMembers (fuel + 2) (member name value ++ rest) =
      some ((name, .number (whole value)) :: members, last) := by
  rw [takeMembers_number hname hrest, hcomma]
  show (takeMembers (fuel + 1) after >>= _) = _
  rw [hmembers]
  rfl

/-- The last member is read back if it is followed by the end of the object. -/
theorem takeMembers_last (hname : Plain name.toList) (hrest : EndsNumber rest)
    (hend : skipBlanks rest = '}' :: after) :
    takeMembers (fuel + 2) (member name value ++ rest) =
      some ([(name, .number (whole value))], after) := by
  rw [takeMembers_number hname hrest, hend]
  rfl

end

end JsonValue
end Concordance
