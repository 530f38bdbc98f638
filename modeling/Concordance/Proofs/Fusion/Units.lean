import Concordance.Fusion.Units

/-!
# Where units occur

`Occurs` says at which positions of a token list a unit occurs: as a token, or as a longer run that
the window lets pass. The longer units that are indexed are those that occur (`mem_mergedUnits`).
Whether the window lets a run pass can be told from the run alone (`lt_windowEnd_iff`).
-/

namespace Concordance

/-! ## Joined tokens -/

/-- Whether a token has no space in it. -/
def Spaceless (token : String) : Prop :=
  ' ' ∉ token.toList

/-- A unit of a single token is this token. -/
@[simp] theorem joinTokens_singleton (token : String) : joinTokens [token] = token :=
  String.intercalate_singleton

/-- Tokens without spaces can be told from their joined text. -/
theorem joinTokens_inj {first second : List String} (hfirst : ∀ token ∈ first, Spaceless token)
    (hsecond : ∀ token ∈ second, Spaceless token) (hfirstne : first ≠ [])
    (hsecondne : second ≠ []) (h : joinTokens first = joinTokens second) : first = second := by
  have hsplit : ∀ tokens : List String, (∀ token ∈ tokens, Spaceless token) → tokens ≠ [] →
      (joinTokens tokens).toList.splitOn ' ' = tokens.map String.toList := by
    intro tokens hspaceless hne
    rw [joinTokens, String.toList_intercalate]
    refine List.splitOn_intercalate ' ' ?_ (by simpa using hne)
    intro characters hcharacters
    obtain ⟨token, htoken, rfl⟩ := List.mem_map.1 hcharacters
    exact hspaceless token htoken
  have hmap : first.map String.toList = second.map String.toList := by
    rw [← hsplit first hfirst hfirstne, ← hsplit second hsecond hsecondne, h]
  exact List.map_inj_right (fun a b => String.toList_inj.1) |>.1 hmap

/-- Tokens of this kind can be told from their joined text. -/
def Separates (admits : String → Prop) : Prop :=
  ∀ first second : List String, (∀ token ∈ first, admits token) →
    (∀ token ∈ second, admits token) → first ≠ [] → second ≠ [] →
    joinTokens first = joinTokens second → first = second

/-- Texts without blanks can be told apart when they are joined by blanks. -/
theorem separates_spaceless : Separates Spaceless :=
  fun _ _ hfirst hsecond hfirstne hsecondne h => joinTokens_inj hfirst hsecond hfirstne hsecondne h

/-- Fewer tokens can be told apart as well. -/
theorem Separates.mono {admits other : String → Prop} (h : Separates other)
    (hadmits : ∀ token, admits token → other token) : Separates admits :=
  fun first second hfirst hsecond => h first second
    (fun token htoken => hadmits token (hfirst token htoken))
    (fun token htoken => hadmits token (hsecond token htoken))

/-- Two neighbours are joined by a blank. -/
theorem toList_joinTokens_cons (token other : String) (rest : List String) :
    (joinTokens (token :: other :: rest)).toList =
      token.toList ++ ' ' :: (joinTokens (other :: rest)).toList := by
  rw [joinTokens, joinTokens, String.toList_intercalate, String.toList_intercalate]
  rfl

/-- A unit of several tokens is longer than the first of them. -/
theorem length_lt_joinTokens (token other : String) (rest : List String) :
    token.toList.length < (joinTokens (token :: other :: rest)).toList.length := by
  rw [toList_joinTokens_cons, List.length_append, List.length_cons]
  omega

/-- Tokens of one length can be told from their joined text, whatever characters they have. -/
theorem separates_length (size : Nat) : Separates fun token => token.toList.length = size := by
  intro first second hfirst hsecond hfirstne hsecondne h
  rw [← String.toList_inj] at h
  induction first generalizing second with
  | nil => exact absurd rfl hfirstne
  | cons token rest ih =>
      obtain ⟨other, later, rfl⟩ := List.exists_cons_of_ne_nil hsecondne
      have htoken : token.toList.length = size := hfirst token List.mem_cons_self
      have hother : other.toList.length = size := hsecond other List.mem_cons_self
      cases rest with
      | nil =>
          cases later with
          | nil =>
              rw [joinTokens_singleton, joinTokens_singleton] at h
              rw [String.toList_inj.1 h]
          | cons next later =>
              -- one token is shorter than several
              have hlonger := length_lt_joinTokens other next later
              rw [← h, joinTokens_singleton, htoken, hother] at hlonger
              exact absurd hlonger (Nat.lt_irrefl size)
      | cons next rest =>
          cases later with
          | nil =>
              have hlonger := length_lt_joinTokens token next rest
              rw [h, joinTokens_singleton, htoken, hother] at hlonger
              exact absurd hlonger (Nat.lt_irrefl size)
          | cons next' later =>
              rw [toList_joinTokens_cons, toList_joinTokens_cons] at h
              obtain ⟨hfront, hback⟩ := List.append_inj h (htoken.trans hother.symm)
              have hrest := ih (next' :: later)
                (fun found hfound => hfirst found (List.mem_cons_of_mem _ hfound))
                (fun found hfound => hsecond found (List.mem_cons_of_mem _ hfound))
                (List.cons_ne_nil _ _) (List.cons_ne_nil _ _) (List.cons.inj hback).2
              rw [String.toList_inj.1 hfront, hrest]

namespace CommonTokens

variable {common : CommonTokens} {tokens : List String}

/-! ## The window -/

/-- Without tokens the window ends at once. -/
@[simp] theorem windowEnd_nil : common.windowEnd [] = 1 := rfl

/-- The window lets runs pass that reach over the common tokens right behind the first token, or one
token further if the first one is common, but no run of more than three tokens. -/
theorem windowEnd_cons (first : String) (rest : List String) :
    common.windowEnd (first :: rest) =
      if common.isEmpty then 2
      else
        min (((rest.take 2).takeWhile common.contains).length + 2 +
            (if common.contains first then 1 else 0))
          ((rest.take 2).length + 2) := rfl

/-- Without common tokens the window lets at most one token pass. -/
theorem windowEnd_of_isEmpty (h : common.isEmpty = true) (tokens : List String) :
    common.windowEnd tokens ≤ 2 := by
  cases tokens with
  | nil => exact Nat.le_succ 1
  | cons first rest => simp [windowEnd_cons, h]

/-- A single token is always inside the window. -/
theorem one_lt_windowEnd (h : tokens ≠ []) : 1 < common.windowEnd tokens := by
  obtain ⟨first, rest, rfl⟩ := List.exists_cons_of_ne_nil h
  rw [windowEnd_cons]
  split
  · decide
  · omega

/-- Whether the window lets a run at the front pass can be told from the run. -/
theorem lt_windowEnd_iff {length : Nat} :
    length < common.windowEnd tokens ↔
      length ≤ tokens.length ∧ length < common.windowEnd (tokens.take length) := by
  cases tokens with
  | nil =>
      rw [List.take_nil, windowEnd_nil, List.length_nil]
      omega
  | cons first rest =>
      cases length with
      | zero =>
          have hone : 1 < common.windowEnd (first :: rest) :=
            one_lt_windowEnd (List.cons_ne_nil _ _)
          simp
          omega
      | succ length =>
          -- the window looks at no more than two tokens behind the first
          have htake : (rest.take length).take 2 = (rest.take 2).take length := by
            rw [List.take_take, List.take_take, Nat.min_comm]
          have hwhile : (((rest.take 2).take length).takeWhile common.contains).length =
              min length ((rest.take 2).takeWhile common.contains).length := by
            rw [← List.take_takeWhile, List.length_take]
          have hcount : ((rest.take 2).take length).length = min length (rest.take 2).length :=
            List.length_take
          have hfew : (rest.take 2).length ≤ rest.length := by
            rw [List.length_take]
            omega
          rw [List.take_succ_cons, windowEnd_cons, windowEnd_cons, htake, hwhile, hcount,
            List.length_cons]
          split
          · omega
          · omega

/-- What follows a run makes no difference to whether the window lets it pass. -/
theorem lt_windowEnd_append_iff {run later : List String} :
    run.length < common.windowEnd (run ++ later) ↔ run.length < common.windowEnd run := by
  rw [lt_windowEnd_iff, List.take_left, List.length_append]
  constructor
  · intro h
    exact h.2
  · intro h
    exact ⟨Nat.le_add_right _ _, h⟩

/-- A run that the window lets pass at the front of some tokens passes at the front of others. -/
theorem lt_windowEnd_of_take_eq {other : List String} {length : Nat}
    (h : length < common.windowEnd tokens) (hsame : other.take length = tokens.take length) :
    length < common.windowEnd other := by
  obtain ⟨hle, hlt⟩ := lt_windowEnd_iff.1 h
  have hcount := congrArg List.length hsame
  rw [List.length_take, List.length_take] at hcount
  refine lt_windowEnd_iff.2 ⟨by omega, ?_⟩
  rw [hsame]
  exact hlt

/-! ## Runs that are units -/

/-- Whether a run of tokens may be looked up as one. -/
def IsUnit (common : CommonTokens) (run : List String) : Prop :=
  run ≠ [] ∧ run.length < common.windowEnd run

/-- A token by itself is a unit. -/
theorem isUnit_singleton (token : String) : common.IsUnit [token] :=
  ⟨List.cons_ne_nil _ _, one_lt_windowEnd (List.cons_ne_nil _ _)⟩

/-- No unit has more than three tokens. -/
theorem IsUnit.length_le {run : List String} (h : common.IsUnit run) :
    run.length ≤ windowLength := by
  obtain ⟨hne, hlt⟩ := h
  obtain ⟨first, rest, rfl⟩ := List.exists_cons_of_ne_nil hne
  have hfew : (rest.take 2).length ≤ 2 := List.length_take_le 2 rest
  have hthree : windowLength = 3 := rfl
  rw [windowEnd_cons] at hlt
  split at hlt
  · omega
  · omega

/-- The runs that the window lets pass at the front of some tokens are units. -/
theorem isUnit_take {length : Nat} (hpos : 0 < length) (h : length < common.windowEnd tokens) :
    common.IsUnit (tokens.take length) := by
  obtain ⟨hle, hlt⟩ := lt_windowEnd_iff.1 h
  have hlength : (tokens.take length).length = length := List.length_take_of_le hle
  refine ⟨fun hnil => ?_, by rwa [hlength]⟩
  rw [hnil] at hlength
  simp at hlength
  omega

/-! ## Occurrences -/

/-- A unit occurs at a position as a token, or as a run of several tokens inside the window. -/
def Occurs (common : CommonTokens) (tokens : List String) (unit : String) (position : Nat) : Prop :=
  tokens[position]? = some unit ∨
    ∃ length, 2 ≤ length ∧ length < common.windowEnd (tokens.drop position) ∧
      joinTokens ((tokens.drop position).take length) = unit

/-- A unit occurs at a position in the text. -/
theorem Occurs.lt_length {unit : String} {position : Nat}
    (h : common.Occurs tokens unit position) : position < tokens.length := by
  rcases h with h | ⟨length, htwo, hlength, -⟩
  · exact (List.getElem?_eq_some_iff.1 h).1
  · refine Nat.lt_of_not_le fun hle => ?_
    rw [List.drop_eq_nil_of_le hle, windowEnd_nil] at hlength
    omega

/-- A unit occurs where its tokens stand. -/
theorem occurs_of_isPrefix {run : List String} (hrun : common.IsUnit run) {position : Nat}
    (h : run <+: tokens.drop position) : common.Occurs tokens (joinTokens run) position := by
  obtain ⟨hne, hwindow⟩ := hrun
  have htake : (tokens.drop position).take run.length = run := (List.prefix_iff_eq_take.1 h).symm
  have hpos : 0 < run.length := List.length_pos_iff.2 hne
  by_cases hone : run.length = 1
  · obtain ⟨token, rfl⟩ := List.length_eq_one_iff.1 hone
    refine Or.inl ?_
    obtain ⟨rest, hrest⟩ := h
    have hfirst : (tokens.drop position)[0]? = some token := by rw [← hrest]; rfl
    rw [List.getElem?_drop, Nat.add_zero] at hfirst
    rw [hfirst, joinTokens_singleton]
  · refine Or.inr ⟨run.length, by omega, lt_windowEnd_iff.2 ⟨h.length_le, ?_⟩, ?_⟩
    · rw [htake]
      exact hwindow
    · rw [htake]

/-- A unit whose tokens can be told from its text occurs nowhere else. -/
theorem occurs_joinTokens {admits : String → Prop} (hseparates : Separates admits)
    {run : List String} (hrun : common.IsUnit run) (hadmits : ∀ token ∈ run, admits token)
    (htokens : ∀ token ∈ tokens, admits token) {position : Nat} :
    common.Occurs tokens (joinTokens run) position ↔ run <+: tokens.drop position := by
  refine ⟨fun h => ?_, occurs_of_isPrefix hrun⟩
  rcases h with h | ⟨length, htwo, hlength, hjoin⟩
  · obtain ⟨hlt, htoken⟩ := List.getElem?_eq_some_iff.1 h
    -- a token is the join of one run only, that of itself
    have hsame : [tokens[position]] = run := by
      refine hseparates _ _ ?_ hadmits (List.cons_ne_nil _ _) hrun.1 (by simpa using htoken)
      intro token hmem
      rw [List.mem_singleton.1 hmem]
      exact htokens _ (List.getElem_mem hlt)
    rw [← hsame, List.drop_eq_getElem_cons hlt]
    exact List.prefix_append _ _
  · have hle := (lt_windowEnd_iff.1 hlength).1
    have hne : (tokens.drop position).take length ≠ [] := by
      refine List.ne_nil_of_length_pos ?_
      rw [List.length_take_of_le hle]
      omega
    have hsame : (tokens.drop position).take length = run := by
      refine hseparates _ _ ?_ hadmits hne hrun.1 hjoin
      intro token hmem
      exact htokens token (List.mem_of_mem_drop (List.mem_of_mem_take hmem))
    rw [← hsame]
    exact List.take_prefix _ _

/-- A merged unit with its position is the text of a run of several tokens that starts there. -/
theorem mem_mergedUnitsFrom {start position : Nat} {unit : String} :
    (position, unit) ∈ common.mergedUnitsFrom start tokens ↔
      ∃ offset length, position = start + offset ∧ 2 ≤ length ∧
        length < common.windowEnd (tokens.drop offset) ∧
        joinTokens ((tokens.drop offset).take length) = unit := by
  induction tokens generalizing start with
  | nil =>
      constructor
      · intro h
        cases h
      · intro hfound
        obtain ⟨offset, length, -, htwo, hlength, -⟩ := hfound
        rw [List.drop_nil, windowEnd_nil] at hlength
        omega
  | cons first rest ih =>
      rw [mergedUnitsFrom, List.mem_append, ih]
      constructor
      · intro h
        rcases h with h | ⟨offset, length, hposition, hlater⟩
        · obtain ⟨length, hlength, heq⟩ := List.mem_map.1 h
          obtain ⟨rfl, hunit⟩ := Prod.mk.inj heq
          rw [List.mem_range'_1] at hlength
          refine ⟨0, length, rfl, hlength.1, ?_, hunit⟩
          rw [List.drop_zero]
          omega
        · exact ⟨offset + 1, length, by omega, hlater⟩
      · intro hfound
        obtain ⟨offset, length, hposition, htwo, hlength, hunit⟩ := hfound
        cases offset with
        | zero =>
            rw [List.drop_zero] at hlength hunit
            refine Or.inl (List.mem_map.2 ⟨length, ?_, ?_⟩)
            · rw [List.mem_range'_1]
              omega
            · rw [hposition, hunit]
              rfl
        | succ offset => exact Or.inr ⟨offset, length, by omega, htwo, hlength, hunit⟩

/-- The longer units that are indexed are the runs inside the window. -/
theorem mem_mergedUnits {position : Nat} {unit : String} :
    (position, unit) ∈ common.mergedUnits tokens ↔
      ∃ length, 2 ≤ length ∧ length < common.windowEnd (tokens.drop position) ∧
        joinTokens ((tokens.drop position).take length) = unit := by
  unfold mergedUnits
  split
  · rename_i hempty
    constructor
    · intro h
      cases h
    · intro hfound
      obtain ⟨length, htwo, hlength, -⟩ := hfound
      have hle := windowEnd_of_isEmpty hempty (tokens.drop position)
      omega
  · rw [mem_mergedUnitsFrom]
    constructor
    · intro hfound
      obtain ⟨offset, length, hposition, h⟩ := hfound
      rw [Nat.zero_add] at hposition
      subst hposition
      exact ⟨length, h⟩
    · intro hfound
      obtain ⟨length, h⟩ := hfound
      exact ⟨position, length, (Nat.zero_add _).symm, h⟩

end CommonTokens
end Concordance
