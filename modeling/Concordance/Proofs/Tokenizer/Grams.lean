import Concordance.Tokenizer.Grams
import Mathlib.Data.List.Infix

/-!
# Grams of parts of a text

The grams of a text tell which pieces it has: a piece of at least the size of a gram is found where
its grams are (`windows_infix_iff`). If the grams with a breaking character are left out, which are
all that is skipped (`unbrokenGrams_eq`), the grams of a piece still stand one after another in
those of the text (`infix_unbrokenGrams`). By places, there is a gram at every place from which
enough characters are left (`windows_eq_map_range`).
-/

namespace Concordance
namespace Tokenizer

variable {size : Nat} {chars piece : List Char}

/-- The first window of a text that is long enough begins with its first character. -/
theorem windows_cons_of_le {c : Char} (h : size ≤ chars.length + 1) :
    windows size (c :: chars) = (c :: chars).take size :: windows size chars := by
  have hlength : ¬ ((c :: chars).take size).length < size := by
    rw [List.length_take, List.length_cons]
    omega
  simp only [windows, if_neg hlength]

/-- A text that is shorter than a gram has none. -/
theorem windows_of_lt (h : chars.length < size) : windows size chars = [] := by
  cases chars with
  | nil => rfl
  | cons c rest =>
      have hlength : ((c :: rest).take size).length < size := by
        rw [List.length_take]
        omega
      simp only [windows, if_pos hlength]

/-- A text that is as long as a gram has one. -/
theorem windows_ne_nil (hsize : 1 ≤ size) (h : size ≤ chars.length) : windows size chars ≠ [] := by
  cases chars with
  | nil =>
      rw [List.length_nil] at h
      omega
  | cons c rest =>
      rw [windows_cons_of_le h]
      exact List.cons_ne_nil _ _

/-- Every gram has its size. -/
theorem length_of_mem_windows {window : List Char} (h : window ∈ windows size chars) :
    window.length = size := by
  induction chars with
  | nil => cases h
  | cons c rest ih =>
      by_cases hle : size ≤ rest.length + 1
      · rw [windows_cons_of_le hle] at h
        rcases List.mem_cons.1 h with rfl | h
        · exact List.length_take_of_le hle
        · exact ih h
      · have hshort : (c :: rest).length < size := Nat.lt_of_not_le hle
        rw [windows_of_lt hshort] at h
        cases h

/-- The grams from a place on are the grams of what is left from there on. -/
theorem windows_drop (count : Nat) :
    windows size (chars.drop count) = (windows size chars).drop count := by
  induction count generalizing chars with
  | zero => rfl
  | succ count ih =>
      cases chars with
      | nil => rfl
      | cons c rest =>
          by_cases hle : size ≤ rest.length + 1
          · rw [windows_cons_of_le hle, List.drop_succ_cons, List.drop_succ_cons, ih]
          · have hshort : (c :: rest).length < size := Nat.lt_of_not_le hle
            rw [windows_of_lt hshort, List.drop_nil]
            refine windows_of_lt ?_
            rw [List.length_drop, List.length_cons]
            omega

/-- The grams of a piece come first if the piece does. -/
theorem windows_prefix_append (piece rest : List Char) :
    windows size piece <+: windows size (piece ++ rest) := by
  induction piece with
  | nil => exact List.nil_prefix
  | cons c piece ih =>
      by_cases hle : size ≤ piece.length + 1
      · have hmore : size ≤ (piece ++ rest).length + 1 := by
          rw [List.length_append]
          omega
        have hfirst : (c :: (piece ++ rest)).take size = (c :: piece).take size :=
          @List.take_append_of_le_length _ (c :: piece) rest size hle
        rw [List.cons_append, windows_cons_of_le hle, windows_cons_of_le hmore, hfirst]
        exact (List.prefix_cons_inj _).2 ih
      · have hshort : (c :: piece).length < size := Nat.lt_of_not_le hle
        rw [windows_of_lt hshort]
        exact List.nil_prefix

/-- A text begins with a piece if its grams begin with those of the piece. -/
theorem isPrefix_of_windows (hsize : 1 ≤ size) (hpiece : size ≤ piece.length)
    (h : windows size piece <+: windows size chars) : piece <+: chars := by
  induction piece generalizing chars with
  | nil =>
      rw [List.length_nil] at hpiece
      omega
  | cons c piece ih =>
      have hchars : size ≤ chars.length := by
        refine Nat.le_of_not_lt fun hshort => windows_ne_nil hsize hpiece ?_
        rw [windows_of_lt hshort] at h
        exact List.prefix_nil.1 h
      obtain ⟨d, rest, rfl⟩ := List.exists_cons_of_length_pos (Nat.lt_of_lt_of_le hsize hchars)
      rw [windows_cons_of_le hpiece, windows_cons_of_le hchars, List.cons_prefix_cons] at h
      obtain ⟨hfirst, hlater⟩ := h
      by_cases hlast : size ≤ piece.length
      · obtain ⟨size, rfl⟩ := Nat.exists_eq_add_of_le' hsize
        rw [List.take_succ_cons, List.take_succ_cons] at hfirst
        exact List.cons_prefix_cons.2 ⟨(List.cons.inj hfirst).1, ih hlast hlater⟩
      · -- the piece is its last gram
        rw [List.take_of_length_le (show (c :: piece).length ≤ size by
          rw [List.length_cons]
          omega)] at hfirst
        rw [hfirst]
        exact List.take_prefix _ _

/-- A text has the grams of its pieces, one after another. -/
theorem infix_windows (h : piece <:+: chars) : windows size piece <:+: windows size chars := by
  obtain ⟨front, back, rfl⟩ := h
  refine (windows_prefix_append piece back).isInfix.trans ?_
  rw [← @List.drop_left _ front (piece ++ back), windows_drop, List.append_assoc]
  exact (List.drop_suffix _ _).isInfix

/-- A text has a piece of at least the size of a gram where it has the grams of the piece. -/
theorem windows_infix_iff (hsize : 1 ≤ size) (hpiece : size ≤ piece.length) :
    windows size piece <:+: windows size chars ↔ piece <:+: chars := by
  refine ⟨fun h => ?_, infix_windows⟩
  obtain ⟨later, hprefix, hsuffix⟩ := List.infix_iff_prefix_suffix.1 h
  rw [List.suffix_iff_eq_drop.1 hsuffix, ← windows_drop] at hprefix
  exact (isPrefix_of_windows hsize hpiece hprefix).isInfix.trans (List.drop_suffix _ _).isInfix

/-! ## The tokenizer of grams -/

/-- Without a change of case, the token of a gram is as long as the gram. -/
theorem length_gram {window : List Char} (h : window ∈ windows size chars) :
    (gram false window).toList.length = size := by
  rw [gram, if_neg Bool.false_ne_true, String.toList_ofList]
  exact length_of_mem_windows h

/-- Without a change of case, a text has a piece where it has the tokens of the piece. -/
theorem grams_infix_iff (hsize : 1 ≤ size) (hpiece : size ≤ piece.length) :
    (windows size piece).map (gram false) <:+: (windows size chars).map (gram false) ↔
      piece <:+: chars := by
  rw [← windows_infix_iff hsize hpiece, List.infix_map_iff]
  constructor
  · intro h
    obtain ⟨found, hfound, heq⟩ := h
    have hsame := List.map_injective_iff.2 (fun _ _ => String.ofList_inj.1) heq
    rw [hsame]
    exact hfound
  · intro h
    exact ⟨_, h, rfl⟩

/-- The tokenizer of grams, of at least one character each. -/
theorem exists_grams (hsize : 1 ≤ size) (lowercase : Bool) :
    ∃ tokenizer, grams size lowercase = .ok tokenizer ∧
      ∀ text, tokenizer.tokens text =
        .ok ((windows size text.toList).map (gram lowercase)) := by
  unfold grams
  rw [if_neg (by omega)]
  exact ⟨_, rfl, fun text => rfl⟩

/-! ## Grams without a breaking character -/

variable {settings : GramSettings}

/-- Whether no character of a run breaks. -/
def unbroken (settings : GramSettings) (window : List Char) : Bool :=
  !window.any settings.breaks

/-- All grams up to a breaking character near the front hold this character. -/
theorem filter_windows_drop {place : Nat} {c : Char} (hplace : place < size)
    (hchar : chars[place]? = some c) (hbreaks : settings.breaks c = true) :
    (windows size (chars.drop (place + 1))).filter (unbroken settings) =
      (windows size chars).filter (unbroken settings) := by
  induction chars generalizing place with
  | nil => rw [List.drop_nil]
  | cons d rest ih =>
      by_cases hle : size ≤ rest.length + 1
      · have hbroken : unbroken settings ((d :: rest).take size) = false := by
          have hmem : c ∈ (d :: rest).take size := by
            rw [← List.getElem?_take_of_lt hplace] at hchar
            exact List.mem_of_getElem? hchar
          simpa [unbroken] using ⟨c, hmem, hbreaks⟩
        rw [windows_cons_of_le hle,
          List.filter_cons_of_neg (by rw [hbroken]; exact Bool.false_ne_true), List.drop_succ_cons]
        cases place with
        | zero => rw [List.drop_zero]
        | succ place => exact ih (Nat.lt_of_succ_lt hplace) hchar
      · have hshort : (d :: rest).length < size := Nat.lt_of_not_le hle
        have hshorter : ((d :: rest).drop (place + 1)).length < size := by
          rw [List.length_drop]
          omega
        rw [windows_of_lt hshort, windows_of_lt hshorter]

/-- The grams without a breaking character are all that is found, although the grams behind a
breaking character are skipped. -/
theorem unbrokenGrams_eq (settings : GramSettings) (chars : List Char) :
    unbrokenGrams settings chars =
      ((windows settings.size chars).filter (unbroken settings)).map (gram settings.lowercase) := by
  fun_induction unbrokenGrams settings chars with
  | case1 => rfl
  | case2 c rest window hshort =>
      have hlength : (c :: rest).length < settings.size := by
        rw [List.length_take] at hshort
        omega
      rw [windows_of_lt hlength]
      rfl
  | case3 c rest window hroom place hplace ih =>
      obtain ⟨hlt, hbreaks, -⟩ := List.findIdx?_eq_some_iff_getElem.1 hplace
      have hchar : (c :: rest)[place]? = some window[place] := by
        rw [← List.getElem?_eq_getElem hlt]
        exact (List.getElem?_take_of_lt (Nat.lt_of_lt_of_le hlt (List.length_take_le _ _))).symm
      have hlower : place < settings.size := Nat.lt_of_lt_of_le hlt (List.length_take_le _ _)
      rw [ih, ← filter_windows_drop hlower hchar hbreaks, List.drop_succ_cons]
  | case4 c rest window hroom hnone ih =>
      have hle : settings.size ≤ rest.length + 1 := by
        rw [List.length_take, List.length_cons] at hroom
        omega
      have hunbroken : unbroken settings ((c :: rest).take settings.size) = true := by
        rw [unbroken, Bool.not_eq_true', List.any_eq_false]
        exact fun d hd => by simpa using List.findIdx?_eq_none_iff.1 hnone d hd
      rw [windows_cons_of_le hle, List.filter_cons_of_pos hunbroken, List.map_cons, ih]

/-- The grams of a piece that are found stand one after another in those of the text, wherever the
piece begins and ends. -/
theorem infix_unbrokenGrams (h : piece <:+: chars) :
    unbrokenGrams settings piece <:+: unbrokenGrams settings chars := by
  rw [unbrokenGrams_eq, unbrokenGrams_eq]
  exact ((infix_windows h).filter _).map _

/-- The tokenizer of grams without a breaking character, of at least one character each. -/
theorem exists_breakingGrams (hsize : 1 ≤ settings.size) :
    ∃ tokenizer, breakingGrams settings = .ok tokenizer ∧
      ∀ text, tokenizer.tokens text = .ok (unbrokenGrams settings text.toList) := by
  unfold breakingGrams
  rw [if_neg (by omega)]
  exact ⟨_, rfl, fun text => rfl⟩

/-! ## Grams and their places -/

/-- The run of `size` characters from a place on. -/
def windowAt (size : Nat) (chars : List Char) (start : Nat) : List Char :=
  (chars.drop start).take size

/-- There is one gram for each place that has enough characters behind it, in the order of the
places. -/
theorem windows_eq_map_range (hsize : 1 ≤ size) (chars : List Char) :
    windows size chars =
      (List.range (chars.length + 1 - size)).map (windowAt size chars) := by
  induction chars with
  | nil =>
      have hnone : ([] : List Char).length + 1 - size = 0 := by
        rw [List.length_nil]
        omega
      rw [hnone]
      rfl
  | cons c rest ih =>
      by_cases hle : size ≤ rest.length + 1
      · have hcount : (c :: rest).length + 1 - size = rest.length + 1 - size + 1 := by
          rw [List.length_cons]
          omega
        rw [windows_cons_of_le hle, ih, hcount, List.range_succ_eq_map, List.map_cons,
          List.map_map]
        rfl
      · have hshort : (c :: rest).length < size := Nat.lt_of_not_le hle
        rw [windows_of_lt hshort, Nat.sub_eq_zero_of_le hshort]
        rfl

/-- **Skipping loses no gram.** Of the runs of as many characters as a gram has, the tokenizer of
all grams finds each one once, in the order of their places. The tokenizer that leaves behind what
is in front of a breaking character finds, in the same order, exactly those among them that hold no
breaking character. -/
theorem breaking_grams_exact (hsize : 1 ≤ settings.size) :
    ∃ all breaking, grams settings.size settings.lowercase = .ok all ∧
      breakingGrams settings = .ok breaking ∧ ∀ text : String,
        let places := List.range (text.toList.length + 1 - settings.size)
        let window := windowAt settings.size text.toList
        all.tokenize text =
          .ok (places.map fun place => gram settings.lowercase (window place)) ∧
        breaking.tokenize text =
          .ok ((places.filter fun place => unbroken settings (window place)).map
            fun place => gram settings.lowercase (window place)) := by
  unfold grams breakingGrams
  rw [if_neg (show ¬ settings.size = 0 by omega), if_neg (show ¬ settings.size = 0 by omega)]
  refine ⟨_, _, rfl, rfl, fun text => ⟨congrArg Except.ok ?_, congrArg Except.ok ?_⟩⟩
  · rw [windows_eq_map_range hsize, List.map_map]
    rfl
  · rw [unbrokenGrams_eq, windows_eq_map_range hsize, List.filter_map, List.map_map]
    rfl

/-- The grams of three characters of which none is an underscore. -/
def threeBetween : GramSettings :=
  { size := 3, lowercase := false, breaking := some ['_'] }

/-- Breaking characters at both ends and two that follow each other cost no gram beside them. -/
theorem breaking_grams_exact_between :
    1 ≤ threeBetween.size ∧ ∃ breaking, breakingGrams threeBetween = .ok breaking ∧
      breaking.tokenize "_abcd__ef_ghi_" = .ok ["abc", "bcd", "ghi"] := by
  obtain ⟨all, breaking, -, hbreaking, hgrams⟩ :=
    @breaking_grams_exact threeBetween (by decide)
  refine ⟨by decide, breaking, hbreaking, ?_⟩
  rw [(hgrams _).2]
  decide

end Tokenizer
end Concordance
