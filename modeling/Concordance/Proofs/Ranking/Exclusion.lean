import Concordance.Proofs.Ranking.Cursor

/-!
# The scorers of exclusions and preferences

The excluded scorer of an exclusion stays behind the required one, but never passes an excluded
document that the required scorer may still reach (`Behind`). Skipping therefore stops at the first
required document that is not excluded (`skipExcluded_spec`). A preference is a cursor over the
documents of its required scorer. Its optional scorer stays behind in the same way, so that it
reaches the document of a preference that is asked for its score if it has it at all.
-/

namespace Concordance

namespace Role

/-- The role of an exclusion. -/
def without (required excluded : Role) : Role where
  height := max required.height excluded.height + 1
  members document := required.members document ∧ ¬ excluded.members document
  worth := required.worth

/-- What a document is worth with a preference: more if it is preferred. -/
def PreferringWorth (required optional : Role) (document : DocumentId) (value : Float32) : Prop :=
  (optional.members document ∧
      ∃ first second, required.worth document first ∧ optional.worth document second ∧
        value = first + second) ∨
    ¬ optional.members document ∧ required.worth document value

/-- The role of a preference. -/
def preferring (required optional : Role) : Role where
  height := max required.height optional.height + 1
  members := required.members
  worth := PreferringWorth required optional

end Role

namespace Scorer

variable {required excluded optional : Role} {start bound : Nat}

/-- What bounds the height of a pair bounds that of its parts by one less. -/
theorem exists_bound_pair {first second : Nat} (h : max first second + 1 ≤ bound) :
    ∃ inner, bound = inner + 1 ∧ first ≤ inner ∧ second ≤ inner :=
  ⟨bound - 1, by omega, by omega, by omega⟩

/-- A scorer has not passed a document from a number on. -/
def Behind (role : Role) (start : Nat) (scorer : Scorer) : Prop :=
  ∃ current, role.Faithful current scorer ∧
    ∀ place, current = some place → ∀ document, role.members document →
      start ≤ document.toNat → place ≤ document

namespace Behind

variable {role : Role} {scorer : Scorer} {place : DocumentId}

/-- What is behind a number is behind a later one. -/
theorem raise (h : Behind role start scorer) {later : Nat} (hle : start ≤ later) :
    Behind role later scorer := by
  obtain ⟨current, hfaithful, hnear⟩ := h
  exact ⟨current, hfaithful, fun place hplace document hdocument hstart =>
    hnear place hplace document hdocument (Nat.le_trans hle hstart)⟩

/-- A scorer that has not moved is behind. -/
theorem of_none (h : role.Faithful none scorer) (start : Nat) : Behind role start scorer :=
  ⟨none, h, fun _ hplace => nomatch hplace⟩

/-- A scorer at its first document from a number on is behind that number. -/
theorem of_isFirst (hfirst : IsFirst role.members start place)
    (h : role.Faithful (some place) scorer) : Behind role start scorer := by
  refine ⟨some place, h, ?_⟩
  rintro _ ⟨⟩ document hdocument hle
  exact hfirst.le hdocument hle

/-- A scorer that is behind catches up with a place. -/
theorem reach (h : Behind role place.toNat scorer) (hbound : role.height ≤ bound) :
    ∃ caught, IsFirst role.members place.toNat caught ∧
      role.Faithful (some caught) (moveWithin bound (.advance place) scorer) := by
  obtain ⟨current, hfaithful, hnear⟩ := h
  exact hfaithful.reach hbound fun caught hcaught document hdocument hle =>
    hnear caught hcaught document hdocument (UInt32.le_iff_toNat_le.1 hle)

end Behind

/-- An exclusion at a place. -/
def WithoutAt (required excluded : Role) (current : Option DocumentId) (scorer : Scorer) : Prop :=
  ∃ first second, scorer = without first second current ∧ required.Faithful current first ∧
    Behind excluded (floor current) second ∧
    ∀ place, current = some place → place = noMore ∨ (required.without excluded).members place

/-- Skipping stops at the first required document that is not excluded. -/
theorem skipExcluded_spec {first second : Scorer} {place : DocumentId}
    (hrequired : required.height ≤ bound) (hexcluded : excluded.height ≤ bound)
    (hfirst : required.Faithful (some place) first) (hsecond : Behind excluded place.toNat second)
    (hstart : place = noMore ∨ start ≤ place.toNat)
    (hpassed : ∀ document, (required.without excluded).members document →
      start ≤ document.toNat → place ≤ document) :
    ∃ later, IsFirst (required.without excluded).members start later ∧
      WithoutAt required excluded (some later) (skipExcluded (moveWithin bound .next)
        (fun target => moveWithin bound (.advance target)) first second) := by
  fun_induction skipExcluded (moveWithin bound .next)
    (fun target => moveWithin bound (.advance target)) first second generalizing place with
  | case1 first second hend =>
      rw [hfirst.place_eq] at hend
      subst hend
      refine ⟨noMore, ⟨Or.inl rfl, hpassed⟩, first, second, rfl, hfirst, hsecond, ?_⟩
      rintro _ ⟨⟩
      exact Or.inl rfl
  | case2 first second hmore moved hexcl later hlt =>
      rename_i ih
      -- the place is excluded, so the next required document is tried
      obtain ⟨caught, hcaught, hmoved⟩ := hsecond.reach hexcluded
      obtain ⟨next, hnext, hlater⟩ := hfirst.next hrequired
      rw [hfirst.place_eq] at hmore
      rw [← hfirst.place_eq] at hmoved
      have hsame : caught = place := by
        rw [← hmoved.place_eq, ← hfirst.place_eq]
        exact hexcl
      have hfrom := hnext.le_toNat (after_le_noMore hmore)
      rw [after] at hfrom
      refine ih hlater ((Behind.of_isFirst hcaught hmoved).raise (by omega)) ?_ ?_
      · have hplace := hstart.resolve_left hmore
        exact Or.inr (by omega)
      · intro document hdocument hle
        have hne : document ≠ place := by
          rintro rfl
          exact hdocument.2 ((hcaught.eq_iff hmore).1 hsame)
        have hlt := UInt32.lt_of_le_of_ne (hpassed document hdocument hle) (Ne.symm hne)
        exact hnext.le hdocument.1 (UInt32.lt_iff_toNat_lt.1 hlt)
  | case3 first second hmore moved hexcl later =>
      rename_i hnlt
      -- a required cursor always gets further, so this case does not arise
      obtain ⟨next, hnext, hlater⟩ := hfirst.next hrequired
      have hfrom := hnext.le_toNat (after_le_noMore (hfirst.place_eq ▸ hmore))
      refine absurd ?_ hnlt
      rw [UInt32.lt_iff_toNat_lt, hfirst.place_eq, hlater.place_eq]
      exact hfrom
  | case4 first second hmore moved =>
      rename_i hnot
      -- the excluded scorer has caught up and stands elsewhere, so the place is not excluded
      obtain ⟨caught, hcaught, hmoved⟩ := hsecond.reach hexcluded
      rw [← hfirst.place_eq] at hmoved
      have hne : caught ≠ place := by
        rw [← hmoved.place_eq, ← hfirst.place_eq]
        exact hnot
      rw [hfirst.place_eq] at hmore
      have hmember : (required.without excluded).members place :=
        ⟨hfirst.valid.resolve_left hmore, mt (hcaught.eq_iff hmore).2 hne⟩
      refine ⟨place, ⟨Or.inr ⟨hmember, hstart.resolve_left hmore⟩, hpassed⟩, first, moved, ?_,
        hfirst, Behind.of_isFirst hcaught hmoved, ?_⟩
      · rw [hfirst.place_eq]
      · rintro _ ⟨⟩
        exact Or.inr hmember

/-- An exclusion is a cursor over the required documents that are not excluded. -/
theorem invariant_withoutAt (hbelow : ∀ document, required.members document → document < noMore) :
    (required.without excluded).Invariant (WithoutAt required excluded) where
  below := fun document h => hbelow document h.1
  height := by
    intro current scorer hfound
    obtain ⟨first, second, rfl, hfirst, ⟨place, hsecond, -⟩, -⟩ := hfound
    rw [height, hfirst.height, hsecond.height, Role.without]
  document := by
    intro current scorer hfound
    obtain ⟨first, second, rfl, -⟩ := hfound
    rfl
  valid := by
    intro place scorer hfound
    obtain ⟨first, second, rfl, -, -, hvalid⟩ := hfound
    exact hvalid place rfl
  next := by
    intro current scorer bound hfound hheight
    obtain ⟨first, second, rfl, hfirst, hsecond, -⟩ := hfound
    obtain ⟨bound, rfl, hrequired, hexcluded⟩ := exists_bound_pair hheight
    obtain ⟨place, hplace, hmoved⟩ := hfirst.next hrequired
    rw [next_without]
    refine skipExcluded_spec hrequired hexcluded hmoved (hsecond.raise ?_)
      (hplace.1.imp_right And.right) fun document hdocument hle => hplace.le hdocument.1 hle
    exact hplace.floor_le
  advance := by
    intro current scorer bound target hfound hheight hbefore
    obtain ⟨first, second, rfl, hfirst, hsecond, -⟩ := hfound
    obtain ⟨bound, rfl, hrequired, hexcluded⟩ := exists_bound_pair hheight
    obtain ⟨place, hplace, hmoved⟩ := hfirst.advance hrequired hbefore
    rw [advance_without hbefore]
    refine skipExcluded_spec hrequired hexcluded hmoved (hsecond.raise ?_)
      (hplace.1.imp_right And.right) fun document hdocument hle => hplace.le hdocument.1 hle
    exact Nat.le_trans (floor_le_of_isBefore hbefore) (hplace.le_toNat (toNat_le_noMore target))
  score := by
    intro current scorer bound hfound hheight
    obtain ⟨first, second, rfl, hfirst, hsecond, hvalid⟩ := hfound
    obtain ⟨bound, rfl, hrequired, -⟩ := exists_bound_pair hheight
    exact ⟨_, second, rfl, hfirst.score hrequired, hsecond, hvalid⟩
  worth := by
    intro place scorer bound hfound hheight hmore
    obtain ⟨first, second, rfl, hfirst, -⟩ := hfound
    obtain ⟨bound, rfl, hrequired, -⟩ := exists_bound_pair hheight
    exact hfirst.worth hrequired hmore
  again := by
    intro place scorer bound hfound hheight hmore
    obtain ⟨first, second, rfl, hfirst, -⟩ := hfound
    obtain ⟨bound, rfl, hrequired, -⟩ := exists_bound_pair hheight
    exact hfirst.again hrequired hmore

/-- An exclusion of cursors that have not moved is a cursor that has not moved. -/
theorem faithful_without {first second : Scorer} (hfirst : required.Faithful none first)
    (hsecond : excluded.Faithful none second) :
    (required.without excluded).Faithful none (without first second none) := by
  refine ⟨WithoutAt required excluded, invariant_withoutAt hfirst.below, first, second, rfl, hfirst,
    Behind.of_none hsecond _, fun _ hplace => ?_⟩
  cases hplace

/-! ## Preferences -/

/-- A preference at a place, with an optional scorer that is behind. -/
def PreferringAt (required optional : Role) (current : Option DocumentId) (scorer : Scorer) :
    Prop :=
  ∃ first second, scorer = preferring first second ∧ required.Faithful current first ∧
    Behind optional (floor current) second

/-- Asking for the score of a preference brings its optional scorer to its place. -/
theorem score_preferring (first second : Scorer) :
    (scoreWithin (bound + 1) (preferring first second)).2 =
      preferring (scoreWithin bound first).2
        (if (scoreWithin bound first).2.place = noMore then second
        else if (moveWithin bound (.advance (scoreWithin bound first).2.place) second).place =
            (scoreWithin bound first).2.place then
          (scoreWithin bound
            (moveWithin bound (.advance (scoreWithin bound first).2.place) second)).2
        else moveWithin bound (.advance (scoreWithin bound first).2.place) second) := by
  simp only [scoreWithin]
  split
  · rfl
  · split
    · rfl
    · rfl

/-- At a document, the score of the optional scorer is added if that scorer gets there. -/
theorem worth_preferring {first second : Scorer}
    (h : ¬ (scoreWithin bound first).2.place = noMore) :
    (scoreWithin (bound + 1) (preferring first second)).1 =
      if (moveWithin bound (.advance (scoreWithin bound first).2.place) second).place =
          (scoreWithin bound first).2.place then
        (scoreWithin bound first).1 + (scoreWithin bound
          (moveWithin bound (.advance (scoreWithin bound first).2.place) second)).1
      else (scoreWithin bound first).1 := by
  simp only [scoreWithin, if_neg h]
  split
  · rfl
  · rfl

/-- The parts of a preference that was asked for its score at a document: the required scorer was
asked, and the optional one was moved to the document, and asked if it got there. -/
theorem exists_asked_preferring {first second : Scorer} {document : DocumentId}
    (hrequired : required.height ≤ bound) (hoptional : optional.height ≤ bound)
    (hfirst : required.Faithful (some document) first)
    (hsecond : Behind optional document.toNat second) (hmore : document ≠ noMore) :
    ∃ caught, IsFirst optional.members document.toNat caught ∧
      optional.Faithful (some caught) (moveWithin bound (.advance document) second) ∧
      (scoreWithin (bound + 1) (preferring first second)).2 =
        preferring (scoreWithin bound first).2
          (if caught = document then
            (scoreWithin bound (moveWithin bound (.advance document) second)).2
          else moveWithin bound (.advance document) second) ∧
      (scoreWithin (bound + 1) (preferring first second)).1 =
        if caught = document then
          (scoreWithin bound first).1 +
            (scoreWithin bound (moveWithin bound (.advance document) second)).1
        else (scoreWithin bound first).1 := by
  obtain ⟨caught, hcaught, hmoved⟩ := hsecond.reach hoptional
  have hasked := (hfirst.score hrequired).place_eq
  have hend : ¬ (scoreWithin bound first).2.place = noMore := by rwa [hasked]
  refine ⟨caught, hcaught, hmoved, ?_, ?_⟩
  · rw [score_preferring, if_neg hend, hasked, hmoved.place_eq]
  · rw [worth_preferring hend, hasked, hmoved.place_eq]

/-- A preference is a cursor over the required documents. -/
theorem invariant_preferringAt
    (hbelow : ∀ document, required.members document → document < noMore) :
    (required.preferring optional).Invariant (PreferringAt required optional) where
  below := hbelow
  height := by
    intro current scorer h
    obtain ⟨first, second, rfl, hfirst, place, hsecond, -⟩ := h
    rw [height, hfirst.height, hsecond.height, Role.preferring]
  document := by
    intro current scorer h
    obtain ⟨first, second, rfl, hfirst, -⟩ := h
    exact hfirst.document
  valid := by
    intro place scorer h
    obtain ⟨first, second, rfl, hfirst, -⟩ := h
    exact hfirst.valid
  next := by
    intro current scorer bound h hheight
    obtain ⟨first, second, rfl, hfirst, hsecond⟩ := h
    obtain ⟨bound, rfl, hrequired, -⟩ := exists_bound_pair hheight
    obtain ⟨place, hplace, hmoved⟩ := hfirst.next hrequired
    exact ⟨place, hplace, _, second, next_preferring first second, hmoved,
      hsecond.raise hplace.floor_le⟩
  advance := by
    intro current scorer bound target h hheight hbefore
    obtain ⟨first, second, rfl, hfirst, hsecond⟩ := h
    obtain ⟨bound, rfl, hrequired, -⟩ := exists_bound_pair hheight
    obtain ⟨place, hplace, hmoved⟩ := hfirst.advance hrequired hbefore
    refine ⟨place, hplace, _, second, advance_preferring ?_, hmoved, hsecond.raise ?_⟩
    · rwa [hfirst.document]
    · exact Nat.le_trans (floor_le_of_isBefore hbefore) (hplace.le_toNat (toNat_le_noMore target))
  score := by
    intro current scorer bound h hheight
    obtain ⟨first, second, rfl, hfirst, hsecond⟩ := h
    obtain ⟨bound, rfl, hrequired, hoptional⟩ := exists_bound_pair hheight
    have hscored := hfirst.score hrequired
    rw [score_preferring]
    refine ⟨_, _, rfl, hscored, ?_⟩
    cases current with
    | none =>
        have hend : (scoreWithin bound first).2.place = noMore := by
          rw [place, hscored.document]
          rfl
        rwa [if_pos hend]
    | some place =>
        rw [hscored.place_eq]
        obtain ⟨caught, hcaught, hmoved⟩ := hsecond.reach hoptional
        split
        · exact hsecond
        · split
          · exact Behind.of_isFirst hcaught (hmoved.score hoptional)
          · exact Behind.of_isFirst hcaught hmoved
  worth := by
    intro place scorer bound h hheight hmore
    obtain ⟨first, second, rfl, hfirst, hsecond⟩ := h
    obtain ⟨bound, rfl, hrequired, hoptional⟩ := exists_bound_pair hheight
    obtain ⟨caught, hcaught, hmoved, -, hscore⟩ :=
      exists_asked_preferring hrequired hoptional hfirst hsecond hmore
    -- the optional scorer gets to the place exactly if the document is one of its own
    have hreached := hcaught.eq_iff hmore
    have hworth := hfirst.worth hrequired hmore
    rw [hscore]
    split
    · rename_i heq
      subst heq
      exact Or.inl ⟨hreached.1 rfl, _, _, hworth, hmoved.worth hoptional hmore, rfl⟩
    · rename_i hne
      exact Or.inr ⟨mt hreached.2 hne, hworth⟩
  again := by
    intro place scorer bound h hheight hmore
    obtain ⟨first, second, rfl, hfirst, hsecond⟩ := h
    obtain ⟨bound, rfl, hrequired, hoptional⟩ := exists_bound_pair hheight
    obtain ⟨caught, hcaught, hmoved, hasked, hscore⟩ :=
      exists_asked_preferring hrequired hoptional hfirst hsecond hmore
    have hscored := hfirst.score hrequired
    have hfaithful : optional.Faithful (some caught)
        (if caught = place then
          (scoreWithin bound (moveWithin bound (.advance place) second)).2
        else moveWithin bound (.advance place) second) := by
      split
      · exact hmoved.score hoptional
      · exact hmoved
    -- the optional scorer has caught up already, so it is not moved again
    have hstay : ¬ isBefore (some caught) place = true := by
      rw [isBefore, decide_eq_true_eq, UInt32.not_lt]
      exact UInt32.le_iff_toNat_le.2 (hcaught.le_toNat (toNat_le_noMore place))
    have hstill := @moveWithin_of_not_before bound place _ (hfaithful.document ▸ hstay)
    have hend : ¬ (scoreWithin bound (scoreWithin bound first).2).2.place = noMore := by
      rwa [(hscored.score hrequired).place_eq]
    rw [hasked, worth_preferring hend, (hscored.score hrequired).place_eq, hstill,
      hfaithful.place_eq, hfirst.again hrequired hmore, hscore]
    split
    · rename_i heq
      subst heq
      rw [hmoved.again hoptional hmore]
    · rfl

/-- A preference of cursors that have not moved is a cursor that has not moved. -/
theorem faithful_preferring {first second : Scorer} (hfirst : required.Faithful none first)
    (hsecond : optional.Faithful none second) :
    (required.preferring optional).Faithful none (preferring first second) :=
  ⟨PreferringAt required optional, invariant_preferringAt hfirst.below, first, second, rfl, hfirst,
    Behind.of_none hsecond _⟩

end Scorer
end Concordance
