import Concordance.Posting.Postings
import Concordance.Proofs.Ordered
import Concordance.Proofs.Posting.Word

/-!
# Canonical posting lists

A list is canonical if its keys ascend strictly and no bitmap is empty. `Canonical.ext` shows
that a set of addresses has at most one canonical list, and `mem_addresses_normalize` with
`ascending_normalize` that normalizing finds it.
-/

namespace Concordance
namespace Postings

/-- The keys of the words ascend strictly. -/
def Ascending (words : Postings) : Prop :=
  words.Pairwise fun first second => first.key < second.key

/-- No word has an empty bitmap. -/
def Full (words : Postings) : Prop :=
  ∀ word ∈ words, word.bitmap ≠ 0

/-- The form of a list in which it is stored and answered. -/
structure Canonical (words : Postings) : Prop where
  ascending : Ascending words
  full : Full words

/-- Whether words ascend can be checked. -/
instance (words : Postings) : Decidable words.Ascending :=
  inferInstanceAs (Decidable (words.Pairwise fun first second => first.key < second.key))

/-- Whether no word is empty can be checked. -/
instance (words : Postings) : Decidable words.Full :=
  List.decidableBAll (fun word : Word => word.bitmap ≠ 0) words

/-- Whether a list is canonical can be checked. -/
instance (words : Postings) : Decidable words.Canonical :=
  decidable_of_iff (words.Ascending ∧ words.Full)
    ⟨fun ⟨hascending, hfull⟩ => ⟨hascending, hfull⟩, fun ⟨hascending, hfull⟩ => ⟨hascending, hfull⟩⟩

/-! ## Addresses -/

/-- The addresses of a list are those of its words. -/
theorem mem_addresses {words : Postings} {x : Nat} :
    x ∈ words.addresses ↔ ∃ word ∈ words, x ∈ word.addresses := by
  simp [addresses]

/-- No words have no addresses. -/
@[simp] theorem addresses_nil : addresses [] = [] := rfl

/-- The first word adds its addresses to those of the others. -/
@[simp] theorem mem_addresses_cons {word : Word} {words : Postings} {x : Nat} :
    x ∈ addresses (word :: words) ↔ x ∈ word.addresses ∨ x ∈ words.addresses := by
  simp [addresses]

/-- Two lists together have the addresses of both. -/
@[simp] theorem mem_addresses_append {first second : Postings} {x : Nat} :
    x ∈ addresses (first ++ second) ↔ x ∈ first.addresses ∨ x ∈ second.addresses := by
  simp [addresses]

/-- The empty list has no empty words. -/
theorem Full.nil : Full [] := by
  intro word h
  cases h

/-- Two lists without empty words have none together. -/
theorem Full.append {first second : Postings} (hfirst : first.Full) (hsecond : second.Full) :
    Full (first ++ second) := by
  intro word h
  rcases List.mem_append.1 h with h | h
  · exact hfirst word h
  · exact hsecond word h

/-- The empty list is canonical. -/
theorem Canonical.nil : Canonical [] :=
  ⟨List.Pairwise.nil, Full.nil⟩

/-- A list without empty bitmaps has an address unless it is empty. -/
theorem Full.exists_mem {words : Postings} (h : words.Full) (hne : words ≠ []) :
    ∃ x, x ∈ words.addresses := by
  obtain ⟨word, rest, rfl⟩ := List.exists_cons_of_ne_nil hne
  obtain ⟨x, hx⟩ := Word.bitmap_ne_zero_iff.1 (h word List.mem_cons_self)
  exact ⟨x, mem_addresses_cons.2 (Or.inl hx)⟩

/-! ## Uniqueness -/

/-- Words ascend if the first one is below the others, and these ascend. -/
theorem ascending_cons {word : Word} {words : Postings} :
    Ascending (word :: words) ↔ (∀ later ∈ words, word.slot < later.slot) ∧ Ascending words := by
  simp only [Ascending, List.pairwise_cons, Word.key_lt_iff]

/-- In a list with ascending keys the addresses of the first group belong to the first word. -/
theorem mem_head_iff {word : Word} {words : Postings} (h : Ascending (word :: words)) {x : Nat} :
    x ∈ word.addresses ↔ x ∈ addresses (word :: words) ∧ x / 16 = word.slot := by
  constructor
  · intro hx
    exact ⟨mem_addresses_cons.2 (Or.inl hx), (Word.mem_addresses.1 hx).1⟩
  · intro hfound
    obtain ⟨hx, hslot⟩ := hfound
    rcases mem_addresses_cons.1 hx with hx | hx
    · exact hx
    · obtain ⟨later, hlater, hx⟩ := mem_addresses.1 hx
      have hlt := (ascending_cons.1 h).1 later hlater
      have heq := (Word.mem_addresses.1 hx).1
      omega

/-- The addresses of the later words are those of other groups. -/
theorem mem_tail_iff {word : Word} {words : Postings} (h : Ascending (word :: words)) {x : Nat} :
    x ∈ addresses words ↔ x ∈ addresses (word :: words) ∧ x / 16 ≠ word.slot := by
  constructor
  · intro hx
    refine ⟨mem_addresses_cons.2 (Or.inr hx), ?_⟩
    obtain ⟨later, hlater, hx⟩ := mem_addresses.1 hx
    have hlt := (ascending_cons.1 h).1 later hlater
    have heq := (Word.mem_addresses.1 hx).1
    omega
  · intro hfound
    obtain ⟨hx, hslot⟩ := hfound
    rcases mem_addresses_cons.1 hx with hx | hx
    · exact absurd (Word.mem_addresses.1 hx).1 hslot
    · exact hx

/-- What follows the first word of a canonical list is canonical. -/
theorem Canonical.tail {word : Word} {words : Postings} (h : Canonical (word :: words)) :
    Canonical words :=
  ⟨(ascending_cons.1 h.ascending).2,
    fun later hlater => h.full later (List.mem_cons_of_mem _ hlater)⟩

/-- The first group of a list does not lie behind any group that occurs in it. -/
theorem Canonical.head_slot_le {word : Word} {words : Postings} (h : Canonical (word :: words))
    {x : Nat} (hx : x ∈ addresses (word :: words)) : word.slot ≤ x / 16 := by
  rcases mem_addresses_cons.1 hx with hx | hx
  · exact Nat.le_of_eq (Word.mem_addresses.1 hx).1.symm
  · obtain ⟨later, hlater, hx⟩ := mem_addresses.1 hx
    have hlt := (ascending_cons.1 h.ascending).1 later hlater
    have heq := (Word.mem_addresses.1 hx).1
    omega

/-- A set of addresses has at most one canonical list. -/
theorem Canonical.ext {first second : Postings} (hfirst : first.Canonical)
    (hsecond : second.Canonical) (h : ∀ x, x ∈ first.addresses ↔ x ∈ second.addresses) :
    first = second := by
  induction first generalizing second with
  | nil =>
      cases second with
      | nil => rfl
      | cons word rest =>
          obtain ⟨x, hx⟩ := hsecond.full.exists_mem (List.cons_ne_nil word rest)
          exact absurd ((h x).2 hx) (by simp)
  | cons word rest ih =>
      cases second with
      | nil =>
          obtain ⟨x, hx⟩ := hfirst.full.exists_mem (List.cons_ne_nil word rest)
          exact absurd ((h x).1 hx) (by simp)
      | cons other others =>
          have hslot : word.slot = other.slot := by
            obtain ⟨x, hx⟩ := Word.bitmap_ne_zero_iff.1 (hfirst.full word List.mem_cons_self)
            obtain ⟨y, hy⟩ := Word.bitmap_ne_zero_iff.1 (hsecond.full other List.mem_cons_self)
            have hle := hsecond.head_slot_le ((h x).1 (mem_addresses_cons.2 (Or.inl hx)))
            have hge := hfirst.head_slot_le ((h y).2 (mem_addresses_cons.2 (Or.inl hy)))
            have hxs := (Word.mem_addresses.1 hx).1
            have hys := (Word.mem_addresses.1 hy).1
            omega
          have hword : word = other := by
            refine Word.eq_of_mem_addresses_iff hslot fun x => ?_
            rw [mem_head_iff hfirst.ascending, mem_head_iff hsecond.ascending, h x, hslot]
          have hrest : rest = others := by
            refine ih hfirst.tail hsecond.tail fun x => ?_
            rw [mem_tail_iff hfirst.ascending, mem_tail_iff hsecond.ascending, h x, hslot]
          rw [hword, hrest]

/-- Keys ascend if the slots do. -/
theorem ascending_iff_map_slot {words : Postings} :
    words.Ascending ↔ (words.map Word.slot).Pairwise (· < ·) := by
  rw [List.pairwise_map]
  exact List.Pairwise.iff fun _ _ => Word.key_lt_iff

/-- Both parts of an ascending list ascend, and the first one is below the second one. -/
theorem Ascending.append {first second : Postings} (h : Ascending (first ++ second)) :
    first.Ascending ∧ second.Ascending ∧ ∀ a ∈ first, ∀ b ∈ second, a.slot < b.slot := by
  obtain ⟨hfirst, hsecond, hlt⟩ := List.pairwise_append.1 h
  exact ⟨hfirst, hsecond, fun a ha b hb => Word.key_lt_iff.1 (hlt a ha b hb)⟩

/-- Lists with ascending keys and the same words are equal. -/
theorem Ascending.ext {first second : Postings} (hfirst : first.Ascending)
    (hsecond : second.Ascending) (h : ∀ word, word ∈ first ↔ word ∈ second) : first = second := by
  refine Ordered.eq_of_pairwise ?_ hfirst hsecond h
  intro a b hab hba
  rw [Word.key_lt_iff] at hab hba
  omega

/-- The last word of a list with ascending keys has the largest slot. -/
theorem Ascending.slot_le_getLast {words : Postings} (h : words.Ascending) {last : Word}
    (hlast : words.getLast? = some last) {word : Word} (hword : word ∈ words) :
    word.slot ≤ last.slot := by
  obtain ⟨earlier, rfl⟩ := List.getLast?_eq_some_iff.1 hlast
  rcases List.mem_append.1 hword with hword | hword
  · exact Nat.le_of_lt (h.append.2.2 word hword last List.mem_cons_self)
  · exact Nat.le_of_eq (congrArg Word.slot (List.mem_singleton.1 hword))

/-! ## Normalizing -/

/-- The check for normalized lists says whether words ascend. -/
theorem isNormalized_iff {words : Postings} : isNormalized words = true ↔ words.Ascending := by
  induction words with
  | nil => exact ⟨fun _ => List.Pairwise.nil, fun _ => rfl⟩
  | cons first rest ih =>
      cases rest with
      | nil => exact ⟨fun _ => List.pairwise_singleton _ _, fun _ => rfl⟩
      | cons second rest =>
          rw [isNormalized, Bool.and_eq_true, ih, decide_eq_true_eq]
          constructor
          · intro hfound
            obtain ⟨hlt, h⟩ := hfound
            refine ascending_cons.2 ⟨fun later hlater => ?_, h⟩
            have hfirst := Word.key_lt_iff.1 hlt
            rcases List.mem_cons.1 hlater with rfl | hlater
            · exact hfirst
            · exact Nat.lt_trans hfirst ((ascending_cons.1 h).1 later hlater)
          · intro h
            obtain ⟨hlt, h⟩ := ascending_cons.1 h
            exact ⟨Word.key_lt_iff.2 (hlt second List.mem_cons_self), h⟩

/-- Uniting neighbours changes no address. -/
theorem mem_addresses_unite (words : Postings) {x : Nat} :
    x ∈ addresses (unite words) ↔ x ∈ words.addresses := by
  fun_induction unite words with
  | case1 first second rest h ih =>
      rw [ih, mem_addresses_cons, mem_addresses_cons, mem_addresses_cons,
        Word.mem_addresses_or (Word.key_eq_iff.1 h), or_assoc]
  | case2 first second rest h ih =>
      rw [mem_addresses_cons, ih, @mem_addresses_cons first (second :: rest)]
  | case3 short h => exact Iff.rfl

/-- Every word of a united list stands for a group of the list. -/
theorem exists_slot_of_mem_unite {words : Postings} {word : Word} (h : word ∈ unite words) :
    ∃ other ∈ words, other.slot = word.slot := by
  fun_induction unite words with
  | case1 first second rest hkey ih =>
      obtain ⟨other, hother, hslot⟩ := ih h
      rcases List.mem_cons.1 hother with rfl | hother
      · refine ⟨first, List.mem_cons_self, ?_⟩
        rw [← hslot, Word.slot_or (Word.key_eq_iff.1 hkey)]
      · exact ⟨other, by simp [hother], hslot⟩
  | case2 first second rest hkey ih =>
      rcases List.mem_cons.1 h with rfl | h
      · exact ⟨word, List.mem_cons_self, rfl⟩
      · obtain ⟨other, hother, hslot⟩ := ih h
        exact ⟨other, List.mem_cons_of_mem _ hother, hslot⟩
  | case3 short hshort => exact ⟨word, h, rfl⟩

/-- Uniting neighbours makes keys that do not descend ascend strictly. -/
theorem ascending_unite {words : Postings}
    (h : words.Pairwise fun first second => first.slot ≤ second.slot) :
    Ascending (unite words) := by
  fun_induction unite words with
  | case1 first second rest hkey ih =>
      obtain ⟨hfirst, hrest⟩ := List.pairwise_cons.1 h
      refine ih (List.pairwise_cons.2 ⟨fun later hlater => ?_, (List.pairwise_cons.1 hrest).2⟩)
      rw [Word.slot_or (Word.key_eq_iff.1 hkey)]
      exact hfirst later (List.mem_cons_of_mem _ hlater)
  | case2 first second rest hkey ih =>
      obtain ⟨hfirst, hrest⟩ := List.pairwise_cons.1 h
      refine ascending_cons.2 ⟨fun later hlater => ?_, ih hrest⟩
      have hne : first.slot ≠ second.slot := fun heq => hkey (Word.key_eq_iff.2 heq)
      have hle := hfirst second List.mem_cons_self
      -- a later word of the united list stands for a group of the second word or of one behind it
      obtain ⟨other, hother, hslot⟩ := exists_slot_of_mem_unite hlater
      rcases List.mem_cons.1 hother with rfl | hother
      · omega
      · have hmid := (List.pairwise_cons.1 hrest).1 other hother
        omega
  | case3 short hshort =>
      cases short with
      | nil => exact List.Pairwise.nil
      | cons word rest =>
          cases rest with
          | nil => exact List.pairwise_singleton _ _
          | cons other rest => exact absurd rfl (hshort word other rest)

/-- Uniting words of one key yields no empty words. -/
theorem full_unite {words : Postings} (h : words.Full) : Full (unite words) := by
  fun_induction unite words with
  | case1 first second rest hkey ih =>
      refine ih fun word hword => ?_
      rcases List.mem_cons.1 hword with rfl | hword
      · obtain ⟨x, hx⟩ := Word.bitmap_ne_zero_iff.1 (h first List.mem_cons_self)
        exact Word.bitmap_ne_zero_iff.2
          ⟨x, (Word.mem_addresses_or (Word.key_eq_iff.1 hkey)).2 (Or.inl hx)⟩
      · exact h word (by simp [hword])
  | case2 first second rest hkey ih =>
      intro word hword
      rcases List.mem_cons.1 hword with rfl | hword
      · exact h word List.mem_cons_self
      · exact ih (fun other hother => h other (List.mem_cons_of_mem _ hother)) word hword
  | case3 short hshort => exact h

/-- Uniting words of one key does not make a list longer. -/
theorem length_unite_le (words : Postings) : (unite words).length ≤ words.length := by
  fun_induction unite words with
  | case1 first second rest hkey ih => exact Nat.le_trans ih (Nat.le_succ _)
  | case2 first second rest hkey ih => exact Nat.succ_le_succ ih
  | case3 short hshort => exact Nat.le_refl _

/-- Normalizing makes no list longer. -/
theorem length_normalize_le (words : Postings) : (normalize words).length ≤ words.length := by
  unfold normalize
  split
  · exact Nat.le_refl _
  · exact Nat.le_trans (length_unite_le _) (Nat.le_of_eq (List.length_mergeSort words))

/-- Normalizing changes no address. -/
theorem mem_addresses_normalize (words : Postings) {x : Nat} :
    x ∈ addresses (normalize words) ↔ x ∈ words.addresses := by
  unfold normalize
  split
  · exact Iff.rfl
  · rw [mem_addresses_unite, mem_addresses, mem_addresses]
    simp only [List.mem_mergeSort]

/-- Normalized lists have strictly ascending keys. -/
theorem ascending_normalize (words : Postings) : Ascending (normalize words) := by
  unfold normalize
  split
  · rename_i h
    exact isNormalized_iff.1 h
  · refine ascending_unite ?_
    have hsorted : (words.mergeSort fun left right => left.key ≤ right.key).Pairwise
        fun left right => decide (left.key ≤ right.key) = true := by
      refine List.pairwise_mergeSort (fun a b c hab hbc => ?_) (fun a b => ?_) words
      · simp only [decide_eq_true_eq, Word.key_le_iff] at hab hbc ⊢
        exact Nat.le_trans hab hbc
      · simp only [Bool.or_eq_true, decide_eq_true_eq, Word.key_le_iff]
        exact Nat.le_total _ _
    exact hsorted.imp fun h => Word.key_le_iff.1 (of_decide_eq_true h)

/-- Normalizing yields no empty words. -/
theorem full_normalize {words : Postings} (h : words.Full) : Full (normalize words) := by
  unfold normalize
  split
  · exact h
  · exact full_unite fun word hword => h word (List.mem_mergeSort.1 hword)

/-- Without empty bitmaps, normalizing gives the canonical list. -/
theorem canonical_normalize {words : Postings} (h : words.Full) : Canonical (normalize words) :=
  ⟨ascending_normalize words, full_normalize h⟩

/-- Normalizing twice is normalizing once. -/
theorem normalize_normalize (words : Postings) : words.normalize.normalize = words.normalize := by
  have h : isNormalized words.normalize = true := isNormalized_iff.2 (ascending_normalize words)
  rw [normalize, if_pos h]

/-! ## Dropping empty words -/

/-- Empty words have no addresses, so that dropping them loses none. -/
theorem mem_addresses_dropEmpty (words : Postings) {x : Nat} :
    x ∈ addresses (dropEmpty words) ↔ x ∈ words.addresses := by
  rw [mem_addresses, mem_addresses]
  constructor
  · intro h
    obtain ⟨word, hword, hx⟩ := h
    exact ⟨word, (List.mem_filter.1 hword).1, hx⟩
  · intro h
    obtain ⟨word, hword, hx⟩ := h
    refine ⟨word, List.mem_filter.2 ⟨hword, ?_⟩, hx⟩
    exact decide_eq_true (Word.bitmap_ne_zero_iff.2 ⟨x, hx⟩)

/-- An ascending list is canonical without its empty words. -/
theorem canonical_dropEmpty {words : Postings} (h : words.Ascending) :
    Canonical (dropEmpty words) :=
  ⟨h.filter _, fun _ hword => of_decide_eq_true (List.mem_filter.1 hword).2⟩

end Postings
end Concordance
