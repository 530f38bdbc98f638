import Concordance.Proofs.Posting.Canonical
import Mathlib.Data.List.Nodup

/-!
# What normalizing keeps

A normalized list has the keys of the list it was made from, each once, and with each key the union
of the bitmaps that stood under it (`normalize_exact`). Nothing else about the list matters:
`eq_normalize` shows that keys and addresses alone determine the result, so it depends neither on
the order of the words nor on parts of the list being normalized before.
-/

namespace Concordance

namespace Word

/-- Words of one key are united under this key. -/
theorem key_or {first second : Word} (h : first.key = second.key) :
    (first ||| second).key = first.key :=
  key_eq_iff.2 (slot_or (key_eq_iff.1 h))

end Word

namespace Postings

variable {words first second : Postings} {word other key : Word}

/-- The union of the bitmaps of the words with a key. -/
def bitmapOf (words : Postings) (key : Word) : UInt16 :=
  ((words.filter fun word => word.key = key).map Word.bitmap).foldr (· ||| ·) 0

/-- The bits of a key are those of the first word, if it has the key, and of the others. -/
theorem bitmapOf_cons (word : Word) (words : Postings) (key : Word) :
    bitmapOf (word :: words) key =
      if word.key = key then word.bitmap ||| words.bitmapOf key else words.bitmapOf key := by
  unfold bitmapOf
  by_cases h : word.key = key <;> simp [h]

/-- A bit of the union is a bit of a word with the key. -/
theorem testBit_bitmapOf {b : Nat} :
    (words.bitmapOf key).toNat.testBit b ↔
      ∃ word ∈ words, word.key = key ∧ word.bitmap.toNat.testBit b := by
  induction words with
  | nil => simp [bitmapOf]
  | cons first rest ih =>
      rw [bitmapOf_cons]
      split
      · rename_i h
        rw [UInt16.toNat_or, Nat.testBit_or, Bool.or_eq_true, ih]
        simp [h]
      · rename_i h
        rw [ih]
        simp [h]

/-- The bits of the union are the addresses of the group. -/
theorem testBit_bitmapOf_key {b : Nat} (hb : b < 16) :
    (words.bitmapOf word.key).toNat.testBit b ↔ word.slot * 16 + b ∈ words.addresses := by
  have hslot : (word.slot * 16 + b) / 16 = word.slot := by omega
  have hbit : (word.slot * 16 + b) % 16 = b := by omega
  rw [testBit_bitmapOf, mem_addresses]
  constructor
  · intro hfound
    obtain ⟨other, hother, hkey, hset⟩ := hfound
    rw [Word.testBit_bitmap other hb] at hset
    exact ⟨other, hother, Word.mem_addresses.2
      ⟨hslot.trans (Word.key_eq_iff.1 hkey).symm, by rwa [hbit]⟩⟩
  · intro hfound
    obtain ⟨other, hother, hx⟩ := hfound
    obtain ⟨hother', hset⟩ := Word.mem_addresses.1 hx
    rw [hbit] at hset
    exact ⟨other, hother, Word.key_eq_iff.2 (hother'.symm.trans hslot),
      by rwa [Word.testBit_bitmap other hb]⟩

/-- The addresses determine the union for every word. -/
theorem bitmapOf_congr (h : ∀ x, x ∈ first.addresses ↔ x ∈ second.addresses) :
    first.bitmapOf word.key = second.bitmapOf word.key := by
  refine Bitmap.ext fun b hb => ?_
  rw [Bool.eq_iff_iff, testBit_bitmapOf_key hb, testBit_bitmapOf_key hb, h]

/-! ## Lists with ascending keys -/

/-- A list with ascending keys has one word for a group. -/
theorem Ascending.eq_of_slot_eq (h : words.Ascending) (hword : word ∈ words)
    (hother : other ∈ words) (hslot : word.slot = other.slot) : word = other := by
  have hnodup : (words.map Word.slot).Nodup :=
    (ascending_iff_map_slot.1 h).imp Nat.ne_of_lt
  exact List.inj_on_of_nodup_map hnodup hword hother hslot

/-- The addresses of a group belong to its word. -/
theorem Ascending.mem_word_iff (h : words.Ascending) (hword : word ∈ words) {x : Nat} :
    x ∈ word.addresses ↔ x ∈ words.addresses ∧ x / 16 = word.slot := by
  constructor
  · intro hx
    exact ⟨mem_addresses.2 ⟨word, hword, hx⟩, (Word.mem_addresses.1 hx).1⟩
  · intro hfound
    obtain ⟨hx, hslot⟩ := hfound
    obtain ⟨other, hother, hx⟩ := mem_addresses.1 hx
    have hsame : other = word :=
      h.eq_of_slot_eq hother hword ((Word.mem_addresses.1 hx).1.symm.trans hslot)
    rwa [← hsame]

/-- A word of a list with ascending keys has all bits that the list has under its key. -/
theorem Ascending.bitmap_eq (h : words.Ascending) (hword : word ∈ words) :
    word.bitmap = words.bitmapOf word.key := by
  apply UInt16.toNat_inj.1
  apply Nat.eq_of_testBit_eq
  intro b
  rw [Bool.eq_iff_iff, testBit_bitmapOf]
  constructor
  · intro hset
    exact ⟨word, hword, rfl, hset⟩
  · intro hfound
    obtain ⟨other, hother, hkey, hset⟩ := hfound
    rwa [← h.eq_of_slot_eq hother hword (Word.key_eq_iff.1 hkey)]

/-- Lists with ascending keys are equal if they have the same keys and the same addresses. -/
theorem Ascending.eq_of_keys (hfirst : first.Ascending) (hsecond : second.Ascending)
    (hkeys : ∀ key, key ∈ first.map Word.key ↔ key ∈ second.map Word.key)
    (haddresses : ∀ x, x ∈ first.addresses ↔ x ∈ second.addresses) : first = second := by
  have hword : ∀ word ∈ first, ∀ other ∈ second, word.key = other.key → word = other := by
    intro word hword other hother hkey
    have hslot := Word.key_eq_iff.1 hkey
    refine Word.eq_of_mem_addresses_iff hslot fun x => ?_
    rw [hfirst.mem_word_iff hword, hsecond.mem_word_iff hother, haddresses, hslot]
  refine hfirst.ext hsecond fun word => ⟨fun h => ?_, fun h => ?_⟩
  · obtain ⟨other, hother, hkey⟩ := List.mem_map.1 ((hkeys _).1 (List.mem_map_of_mem h))
    rwa [hword word h other hother hkey.symm]
  · obtain ⟨other, hother, hkey⟩ := List.mem_map.1 ((hkeys _).2 (List.mem_map_of_mem h))
    rwa [← hword other hother word h hkey]

/-! ## Keys -/

/-- Uniting neighbours keeps exactly the keys. -/
theorem mem_keys_unite (words : Postings) {key : Word} :
    key ∈ (unite words).map Word.key ↔ key ∈ words.map Word.key := by
  fun_induction unite words with
  | case1 first second rest h ih =>
      rw [ih, List.map_cons, Word.key_or h, List.map_cons, List.map_cons, ← h]
      simp
  | case2 first second rest h ih =>
      rw [List.map_cons, List.mem_cons, ih, List.map_cons (a := first), List.mem_cons]
  | case3 short h => exact Iff.rfl

/-- Normalizing keeps exactly the keys. -/
theorem mem_keys_normalize (words : Postings) {key : Word} :
    key ∈ (normalize words).map Word.key ↔ key ∈ words.map Word.key := by
  unfold normalize
  split
  · exact Iff.rfl
  · rw [mem_keys_unite]
    simp only [List.mem_map, List.mem_mergeSort]

/-- Normalizing keeps exactly the documents. -/
theorem mem_map_document_normalize (words : Postings) {document : DocumentId} :
    document ∈ (normalize words).map Word.document ↔ document ∈ words.map Word.document := by
  have hkeys : ∀ list : Postings,
      list.map Word.document = (list.map Word.key).map Word.document := by
    intro list
    rw [List.map_map]
    refine List.map_congr_left fun word _ => ?_
    rw [← UInt32.toNat_inj, Function.comp_apply, Word.toNat_document, Word.toNat_document,
      Word.slot_key]
  rw [hkeys, hkeys words, List.mem_map, List.mem_map]
  simp only [mem_keys_normalize]

/-- A list with ascending keys is the normalized form of any list with its keys and addresses. -/
theorem eq_normalize (h : first.Ascending)
    (hkeys : ∀ key, key ∈ first.map Word.key ↔ key ∈ words.map Word.key)
    (haddresses : ∀ x, x ∈ first.addresses ↔ x ∈ words.addresses) :
    first = words.normalize := by
  refine h.eq_of_keys (ascending_normalize words) (fun key => ?_) fun x => ?_
  · rw [hkeys, mem_keys_normalize]
  · rw [haddresses, mem_addresses_normalize]

/-! ## Independence of the order -/

/-- The addresses do not depend on the order of the words. -/
theorem mem_addresses_perm (h : first.Perm second) {x : Nat} :
    x ∈ first.addresses ↔ x ∈ second.addresses := by
  rw [mem_addresses, mem_addresses]
  simp only [h.mem_iff]

/-- Normalizing does not depend on the order of the words. -/
theorem normalize_perm (h : first.Perm second) : first.normalize = second.normalize := by
  refine eq_normalize (ascending_normalize first) (fun key => ?_) fun x => ?_
  · rw [mem_keys_normalize, (h.map Word.key).mem_iff]
  · rw [mem_addresses_normalize, mem_addresses_perm h]

/-- The words may be put into any order by key before neighbours are united, also if they are in
order already. -/
theorem unite_eq_normalize (h : first.Perm words)
    (hsorted : first.Pairwise fun left right => left.key ≤ right.key) :
    unite first = words.normalize := by
  refine eq_normalize (ascending_unite (hsorted.imp Word.key_le_iff.1)) (fun key => ?_) fun x => ?_
  · rw [mem_keys_unite, (h.map Word.key).mem_iff]
  · rw [mem_addresses_unite, mem_addresses_perm h]

/-- Parts of a list may be normalized before the whole list is. -/
theorem normalize_append (first second : Postings) :
    (first ++ second).normalize = (first.normalize ++ second.normalize).normalize := by
  refine eq_normalize (ascending_normalize _) (fun key => ?_) fun x => ?_
  · rw [mem_keys_normalize, List.map_append, List.map_append, List.mem_append, List.mem_append,
      mem_keys_normalize, mem_keys_normalize]
  · rw [mem_addresses_normalize, mem_addresses_append, mem_addresses_append,
      mem_addresses_normalize, mem_addresses_normalize]

/-- **Normalizing computes a canonical form.** The keys of the result ascend strictly, they are the
keys of the list, and each has the union of the bitmaps that stand under it in the list. The result
is the same for every order of the words, whichever way words of one key are ordered by the sort,
and normalizing again, or normalizing two parts before the whole, changes nothing. -/
theorem normalize_exact (words : Postings) :
    words.normalize.Ascending ∧
    (∀ key, key ∈ words.normalize.map Word.key ↔ key ∈ words.map Word.key) ∧
    (∀ word ∈ words.normalize, word.bitmap = words.bitmapOf word.key) ∧
    (∀ other : Postings, other.Perm words → other.normalize = words.normalize) ∧
    (∀ sorted : Postings, sorted.Perm words →
      (sorted.Pairwise fun left right => left.key ≤ right.key) →
      unite sorted = words.normalize) ∧
    words.normalize.normalize = words.normalize ∧
    ∀ later : Postings,
      (words ++ later).normalize = (words.normalize ++ later.normalize).normalize := by
  refine ⟨ascending_normalize words, fun key => mem_keys_normalize words, fun word hword => ?_,
    fun other h => normalize_perm h, fun sorted h hsorted => unite_eq_normalize h hsorted,
    normalize_normalize words, normalize_append words⟩
  rw [(ascending_normalize words).bitmap_eq hword]
  exact bitmapOf_congr fun x => mem_addresses_normalize words

/-- Words of one group around a word of another one, and a word without positions. -/
def scatteredWords : Postings :=
  [Word.pack 3 0 1, Word.pack 1 2 2, Word.pack 3 0 2, Word.pack 1 0 0]

/-- Neither the order of the words nor that of words of one key in the sorted list matters, and the
key without positions stays. -/
theorem normalize_exact_scattered :
    let reordered : Postings :=
      [Word.pack 3 0 2, Word.pack 1 0 0, Word.pack 3 0 1, Word.pack 1 2 2]
    let sorted : Postings :=
      [Word.pack 1 0 0, Word.pack 1 2 2, Word.pack 3 0 2, Word.pack 3 0 1]
    reordered.Perm scatteredWords ∧ sorted.Perm scatteredWords ∧
      (sorted.Pairwise fun left right => left.key ≤ right.key) ∧
      reordered.normalize = [Word.pack 1 0 0, Word.pack 1 2 2, Word.pack 3 0 3] := by
  intro reordered sorted
  have hreordered : reordered.Perm scatteredWords := by decide
  have hsorted : sorted.Perm scatteredWords := by decide
  have hascending : sorted.Pairwise fun left right => left.key ≤ right.key := by decide
  obtain ⟨-, -, -, hperm, hunite, -⟩ := normalize_exact scatteredWords
  refine ⟨hreordered, hsorted, hascending, ?_⟩
  rw [hperm reordered hreordered, ← hunite sorted hsorted hascending]
  simp only [sorted, unite]
  decide

end Postings
end Concordance
