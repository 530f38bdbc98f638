import Concordance.Proofs.Bytes
import Concordance.Storage.DocumentLengths

/-!
# Reading back document lengths

Setting the length of a document changes what is found for this document only (`get_set`). A table
comes back from its file (`ofFile_toBytes`).
-/

namespace Concordance
namespace DocumentLengths

/-! ## Lookups -/

/-- A table that is extended reads as before, as what was added reads like what is missing. -/
theorem getD_extend {α : Type} (table : Array α) (size place : Nat) (filler : α) :
    (extend table size filler).getD place filler = table.getD place filler := by
  rw [Array.getD_eq_getD_getElem?, Array.getD_eq_getD_getElem?, extend, Array.getElem?_append]
  split
  · rfl
  · rename_i hplace
    rw [Array.getElem?_eq_none (Nat.le_of_not_lt hplace), Array.getElem?_replicate]
    split
    · rfl
    · rfl

/-- Writing at a place of a table that is long enough changes this place only. -/
theorem getD_set_extend {α : Type} (table : Array α) (place other : Nat) (filler value : α) :
    ((extend table (place + 1) filler).setIfInBounds place value).getD other filler =
      if other = place then value else table.getD other filler := by
  have hroom : place < (extend table (place + 1) filler).size := by
    rw [extend, Array.size_append, Array.size_replicate]
    omega
  rw [Array.getD_eq_getD_getElem?, Array.getElem?_setIfInBounds]
  by_cases h : other = place
  · rw [if_pos h, h, if_pos rfl, if_pos hroom]
    rfl
  · rw [if_neg h, if_neg (Ne.symm h), ← Array.getD_eq_getD_getElem?, getD_extend]

/-- Setting the length of a document changes no other one. -/
theorem get_set (table : DocumentLengths) (document other : DocumentId) (length : UInt32) :
    (table.set document length).get other =
      if other = document then length else table.get other := by
  rw [get, set, getD_set_extend]
  exact if_congr UInt32.toNat_inj rfl rfl

/-! ## Files -/

/-- Four bytes in front of others make one number. -/
theorem numbers_append {front : Bytes} (h : front.length = 4) (rest : Bytes) :
    numbers (front ++ rest) = front.toNat.toUInt32 :: numbers rest := by
  match front, h with
  | [b0, b1, b2, b3], _ => rfl

/-- The numbers of a file are those that were written. -/
theorem numbers_flatMap (lengths : List UInt32) :
    numbers (lengths.flatMap Bytes.ofUInt32) = lengths := by
  induction lengths with
  | nil => rfl
  | cons length lengths ih =>
      rw [List.flatMap_cons, numbers_append (Bytes.length_ofUInt32 length),
        Bytes.toUInt32_ofUInt32, ih]

/-- A table comes back from its file. -/
theorem ofFile_toBytes (table : DocumentLengths) : ofFile (some table.toBytes) = table := by
  have hnumbers : numbers table.toBytes = table.lengths.toList := numbers_flatMap _
  rw [ofFile, Option.getD_some, hnumbers, Array.toArray_toList]

end DocumentLengths
end Concordance
