import Concordance.Fusion.CommonTokens
import Concordance.Proofs.Record.Pieces
import Concordance.Proofs.Table

/-!
# Reading back common tokens

The file of a set of common tokens is read back token by token (`takeTokens_of_rest`), which yields
the same set (`ofFile_toBytes`).
-/

namespace Concordance
namespace CommonTokens

/-- A set that was written consists of tokens with lengths that fit, and the tokens stand one after
another. -/
theorem of_toBytes {common : CommonTokens} {bytes : Bytes} (h : common.toBytes = .ok bytes) :
    (∀ token ∈ common.toList, (Record.text token).fits = true) ∧
      bytes = (Record.int32 common.size.toUInt32.toInt32).toBytes ++
        (common.toList.map Record.text).flatMap Record.toBytes := by
  unfold toBytes at h
  obtain ⟨counted, hcount, h⟩ := Success.eq_ok_of_bind h
  obtain ⟨written, hwritten, h⟩ := Success.eq_ok_of_bind h
  cases h
  have hcounted := (Writer.of_put hcount).2
  rw [Writer.toBytes_empty, List.nil_append] at hcounted
  obtain ⟨hfits, hbytes⟩ := Writer.of_putAll hwritten
  constructor
  · intro token htoken
    exact hfits _ (List.mem_map_of_mem htoken)
  · rw [hbytes, hcounted]

/-- The file of a set has at least one byte for each token. -/
theorem size_le_length {common : CommonTokens} {bytes : Bytes} (h : common.toBytes = .ok bytes) :
    common.size ≤ bytes.length := by
  have htokens : ∀ tokens : List String,
      tokens.length ≤ ((tokens.map Record.text).flatMap Record.toBytes).length := by
    intro tokens
    induction tokens with
    | nil => exact Nat.le_refl 0
    | cons token rest ih =>
        have hpos : 0 < (Record.text token).toBytes.length := by
          rw [Record.toBytes, List.length_append]
          exact Nat.add_pos_left (Varint.length_encodeNat_pos _) _
        rw [List.map_cons, List.flatMap_cons, List.length_append, List.length_cons]
        omega
  have hsize : common.toList.length = common.size := List.length_map _
  rw [(of_toBytes h).2, List.length_append, ← hsize]
  exact Nat.le_trans (htokens common.toList) (Nat.le_add_left _ _)

/-- Tokens are taken until the input ends. -/
theorem takeTokens_eq (common : CommonTokens) (reader : Reader) (count : Nat) :
    takeTokens common reader count =
      Reader.takeUntilEnd Reader.takeText insert common reader count := by
  induction count generalizing common reader with
  | zero => rfl
  | succ count ih =>
      rw [takeTokens, Reader.takeUntilEnd]
      rcases reader.takeText with failure | ⟨token, later⟩
      · rfl
      · exact ih _ later

/-- Tokens are read back one by one. -/
theorem takeTokens_of_rest {tokens : List String} {reader : Reader} {after : Bytes}
    (hfits : ∀ token ∈ tokens, (Record.text token).fits = true)
    (h : reader.rest = (tokens.map Record.text).flatMap Record.toBytes ++ after)
    (common : CommonTokens) :
    takeTokens common reader tokens.length = .ok (tokens.foldl insert common) := by
  rw [List.flatMap_map] at h
  rw [takeTokens_eq]
  exact Reader.takeUntilEnd_of_rest insert
    (fun token htoken => Reader.reads_takeText (hfits token htoken)) h common

/-- Putting in one token after another builds the table from the entries of another one. -/
theorem foldl_insert_map (entries : List (String × Unit)) (common : CommonTokens) :
    ((entries.map (·.1)).foldl insert common).table =
      entries.foldl (fun later entry => later.insert entry.1 (id entry.2)) common.table := by
  induction entries generalizing common with
  | nil => rfl
  | cons entry rest ih => exact ih (common.insert entry.1)

/-- The tokens of a set make up this set. -/
theorem ofList_toList (common : CommonTokens) : ofList common.toList = common := by
  have htable : (ofList common.toList).table = common.table := by
    apply Table.ext_find?
    intro token
    rw [ofList, toList, Table.keys, foldl_insert_map]
    rw [show empty.table = Table.empty from rfl, Table.find?_foldl_insert, Option.map_id_fun]
    rfl
  exact congrArg CommonTokens.mk htable

/-- A set of common tokens comes back from its file. -/
theorem ofFile_toBytes {common : CommonTokens} {bytes : Bytes} (hsize : common.size < 2 ^ 31)
    (h : common.toBytes = .ok bytes) : ofFile (some bytes) = .ok common := by
  obtain ⟨hfits, hbytes⟩ := of_toBytes h
  obtain ⟨later, htake, hrest⟩ := @Reader.takeInt32_of_rest ⟨bytes, 0, {}⟩ _ _ hbytes
  have htokens := takeTokens_of_rest hfits (hrest.trans (List.append_nil _).symm) empty
  have hlength : common.toList.length = common.size := List.length_map _
  rw [hlength] at htokens
  simp only [ofFile, htake, Record.toNat_int32 hsize]
  exact htokens.trans (congrArg Except.ok (ofList_toList common))

/-- The file of a set can be read, even if 32 bits are too few for the number of its tokens. -/
theorem exists_ofFile {common : CommonTokens} {bytes : Bytes} (h : common.toBytes = .ok bytes) :
    ∃ found, ofFile (some bytes) = .ok found := by
  obtain ⟨hfits, hbytes⟩ := of_toBytes h
  obtain ⟨later, htake, hrest⟩ := @Reader.takeInt32_of_rest ⟨bytes, 0, {}⟩ _ _ hbytes
  have hcount := Record.toNat_int32_le common.size
  generalize hnumber : common.size.toUInt32.toInt32.toInt.toNat = count at hcount
  rw [← List.take_append_drop count common.toList, List.map_append, List.flatMap_append] at hrest
  have htokens := takeTokens_of_rest
    (fun token htoken => hfits token (List.mem_of_mem_take htoken)) hrest empty
  have hlength : common.toList.length = common.size := List.length_map _
  rw [List.length_take_of_le (hlength ▸ hcount)] at htokens
  refine ⟨(common.toList.take count).foldl insert empty, ?_⟩
  simp only [ofFile, htake, hnumber]
  exact htokens

end CommonTokens
end Concordance
