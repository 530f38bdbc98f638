import Concordance.Bytes
import Mathlib.Tactic.SplitIfs

/-!
# The order of texts

Texts are ordered by the code points of their characters. This is also the order of their UTF-8
bytes (`Bytes.ofText_lt_iff`), since the bytes of a lesser character are less at the first place at
which they differ (`Bytes.encode_lt`).
-/

namespace Concordance
namespace Bytes

/-- Numbers of one byte are ordered like their bytes. -/
theorem ofNat_lt_iff {first second : Nat} (hfirst : first < 256) (hsecond : second < 256) :
    UInt8.ofNat first < UInt8.ofNat second ↔ first < second := by
  rw [UInt8.lt_iff_toNat_lt, UInt8.toNat_ofNat', UInt8.toNat_ofNat', Nat.mod_eq_of_lt hfirst,
    Nat.mod_eq_of_lt hsecond]

/-- Numbers of one byte are equal if their bytes are. -/
theorem ofNat_eq_iff {first second : Nat} (hfirst : first < 256) (hsecond : second < 256) :
    UInt8.ofNat first = UInt8.ofNat second ↔ first = second := by
  rw [← UInt8.toNat_inj, UInt8.toNat_ofNat', UInt8.toNat_ofNat', Nat.mod_eq_of_lt hfirst,
    Nat.mod_eq_of_lt hsecond]

/-- The bytes of a lesser character come first, whatever follows. -/
theorem encode_lt {c d : Char} (h : c < d) (first second : Bytes) :
    String.utf8EncodeChar c ++ first < String.utf8EncodeChar d ++ second := by
  have hlt : c.val.toNat < d.val.toNat := h
  have hvalid : d.val.toNat < 0x110000 := by
    have := d.valid
    omega
  unfold String.utf8EncodeChar
  generalize c.val.toNat = v at *
  generalize d.val.toNat = w at *
  -- the bytes are the digits to base 64, and the leading digits keep the order
  have hv : v / 64 / 64 = v / 4096 ∧ v / 4096 / 64 = v / 262144 :=
    ⟨Nat.div_div_eq_div_mul v 64 64, Nat.div_div_eq_div_mul v 4096 64⟩
  have hw : w / 64 / 64 = w / 4096 ∧ w / 4096 / 64 = w / 262144 :=
    ⟨Nat.div_div_eq_div_mul w 64 64, Nat.div_div_eq_div_mul w 4096 64⟩
  have hleading : v / 64 ≤ w / 64 ∧ v / 4096 ≤ w / 4096 ∧ v / 262144 ≤ w / 262144 :=
    ⟨Nat.div_le_div_right (Nat.le_of_lt hlt), Nat.div_le_div_right (Nat.le_of_lt hlt),
      Nat.div_le_div_right (Nat.le_of_lt hlt)⟩
  have htop : v / 262144 % 8 = v / 262144 ∧ w / 262144 % 8 = w / 262144 :=
    ⟨Nat.mod_eq_of_lt (by omega), Nat.mod_eq_of_lt (by omega)⟩
  dsimp only
  split_ifs
  all_goals
    simp (disch := omega) only [List.cons_append, List.nil_append, List.cons_lt_cons_iff,
      ofNat_lt_iff, ofNat_eq_iff]
    omega

/-- Texts are ordered like the bytes of their characters. -/
theorem flatMap_encode_lt {first second : List Char} (h : first < second) :
    first.flatMap String.utf8EncodeChar < second.flatMap String.utf8EncodeChar := by
  induction h with
  | @nil d second =>
      obtain ⟨byte, bytes, hbytes⟩ := List.exists_cons_of_ne_nil (@String.utf8EncodeChar_ne_nil d)
      rw [List.flatMap_nil, List.flatMap_cons, hbytes]
      exact List.nil_lt_cons _ _
  | rel hlt => exact encode_lt hlt _ _
  | cons _ ih => exact List.append_left_lt ih

/-- The bytes of a text are those of its characters. -/
theorem ofText_eq (text : String) : ofText text = text.toList.flatMap String.utf8EncodeChar := by
  have hbytes : text.toUTF8 = text.toList.utf8Encode := by
    rw [← String.toByteArray_ofList, String.ofList_toList]
    rfl
  rw [ofText, hbytes, List.utf8Encode]
  simp

/-- The order of texts is the order of their bytes. -/
theorem ofText_lt_iff {first second : String} :
    ofText first < ofText second ↔ first < second := by
  have hbytes : ∀ {first second : String}, first < second → ofText first < ofText second := by
    intro first second h
    rw [ofText_eq, ofText_eq]
    exact flatMap_encode_lt (String.lt_iff.1 h)
  refine ⟨fun h => Classical.byContradiction fun hnot => ?_, hbytes⟩
  by_cases hlt : second < first
  · exact List.lt_asymm h (hbytes hlt)
  · rw [String.le_antisymm (String.not_lt.1 hlt) (String.not_lt.1 hnot)] at h
    exact List.lt_irrefl _ h

/-- The bytes of characters begin with those of others exactly if the characters do. -/
theorem flatMap_encode_prefix {first second : List Char} :
    first.flatMap String.utf8EncodeChar <+: second.flatMap String.utf8EncodeChar ↔
      first <+: second := by
  constructor
  · intro h
    induction first generalizing second with
    | nil => exact List.nil_prefix
    | cons c first ih =>
        obtain ⟨rest, hrest⟩ := h
        rw [List.flatMap_cons, List.append_assoc] at hrest
        cases second with
        | nil =>
            rw [List.flatMap_nil, List.append_eq_nil_iff] at hrest
            exact absurd hrest.1 String.utf8EncodeChar_ne_nil
        | cons d second =>
            rw [List.flatMap_cons] at hrest
            -- a lesser character in front would lead to lesser bytes
            have hsame : c = d := by
              refine Char.le_antisymm (Char.not_lt.1 fun hlt => ?_) (Char.not_lt.1 fun hlt => ?_)
              · exact List.lt_irrefl _ (hrest ▸ encode_lt hlt _ _)
              · exact List.lt_irrefl _ (hrest ▸ encode_lt hlt _ _)
            rw [hsame] at hrest ⊢
            exact (List.prefix_cons_inj d).2 (ih ⟨rest, List.append_cancel_left hrest⟩)
  · intro h
    obtain ⟨rest, rfl⟩ := h
    rw [List.flatMap_append]
    exact List.prefix_append _ _

/-- The bytes of a text begin with those of another exactly if the text does. -/
theorem ofText_prefix_iff {first second : String} :
    ofText first <+: ofText second ↔ first.toList <+: second.toList := by
  rw [ofText_eq, ofText_eq, flatMap_encode_prefix]

end Bytes
end Concordance
