import Mathlib.Data.String.Basic
import Mathlib.Data.UInt

/-!
# Texts in the order of their bytes

Names are put in the order of their code points, and a reader that goes by the encoded bytes puts
them in the order of those. It is the same order (`bytes_lt_bytes`): a character that is earlier is
encoded by bytes that are earlier, and by their first difference, so that it does not matter what
stands behind it.
-/

namespace NetplanEditor.Text

/-- The bytes that encode the text. -/
def bytes (text : String) : List UInt8 := text.toUTF8.data.toList

theorem bytes_eq (text : String) : bytes text = text.toList.flatMap String.utf8EncodeChar := by
  conv => lhs; rw [bytes, ← String.ofList_toList (s := text), String.toUTF8_eq_toByteArray]
  exact List.toList_data_toByteArray

theorem encode_lt {a b : Char} (before : a < b) (behind behind' : List UInt8) :
    String.utf8EncodeChar a ++ behind < String.utf8EncodeChar b ++ behind' := by
  have values : a.val.toNat < b.val.toNat := before
  have valid : b.val.toNat < 0x110000 := by
    rcases b.valid with low | ⟨_, high⟩ <;> omega
  simp only [String.utf8EncodeChar]
  generalize a.val.toNat = m at values ⊢
  generalize b.val.toNat = n at values valid ⊢
  -- More bytes start with a later first byte; the bytes of two that are as long are compared as the
  -- digits of their code points.
  split_ifs <;>
    simp (disch := omega) only [List.cons_append, List.nil_append, List.cons_lt_cons_iff,
      UInt8.lt_iff_toNat_lt, ← UInt8.toNat_inj, UInt8.toNat_ofNat', Nat.mod_eq_of_lt] <;>
    omega

theorem flatMap_encode_lt {as bs : List Char} (before : as < bs) :
    as.flatMap String.utf8EncodeChar < bs.flatMap String.utf8EncodeChar := by
  induction before with
  | nil =>
      rw [List.flatMap_cons]
      obtain ⟨byte, bytes, encoded⟩ := List.exists_cons_of_ne_nil String.utf8EncodeChar_ne_nil
      rw [encoded]
      exact List.nil_lt_cons _ _
  | rel before => exact encode_lt before _ _
  | cons _ ih => exact List.append_left_lt ih

/-- Texts are in the order of their bytes. -/
theorem bytes_lt_bytes {a b : String} : bytes a < bytes b ↔ a < b := by
  have mono {a b : String} (before : a < b) : bytes a < bytes b := by
    rw [bytes_eq, bytes_eq]
    exact flatMap_encode_lt (String.lt_iff_toList_lt.mp before)
  refine ⟨fun before => ?_, mono⟩
  rcases lt_trichotomy a b with lt | rfl | gt
  · exact lt
  · exact (List.lt_irrefl _ before).elim
  · exact (List.lt_asymm before (mono gt)).elim

theorem bytes_le_bytes {a b : String} : bytes a ≤ bytes b ↔ a ≤ b := by
  rw [← List.not_lt, bytes_lt_bytes, not_lt]

end NetplanEditor.Text
