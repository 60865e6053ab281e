import Mathlib.Data.List.Basic
import Mathlib.Tactic.SplitIfs

/-!
# The order of names is that of their bytes

Names are kept in the order of their characters. Written out in UTF-8 they are
in the same order, byte by byte (`bytes_lt_of_lt`). A character that comes
later has larger bytes: the first byte tells their number, more of them for a
larger character, and the bytes hold the character from its highest bits down.
-/

namespace CallChart.Text

/-- The bytes of a text in UTF-8. -/
def bytes (text : String) : List UInt8 := text.toUTF8.data.toList

/-- The bytes of a text are those of its characters. -/
theorem bytes_eq (text : String) : bytes text = text.toList.flatMap String.utf8EncodeChar := by
  rw [bytes, String.toUTF8_eq_toByteArray, ← String.utf8Encode_toList, List.utf8Encode,
    List.data_toByteArray]

/-! ## Characters -/

/-- Bytes are compared as numbers. -/
theorem ofNat_cons_lt_iff {a b : Nat} (ha : a < 256) (hb : b < 256) {as bs : List UInt8} :
    UInt8.ofNat a :: as < UInt8.ofNat b :: bs ↔ a < b ∨ a = b ∧ as < bs := by
  rw [List.cons_lt_cons_iff, UInt8.lt_iff_toNat_lt, ← UInt8.toNat_inj, UInt8.toNat_ofNat_of_lt' ha,
    UInt8.toNat_ofNat_of_lt' hb]

open String in
/-- **The bytes of a character that comes first are smaller**, whatever follows either. -/
theorem utf8EncodeChar_append_lt {c d : Char} (before : c < d) (cs ds : List UInt8) :
    utf8EncodeChar c ++ cs < utf8EncodeChar d ++ ds := by
  have less : c.val.toNat < d.val.toNat := before
  have bound : d.val.toNat < 1114112 := by
    rcases d.valid with valid | valid <;> omega
  unfold utf8EncodeChar
  dsimp only
  generalize c.val.toNat = v at *
  generalize d.val.toNat = w at *
  -- one goal for each pair of lengths; where they differ, the first bytes decide
  split_ifs <;>
    simp (disch := omega) only [List.cons_append, List.nil_append, ofNat_cons_lt_iff,
      Nat.mod_eq_of_lt, Nat.add_lt_add_iff_right, Nat.add_right_cancel_iff] <;>
    omega

/-! ## Texts -/

/-- Characters in order have their bytes in order: the first character in which they differ decides,
or the end of one of them. -/
theorem flatMap_utf8EncodeChar_lt {cs ds : List Char} (less : cs < ds) :
    cs.flatMap String.utf8EncodeChar < ds.flatMap String.utf8EncodeChar := by
  induction cs generalizing ds with
  | nil =>
    cases ds with
    | nil => exact absurd less (List.not_lt_nil _)
    | cons d ds =>
      obtain ⟨byte, more, code⟩ := List.exists_cons_of_ne_nil String.utf8EncodeChar_ne_nil
      rw [List.flatMap_cons, code]
      exact List.nil_lt_cons byte _
  | cons c cs ih =>
    cases ds with
    | nil => exact absurd less (List.not_lt_nil _)
    | cons d ds =>
      rw [List.flatMap_cons, List.flatMap_cons]
      rcases List.cons_lt_cons_iff.mp less with before | ⟨rfl, rest⟩
      · exact utf8EncodeChar_append_lt before _ _
      · exact List.append_left_lt (ih rest)

/-- **Names in order have their bytes in order.** -/
theorem bytes_lt_of_lt {a b : String} (less : a < b) : bytes a < bytes b := by
  rw [bytes_eq, bytes_eq]
  exact flatMap_utf8EncodeChar_lt (String.lt_iff.mp less)

end CallChart.Text
