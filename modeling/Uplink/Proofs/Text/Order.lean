import Mathlib.Data.List.Lex
import Mathlib.Data.String.Basic
import Uplink.Text.Utf8

/-!
# The order of texts

Texts are in the order of their characters, which is the order of the bytes that encode them: where
two characters differ, the lesser one has the lesser first byte, or as many bytes, of which the first
that differs is the lesser one.
-/

namespace Uplink
namespace Text

theorem utf8_eq (text : String) : utf8 text = text.toList.flatMap String.utf8EncodeChar := by
  rw [utf8, String.toUTF8_eq_toByteArray, ← String.utf8Encode_toList, List.utf8Encode]
  simp

theorem cons_lt_cons_of_lt {m n : ℕ} {cs ds : List UInt8} (h : m < n) (hn : n < 256) :
    UInt8.ofNat m :: cs < UInt8.ofNat n :: ds := by
  refine .rel ?_
  rw [UInt8.lt_iff_toNat_lt, UInt8.toNat_ofNat_of_lt' (h.trans hn), UInt8.toNat_ofNat_of_lt' hn]
  exact h

theorem cons_lt_cons_of_le {m n : ℕ} {cs ds : List UInt8} (h : m ≤ n) (hn : n < 256)
    (hrest : m = n → cs < ds) : UInt8.ofNat m :: cs < UInt8.ofNat n :: ds := by
  rcases h.lt_or_eq with hlt | rfl
  · exact cons_lt_cons_of_lt hlt hn
  · exact .cons (hrest rfl)

/-- The bytes of the lesser character come first, whatever follows them. -/
theorem utf8EncodeChar_lt {c d : Char} (h : c < d) (cs ds : List UInt8) :
    String.utf8EncodeChar c ++ cs < String.utf8EncodeChar d ++ ds := by
  have hlt : c.val.toNat < d.val.toNat := h
  have hmax : d.val.toNat < 0x110000 := by
    have hvalid : d.val.toNat.isValidChar := d.valid
    rw [Nat.isValidChar] at hvalid
    omega
  rw [String.utf8EncodeChar, String.utf8EncodeChar]
  generalize c.val.toNat = m at *
  generalize d.val.toNat = n at *
  -- by the numbers of bytes; with as many bytes, the first that differs decides
  repeat' split
  all_goals first
    | omega
    | repeat first
        | exact cons_lt_cons_of_lt (by omega) (by omega)
        | refine cons_lt_cons_of_le (by omega) (by omega) fun _ => ?_

theorem flatMap_utf8EncodeChar_lt {cs ds : List Char} (h : cs < ds) :
    cs.flatMap String.utf8EncodeChar < ds.flatMap String.utf8EncodeChar := by
  induction h with
  | @nil d ds =>
      rw [List.flatMap_nil, List.flatMap_cons]
      obtain ⟨b, bs, hbytes⟩ := List.exists_cons_of_ne_nil (String.utf8EncodeChar_ne_nil (c := d))
      rw [hbytes]
      exact .nil
  | rel hlt => exact utf8EncodeChar_lt hlt _ _
  | @cons c _ _ _ ih =>
      rw [List.flatMap_cons, List.flatMap_cons]
      exact List.append_left_lt ih

theorem utf8_lt_of_lt {a b : String} (h : a < b) : utf8 a < utf8 b := by
  rw [utf8_eq, utf8_eq]
  exact flatMap_utf8EncodeChar_lt (String.lt_iff_toList_lt.mp h)

theorem utf8_lt_iff {a b : String} : utf8 a < utf8 b ↔ a < b := by
  refine ⟨fun h => ?_, utf8_lt_of_lt⟩
  rcases lt_trichotomy a b with hlt | rfl | hgt
  · exact hlt
  · exact absurd h (List.lt_irrefl _)
  · exact absurd (utf8_lt_of_lt hgt) (List.lt_asymm h)

end Text
end Uplink
