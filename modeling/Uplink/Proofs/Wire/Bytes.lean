import Mathlib.Tactic.Positivity
import Mathlib.Tactic.Ring
import Uplink.Text.Utf8
import Uplink.Wire.Codec

/-!
# Numbers and texts as bytes

Numbers of a fixed width and texts have one written form each.  The lemmas come in pairs: what is
written is read back, and what can be read was written.
-/

namespace Uplink

namespace Text

/-- Bytes denote a text exactly when they are the encoding of it. -/
theorem ofUtf8?_eq_some_iff {bytes : List UInt8} {text : String} :
    ofUtf8? bytes = some text ↔ bytes = utf8 text := by
  constructor
  · intro h
    simp only [ofUtf8?, String.fromUTF8?] at h
    split at h
    · cases h
      rfl
    · cases h
  · rintro rfl
    exact ofUtf8?_utf8 text

end Text

namespace Wire

/-! ## Numbers of a fixed width -/

theorem foldl_bytes (bytes : List UInt8) (n : ℕ) :
    bytes.foldl (fun n b => n * 256 + b.toNat) n =
      n * 256 ^ bytes.length + ofBigEndian bytes := by
  induction bytes generalizing n with
  | nil => simp [ofBigEndian]
  | cons b rest ih =>
      have hrest : ofBigEndian (b :: rest) =
          b.toNat * 256 ^ rest.length + ofBigEndian rest := by
        rw [ofBigEndian, List.foldl_cons, ih, Nat.zero_mul, Nat.zero_add]
      rw [List.foldl_cons, ih, hrest, List.length_cons, pow_succ]
      ring

theorem ofBigEndian_cons (b : UInt8) (rest : List UInt8) :
    ofBigEndian (b :: rest) = b.toNat * 256 ^ rest.length + ofBigEndian rest := by
  rw [ofBigEndian, List.foldl_cons, foldl_bytes, Nat.zero_mul, Nat.zero_add]

theorem ofBigEndian_lt (bytes : List UInt8) : ofBigEndian bytes < 256 ^ bytes.length := by
  induction bytes with
  | nil => simp [ofBigEndian]
  | cons b rest ih =>
      have hb : b.toNat < 256 := b.toNat_lt
      have hle : b.toNat * 256 ^ rest.length + 256 ^ rest.length ≤ 256 * 256 ^ rest.length := by
        rw [← Nat.succ_mul]
        exact Nat.mul_le_mul_right _ hb
      rw [ofBigEndian_cons, List.length_cons, pow_succ]
      omega

theorem shiftRight_bytes (n width : ℕ) : n >>> (8 * width) = n / 256 ^ width := by
  rw [Nat.shiftRight_eq_div_pow, pow_mul]
  norm_num

/-- A number is read back as far as its width reaches. -/
theorem ofBigEndian_bigEndian (width n : ℕ) :
    ofBigEndian (bigEndian width n) = n % 256 ^ width := by
  induction width with
  | zero => simp [bigEndian, ofBigEndian, Nat.mod_one]
  | succ width ih =>
      have hbyte : (UInt8.ofNat (n / 256 ^ width)).toNat = n / 256 ^ width % 256 :=
        UInt8.toNat_ofNat'
      rw [bigEndian, ofBigEndian_cons, ih, length_bigEndian, shiftRight_bytes, hbyte, pow_succ,
        Nat.mod_mul]
      ring

theorem bigEndian_one (n : ℕ) : bigEndian 1 n = [UInt8.ofNat n] := by
  simp [bigEndian]

/-- What stands above the width of a number is not written. -/
theorem bigEndian_add (width k n : ℕ) :
    bigEndian width (k * 256 ^ width + n) = bigEndian width n := by
  induction width generalizing k with
  | zero => rfl
  | succ width ih =>
      have hsplit : k * 256 ^ (width + 1) + n = k * 256 * 256 ^ width + n := by ring
      have hhigh : (k * 256 * 256 ^ width + n) / 256 ^ width = k * 256 + n / 256 ^ width := by
        rw [Nat.add_comm, Nat.add_mul_div_right _ _ (by positivity), Nat.add_comm]
      have hbyte : UInt8.ofNat (k * 256 + n / 256 ^ width) = UInt8.ofNat (n / 256 ^ width) := by
        apply UInt8.toNat_inj.mp
        simp
      rw [bigEndian, bigEndian, shiftRight_bytes, shiftRight_bytes, hsplit, hhigh, hbyte, ih]

/-- Bytes are the written form of the number that they denote. -/
theorem bigEndian_ofBigEndian (bytes : List UInt8) :
    bigEndian bytes.length (ofBigEndian bytes) = bytes := by
  induction bytes with
  | nil => rfl
  | cons b rest ih =>
      have hhigh : (b.toNat * 256 ^ rest.length + ofBigEndian rest) / 256 ^ rest.length =
          b.toNat := by
        rw [Nat.add_comm, Nat.add_mul_div_right _ _ (by positivity),
          Nat.div_eq_of_lt (ofBigEndian_lt rest), Nat.zero_add]
      rw [List.length_cons, ofBigEndian_cons, bigEndian, shiftRight_bytes, hhigh, bigEndian_add,
        ih, UInt8.ofNat_toNat]

end Wire
end Uplink
