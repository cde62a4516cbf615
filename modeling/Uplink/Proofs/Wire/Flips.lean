import Mathlib.Algebra.Ring.Parity
import Mathlib.Dynamics.PeriodicPts.Lemmas
import Mathlib.Tactic.NormNum.Prime
import Uplink.Proofs.Wire.Refusal

/-!
# Scattered errors

Flipped bits may lie as far apart as the datagram is long.  An odd number of them is always noticed:
the modulus has an even number of terms, so that taking it off keeps the parity of a remainder.  Two
of them go unnoticed exactly where the second one makes up for the first, and a remainder of a
single bit comes back after 127 more bits, and not before.
-/

namespace Uplink
namespace Wire

namespace Checksum

/-! ## Parity -/

/-- How many bits of a remainder are set. -/
def weight (r : UInt8) : ℕ :=
  (bitsOf r).count true

theorem weight_stepBit (r : UInt8) (bit : Bool) :
    weight (stepBit r bit) % 2 = (weight r + bit.toNat) % 2 := by
  cases bit with
  | false =>
      exact forall_byte (p := fun r => weight (stepBit r false) % 2 = (weight r + 0) % 2)
        (by decide +kernel) r
  | true =>
      exact forall_byte (p := fun r => weight (stepBit r true) % 2 = (weight r + 1) % 2)
        (by decide +kernel) r

/-- Every bit that is set changes the parity of the remainder, and nothing else does. -/
theorem weight_foldl_stepBit (row : List Bool) (r : UInt8) :
    weight (row.foldl stepBit r) % 2 = (weight r + row.count true) % 2 := by
  induction row generalizing r with
  | nil => rfl
  | cons bit row ih =>
      have hbit := weight_stepBit r bit
      have hcount : (bit :: row).count true = bit.toNat + row.count true := by
        cases bit <;> simp [Nat.add_comm]
      rw [List.foldl_cons, ih, hcount]
      omega

theorem foldl_stepBit_ne_zero_of_odd {row : List Bool} (h : Odd (row.count true)) :
    row.foldl stepBit 0 ≠ 0 := by
  intro hzero
  have hweight := weight_foldl_stepBit row 0
  have hnone : weight 0 = 0 := by decide
  rw [hzero, hnone, Nat.zero_add, Nat.odd_iff.mp h] at hweight
  cases hweight

/-! ## Order -/

/-- The remainder of a single bit comes back after a multiple of 127 bits. -/
theorem iterate_shift_bit_iff {n : ℕ} : shift^[n] 0x80 = 0x80 ↔ 127 ∣ n := by
  have hprime : Fact (Nat.Prime 127) := ⟨by norm_num⟩
  have hback : Function.IsPeriodicPt shift 127 0x80 := by
    unfold Function.IsPeriodicPt Function.IsFixedPt
    decide +kernel
  have hmoves : ¬ Function.IsFixedPt shift 0x80 := by
    unfold Function.IsFixedPt
    decide
  rw [← Function.minimalPeriod_eq_prime hback hmoves]
  exact Function.isPeriodicPt_iff_minimalPeriod_dvd

/-- Up to the first bit that is set the remainder is only shifted. -/
theorem foldl_stepBit_of_first {row : List Bool} {place : ℕ} (hplace : row[place]? = some true)
    (hfirst : ∀ k : ℕ, row[k]? = some true → place ≤ k) (r : UInt8) :
    row.foldl stepBit r = (row.drop (place + 1)).foldl stepBit (shift (shift^[place] r ^^^ 0x80)) := by
  obtain ⟨hlt, hbit⟩ := List.getElem?_eq_some_iff.mp hplace
  have hsplit : row = row.take place ++ true :: row.drop (place + 1) := by
    rw [← hbit, ← List.drop_eq_getElem_cons hlt, List.take_append_drop]
  have hlength : (row.take place).length = place := List.length_take_of_le hlt.le
  conv_lhs => rw [hsplit]
  rw [List.foldl_append, foldl_stepBit_of_false (eq_false_of_mem_take hfirst), hlength]
  rfl

/-- Two bits leave a remainder unless the second one makes up for the first. -/
theorem foldl_stepBit_of_pair {row : List Bool} {i j : ℕ} (hij : i < j)
    (h : ∀ k : ℕ, row[k]? = some true ↔ k = i ∨ k = j) :
    row.foldl stepBit 0 = 0 ↔ 127 ∣ j - i := by
  have hfirst : ∀ k : ℕ, row[k]? = some true → i ≤ k := by
    intro k hk
    rcases (h k).mp hk with rfl | rfl
    · exact le_refl k
    · exact hij.le
  have hbetween : ∀ k : ℕ, (row.drop (i + 1))[k]? = some true ↔ k = j - i - 1 := by
    intro k
    rw [List.getElem?_drop, h]
    omega
  have hafter : ∀ k : ℕ, ((row.drop (i + 1)).drop (j - i - 1 + 1))[k]? ≠ some true := by
    intro k hk
    rw [List.getElem?_drop] at hk
    have hplace := (hbetween _).mp hk
    omega
  have hnone : ∀ bit ∈ (row.drop (i + 1)).drop (j - i - 1 + 1), bit = false := by
    intro bit hbit
    obtain ⟨k, hk⟩ := List.mem_iff_getElem?.mp hbit
    cases bit with
    | false => rfl
    | true => exact absurd hk (hafter k)
  have hdistance : shift^[j - i - 1] (shift 0x80) = shift^[j - i] 0x80 := by
    rw [← Function.iterate_succ_apply, Nat.succ_eq_add_one, Nat.sub_add_cancel (by omega)]
  rw [foldl_stepBit_of_first ((h i).mpr (Or.inl rfl)) hfirst, iterate_shift_zero, UInt8.zero_xor,
    foldl_stepBit_of_first ((hbetween _).mpr rfl) (fun k hk => ((hbetween k).mp hk).ge), hdistance,
    foldl_stepBit_of_false hnone, ← iterate_shift_bit_iff]
  -- what follows the second bit shifts the remainder, and no shift makes it vanish
  constructor
  · intro hzero
    exact UInt8.xor_eq_zero_iff.mp (eq_zero_of_shift (eq_zero_of_iterate_shift hzero))
  · intro hback
    rw [hback, UInt8.xor_self, shift_zero, iterate_shift_zero]

end Checksum

open Checksum

/-! ## Corrupted datagrams -/

theorem checksum_eq_foldl_bits (bytes : List UInt8) : checksum bytes = (bits bytes).foldl stepBit 0 :=
  (foldl_stepBit_bits bytes 0).symm

/-- A corrupted datagram leaves the remainder of the flipped bits. -/
theorem checksum_corrupt_sealed {body flips : List UInt8}
    (hlength : flips.length = body.length + 1) :
    checksum (corrupt flips (sealed body)) = (bits flips).foldl stepBit 0 := by
  have hsize : flips.length = (sealed body).length := by
    rw [hlength, sealed, List.length_append, List.length_singleton]
  rw [checksum_corrupt hsize, checksum_sealed, UInt8.zero_xor, checksum_eq_foldl_bits]

/-- A datagram with an odd number of flipped bits is refused for its check byte, and one with two
flipped bits is so exactly where their distance is no multiple of 127. -/
theorem Message.decode_of_flips {body flips : List UInt8}
    (hlength : flips.length = body.length + 1) :
    (Odd ((bits flips).count true) → ∃ found expected, found ≠ expected ∧
      Message.decode (corrupt flips (sealed body)) = .error (.checksum found expected)) ∧
    ∀ i j, i < j → (∀ k : ℕ, (bits flips)[k]? = some true ↔ k = i ∨ k = j) →
      ((∃ found expected,
        Message.decode (corrupt flips (sealed body)) = .error (.checksum found expected)) ↔
          ¬ 127 ∣ j - i) := by
  constructor
  · intro hodd
    apply Message.decode_of_checksum_ne_zero
    rw [checksum_corrupt_sealed hlength]
    exact foldl_stepBit_ne_zero_of_odd hodd
  · intro i j hij hflips
    rw [Message.decode_eq_checksum_iff, checksum_corrupt_sealed hlength]
    exact not_congr (foldl_stepBit_of_pair hij hflips)

/-- Three bits of one byte are flipped; and the first bit and the last one of sixteen bytes. -/
theorem Message.decode_of_flips_far :
    let near : List UInt8 := [7, 0]
    let far : List UInt8 := 0x80 :: (List.replicate 14 0 ++ [1, 0])
    let body : List UInt8 := List.replicate 16 7
    (Odd ((bits near).count true) ∧ ∃ found expected, found ≠ expected ∧
      Message.decode (corrupt near (sealed [5])) = .error (.checksum found expected)) ∧
    far.length = body.length + 1 ∧
      (∀ k : ℕ, (bits far)[k]? = some true ↔ k = 0 ∨ k = 127) ∧
      ¬ ∃ found expected,
        Message.decode (corrupt far (sealed body)) = .error (.checksum found expected) := by
  intro near far body
  have hodd : Odd ((bits near).count true) := by decide
  have hin : ∀ k : Fin 136, (bits far)[k.val]? = some true ↔ k.val = 0 ∨ k.val = 127 := by
    decide +kernel
  have hfar : ∀ k : ℕ, (bits far)[k]? = some true ↔ k = 0 ∨ k = 127 := by
    intro k
    by_cases hk : k < 136
    · exact hin ⟨k, hk⟩
    · have hnone : (bits far)[k]? = none := List.getElem?_eq_none (Nat.le_of_not_lt hk)
      rw [hnone]
      constructor
      · intro h
        cases h
      · omega
  have hlength : far.length = body.length + 1 := rfl
  have hrefused := (Message.decode_of_flips hlength).2 0 127 (by decide) hfar
  refine ⟨⟨hodd, (Message.decode_of_flips rfl).1 hodd⟩, hlength, hfar, ?_⟩
  intro h
  exact hrefused.mp h (dvd_refl 127)

end Wire
end Uplink
