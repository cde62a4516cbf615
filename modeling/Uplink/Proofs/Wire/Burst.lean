import Mathlib.Data.List.Basic
import Mathlib.Logic.Function.Iterate
import Uplink.Wire.Codec

/-!
# Bursts of errors

The check byte is taken byte by byte, but errors on the way flip bits.  Here the remainder is taken
bit by bit, most significant bit first; both ways lead to the same remainder.

The remainder is linear, so the one of a corrupted datagram is the remainder of the flipped bits
alone.  Flipped bits that lie close together fill one byte of some alignment, and the modulus does
not divide such a byte, however many bits follow.
-/

namespace Uplink
namespace Wire

/-- The bits of a byte, most significant bit first. -/
def bitsOf (b : UInt8) : List Bool :=
  (List.range 8).map b.toBitVec.getMsbD

/-- The bits of some bytes, in the order in which they are sent. -/
def bits (bytes : List UInt8) : List Bool :=
  bytes.flatMap bitsOf

/-- Some bits are flipped, all of them within eight consecutive places. -/
structure Burst (flips : List UInt8) : Prop where
  flipped : ∃ i : ℕ, (bits flips)[i]? = some true
  near : ∃ start, ∀ i : ℕ, (bits flips)[i]? = some true → start ≤ i ∧ i < start + 8

/-- What arrives of some bytes when some of their bits are flipped on the way. -/
def corrupt (flips bytes : List UInt8) : List UInt8 :=
  List.zipWith (· ^^^ ·) bytes flips

namespace Checksum

/-! ## The remainder is linear -/

theorem forall_byte {p : UInt8 → Prop} (h : ∀ n : Fin 256, p (UInt8.ofNat n)) (b : UInt8) : p b := by
  simpa using h ⟨b.toNat, b.toNat_lt⟩

theorem shift_eq (r : UInt8) :
    shift r = r <<< 1 ^^^ if r.toBitVec.msb then polynomial else 0 := by
  have htop : r &&& 0x80 = 0 ↔ r.toBitVec.msb = false :=
    forall_byte (p := fun r => r &&& 0x80 = 0 ↔ r.toBitVec.msb = false) (by decide +kernel) r
  cases hmsb : r.toBitVec.msb <;> simp [shift, htop, hmsb]

theorem shift_xor (a b : UInt8) : shift (a ^^^ b) = shift a ^^^ shift b := by
  rw [shift_eq, shift_eq, shift_eq, UInt8.shiftLeft_xor, UInt8.toBitVec_xor, BitVec.msb_xor]
  -- the modulus is taken off once, twice or not at all
  cases a.toBitVec.msb <;> cases b.toBitVec.msb
  · simp
  · simp [UInt8.xor_assoc]
  · simp only [Bool.bne_false, if_true, Bool.false_eq_true, if_false, UInt8.xor_zero]
    ac_rfl
  · have hcancel : polynomial ^^^ (b <<< 1 ^^^ polynomial) = b <<< 1 := by
      rw [UInt8.xor_comm (b <<< 1), ← UInt8.xor_assoc, UInt8.xor_self, UInt8.zero_xor]
    simp [UInt8.xor_assoc, hcancel]

theorem shift_zero : shift 0 = 0 := by decide

theorem eq_zero_of_shift {r : UInt8} : shift r = 0 → r = 0 :=
  forall_byte (p := fun r => shift r = 0 → r = 0) (by decide +kernel) r

theorem iterate_shift_zero (n : ℕ) : shift^[n] 0 = 0 :=
  Function.iterate_fixed shift_zero n

theorem iterate_shift_xor (n : ℕ) (a b : UInt8) :
    shift^[n] (a ^^^ b) = shift^[n] a ^^^ shift^[n] b := by
  induction n generalizing a b with
  | zero => rfl
  | succ n ih => rw [Function.iterate_succ_apply, shift_xor, ih]; rfl

/-- Bits that follow never make a remainder vanish. -/
theorem eq_zero_of_iterate_shift {n : ℕ} {r : UInt8} (h : shift^[n] r = 0) : r = 0 := by
  induction n generalizing r with
  | zero => exact h
  | succ n ih => exact eq_zero_of_shift (ih h)

theorem shiftByte_eq (r : UInt8) : shiftByte r = shift^[8] r :=
  rfl

theorem step_xor (r s a b : UInt8) : step (r ^^^ s) (a ^^^ b) = step r a ^^^ step s b := by
  have hswap : r ^^^ s ^^^ (a ^^^ b) = (r ^^^ a) ^^^ (s ^^^ b) := by ac_rfl
  rw [step, step, step, hswap, shiftByte_eq, iterate_shift_xor]
  rfl

theorem foldl_step_corrupt {flips bytes : List UInt8} (hlength : flips.length = bytes.length)
    (r s : UInt8) :
    (corrupt flips bytes).foldl step (r ^^^ s) = bytes.foldl step r ^^^ flips.foldl step s := by
  induction bytes generalizing flips r s with
  | nil => simp [corrupt, List.length_eq_zero_iff.mp hlength]
  | cons b bytes ih =>
      cases flips with
      | nil => cases hlength
      | cons f flips =>
          have hrest := ih (Nat.succ.inj hlength) (step r b) (step s f)
          rw [← step_xor] at hrest
          exact hrest

/-! ## Bit by bit -/

/-- Take one more bit into the remainder. -/
def stepBit (r : UInt8) (bit : Bool) : UInt8 :=
  shift (r ^^^ if bit then 0x80 else 0)

theorem foldl_stepBit_xor (row : List Bool) (r s : UInt8) :
    row.foldl stepBit (r ^^^ s) = shift^[row.length] r ^^^ row.foldl stepBit s := by
  induction row generalizing r s with
  | nil => rfl
  | cons bit row ih =>
      have hstep : stepBit (r ^^^ s) bit = shift r ^^^ stepBit s bit := by
        rw [stepBit, stepBit, UInt8.xor_assoc, shift_xor]
      rw [List.foldl_cons, hstep, ih]
      rfl

/-- Where nothing is flipped, the remainder is only shifted. -/
theorem foldl_stepBit_of_false {row : List Bool} (h : ∀ bit ∈ row, bit = false) (r : UInt8) :
    row.foldl stepBit r = shift^[row.length] r := by
  induction row generalizing r with
  | nil => rfl
  | cons bit row ih =>
      have hbit : bit = false := h bit List.mem_cons_self
      have hrow := ih (fun other hmem => h other (List.mem_cons_of_mem bit hmem)) (shift r)
      rw [List.foldl_cons, stepBit, hbit, if_neg Bool.false_ne_true, UInt8.xor_zero, hrow]
      rfl

/-- A byte is taken like its bits one after another. -/
theorem foldl_stepBit_bitsOf (r b : UInt8) : (bitsOf b).foldl stepBit r = step r b := by
  have hzero : shiftByte b = (bitsOf b).foldl stepBit 0 :=
    forall_byte (p := fun b => shiftByte b = (bitsOf b).foldl stepBit 0) (by decide +kernel) b
  have hxor := foldl_stepBit_xor (bitsOf b) r 0
  rw [UInt8.xor_zero, ← hzero] at hxor
  rw [hxor, step, shiftByte_eq, shiftByte_eq, iterate_shift_xor]
  rfl

theorem foldl_stepBit_bits (bytes : List UInt8) (r : UInt8) :
    (bits bytes).foldl stepBit r = bytes.foldl step r := by
  induction bytes generalizing r with
  | nil => rfl
  | cons b bytes ih =>
      rw [bits, List.flatMap_cons, List.foldl_append, foldl_stepBit_bitsOf]
      exact ih (step r b)

theorem exists_byte {row : List Bool} (h : row.length = 8) : ∃ b, bitsOf b = row := by
  refine ⟨⟨(BitVec.ofBoolListBE row).cast h⟩, ?_⟩
  apply List.ext_getElem
  · simp [bitsOf, h]
  · intro i hi hi'
    simp [bitsOf, hi']

/-- Eight bits that are not all zero leave a remainder. -/
theorem foldl_stepBit_ne_zero {row : List Bool} (hlength : row.length = 8) (hrow : true ∈ row) :
    row.foldl stepBit 0 ≠ 0 := by
  obtain ⟨b, rfl⟩ := exists_byte hlength
  intro h
  rw [foldl_stepBit_bitsOf, step, UInt8.zero_xor, shiftByte_eq] at h
  rw [eq_zero_of_iterate_shift h] at hrow
  revert hrow
  decide

theorem eq_false_of_mem_take {row : List Bool} {n : ℕ}
    (h : ∀ i : ℕ, row[i]? = some true → n ≤ i) : ∀ bit ∈ row.take n, bit = false := by
  intro bit hbit
  obtain ⟨i, hi⟩ := List.mem_iff_getElem?.mp hbit
  rw [List.getElem?_take] at hi
  split at hi
  · rename_i hlt
    cases bit with
    | false => rfl
    | true => exact absurd (h i hi) (Nat.not_le_of_lt hlt)
  · cases hi

theorem eq_false_of_mem_drop {row : List Bool} {n : ℕ}
    (h : ∀ i : ℕ, row[i]? = some true → i < n) : ∀ bit ∈ row.drop n, bit = false := by
  intro bit hbit
  obtain ⟨i, hi⟩ := List.mem_iff_getElem?.mp hbit
  rw [List.getElem?_drop] at hi
  cases bit with
  | false => rfl
  | true => exact absurd (h _ hi) (Nat.not_lt_of_le (Nat.le_add_right n i))

/-- If all flipped bits lie within eight places of a row, and all eight places are in the row, then
the bits leave a remainder. -/
theorem foldl_stepBit_ne_zero_of_near {row : List Bool} {start place : ℕ}
    (hroom : start + 8 ≤ row.length) (hplace : row[place]? = some true)
    (hnear : ∀ i : ℕ, row[i]? = some true → start ≤ i ∧ i < start + 8) :
    row.foldl stepBit 0 ≠ 0 := by
  have hbefore := eq_false_of_mem_take fun i hi => (hnear i hi).1
  have hafter := eq_false_of_mem_drop fun i hi => (hnear i hi).2
  have hwindow : true ∈ (row.drop start).take 8 := by
    obtain ⟨hle, hlt⟩ := hnear place hplace
    refine List.mem_iff_getElem?.mpr ⟨place - start, ?_⟩
    rw [List.getElem?_take_of_lt (by omega), List.getElem?_drop, Nat.add_sub_cancel' hle, hplace]
  have hlength : ((row.drop start).take 8).length = 8 := by
    rw [List.length_take, List.length_drop]
    omega
  have hsplit : row = row.take start ++ ((row.drop start).take 8 ++ row.drop (start + 8)) := by
    rw [← List.drop_drop, List.take_append_drop, List.take_append_drop]
  intro hzero
  rw [hsplit, List.foldl_append, List.foldl_append, foldl_stepBit_of_false hbefore,
    iterate_shift_zero, foldl_stepBit_of_false hafter] at hzero
  exact foldl_stepBit_ne_zero hlength hwindow (eq_zero_of_iterate_shift hzero)

end Checksum

open Checksum

/-- A burst leaves a remainder. -/
theorem Burst.checksum_ne_zero {flips : List UInt8} (h : Burst flips) : checksum flips ≠ 0 := by
  obtain ⟨place, hplace⟩ := h.flipped
  obtain ⟨start, hnear⟩ := h.near
  have hlt : place < (bits flips).length := (List.getElem?_eq_some_iff.mp hplace).1
  have hle := (hnear place hplace).1
  -- eight more bits make room for a burst at the end, and do not change whether it is noticed
  let row := bits flips ++ List.replicate 8 false
  have hroom : start + 8 ≤ row.length := by
    rw [List.length_append, List.length_replicate]
    omega
  have hin : ∀ i : ℕ, row[i]? = some true → (bits flips)[i]? = some true := by
    intro i hi
    rw [List.getElem?_append] at hi
    split at hi
    · exact hi
    · exact absurd (List.eq_of_mem_replicate (List.mem_of_getElem? hi)) (by decide)
  have hrow : row.foldl stepBit 0 ≠ 0 :=
    foldl_stepBit_ne_zero_of_near hroom (by rw [List.getElem?_append_left hlt, hplace])
      fun i hi => hnear i (hin i hi)
  intro hzero
  apply hrow
  rw [List.foldl_append, foldl_stepBit_bits,
    foldl_stepBit_of_false fun bit hbit => List.eq_of_mem_replicate hbit]
  rw [checksum] at hzero
  rw [hzero, iterate_shift_zero]

/-! ## Corrupted datagrams -/

/-- A check byte leaves nothing of the remainder. -/
theorem checksum_sealed (body : List UInt8) : checksum (sealed body) = 0 := by
  have hstep : checksum (sealed body) = step (checksum body) (checksum body) := by
    simp [checksum, sealed]
  rw [hstep, step, UInt8.xor_self, shiftByte_eq, iterate_shift_zero]

theorem checksum_corrupt {flips bytes : List UInt8} (hlength : flips.length = bytes.length) :
    checksum (corrupt flips bytes) = checksum bytes ^^^ checksum flips := by
  have hfold := foldl_step_corrupt hlength 0 0
  rwa [UInt8.xor_self] at hfold

/-- What leaves a remainder has another check byte than it should. -/
theorem Message.decode_of_checksum_ne_zero {data : List UInt8} (h : checksum data ≠ 0) :
    ∃ found expected, found ≠ expected ∧ Message.decode data = .error (.checksum found expected) := by
  cases hlast : data.getLast? with
  | none =>
      rw [List.getLast?_eq_none_iff.mp hlast] at h
      exact absurd rfl h
  | some found =>
      have hne : found ≠ checksum data.dropLast := by
        rintro rfl
        have hsealed := checksum_sealed data.dropLast
        rw [sealed, List.dropLast_append_getLast? _ hlast] at hsealed
        exact h hsealed
      refine ⟨found, checksum data.dropLast, hne, ?_⟩
      simp only [Message.decode, hlast]
      rw [if_neg hne]

/-- A datagram that was hit by a burst of errors is refused for its check byte, whatever it
carries. -/
theorem Message.decode_of_burst {body flips : List UInt8} (hlength : flips.length = body.length + 1)
    (hburst : Burst flips) :
    ∃ found expected, found ≠ expected ∧
      Message.decode (corrupt flips (sealed body)) = .error (.checksum found expected) := by
  have hsize : flips.length = (sealed body).length := by
    rw [hlength, sealed, List.length_append, List.length_singleton]
  apply Message.decode_of_checksum_ne_zero
  rw [checksum_corrupt hsize, checksum_sealed, UInt8.zero_xor]
  exact hburst.checksum_ne_zero

/-- The last bit of a byte and the first one of the check byte are flipped. -/
theorem Message.decode_of_burst_straddling :
    Burst [0, 1, 128] ∧ ∃ found expected, found ≠ expected ∧
      Message.decode (corrupt [0, 1, 128] (sealed [5, 6])) = .error (.checksum found expected) := by
  have hplaces : ∀ i : Fin 24,
      (bits [0, 1, 128])[i.val]? = some true → 15 ≤ i.val ∧ i.val < 15 + 8 := by decide
  have hburst : Burst [0, 1, 128] := by
    refine ⟨⟨15, by decide⟩, 15, ?_⟩
    intro i hi
    have hlt : i < (bits [0, 1, 128]).length := (List.getElem?_eq_some_iff.mp hi).1
    exact hplaces ⟨i, hlt⟩ hi
  exact ⟨hburst, Message.decode_of_burst rfl hburst⟩

end Wire
end Uplink
