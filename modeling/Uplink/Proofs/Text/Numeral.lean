import Mathlib.Data.Int.Notation
import Mathlib.Data.Nat.Notation
import Mathlib.Data.Nat.Digits.Defs
import Uplink.Text.Blank
import Uplink.Text.Numeral

/-!
# Digits read back

A number is written with the digits of a base up to sixteen, the first of which is not a zero unless
it is the only one.  These digits denote the number, and neither a sign nor a blank is among them.
-/

namespace Uplink
namespace Text

variable {base n : ℕ} {c : Char}

/-- What is taken off the front ends where the rest begins with something else. -/
theorem split_append {p : Char → Bool} {cs rest : List Char} (hcs : ∀ c ∈ cs, p c = true)
    (hrest : ∀ c ∈ rest.head?, p c = false) :
    (cs ++ rest).takeWhile p = cs ∧ (cs ++ rest).dropWhile p = rest := by
  rw [List.takeWhile_append_of_pos hcs, List.dropWhile_append_of_pos hcs]
  cases rest with
  | nil => simp
  | cons c rest => simp [hrest c rfl]

/-! ## The digits of a number -/

theorem digitValue_digitChar (h : n < 16) : digitValue (Nat.digitChar n) = n := by
  have hall : ∀ k < 16, digitValue (Nat.digitChar k) = k := by decide
  exact hall n h

theorem isDigit_of_mem_toDigits (h : c ∈ Nat.toDigits 10 n) : c.isDigit = true :=
  Nat.isDigit_of_mem_toDigits (by decide) (by decide) h

section

variable (hone : 1 < base) (hbase : base ≤ 16)

include hone hbase

theorem digitValue_lt_of_mem_toDigits (h : c ∈ Nat.toDigits base n) : digitValue c < base := by
  induction n using Nat.base_induction base hone with
  | single m hm =>
      rw [Nat.toDigits_of_lt_base hm, List.mem_singleton] at h
      rw [h, digitValue_digitChar (by omega)]
      exact hm
  | digit m k hk hm ih =>
      rw [← Nat.toDigits_append_toDigits hone hm hk, Nat.toDigits_of_lt_base hk, List.mem_append,
        List.mem_singleton] at h
      rcases h with h | h
      · exact ih h
      · rw [h, digitValue_digitChar (by omega)]
        exact hk

/-- The digits of a number denote it. -/
theorem ofDigits_toDigits (n : ℕ) : ofDigits base (Nat.toDigits base n) = n := by
  induction n using Nat.base_induction base hone with
  | single m hm =>
      simp [Nat.toDigits_of_lt_base hm, ofDigits, digitValue_digitChar (by omega : m < 16)]
  | digit m k hk hm ih =>
      rw [← Nat.toDigits_append_toDigits hone hm hk, Nat.toDigits_of_lt_base hk]
      unfold ofDigits at ih ⊢
      rw [List.foldl_append, ih, List.foldl_cons, List.foldl_nil,
        digitValue_digitChar (by omega : k < 16), Nat.mul_comm]

theorem natural?_toDigits (n : ℕ) : natural? base (Nat.toDigits base n) = some n := by
  have hempty : (Nat.toDigits base n).isEmpty = false := by
    rw [List.isEmpty_eq_false_iff]
    exact Nat.toDigits_ne_nil
  have hall : (Nat.toDigits base n).all (fun c => digitValue c < base) = true := by
    rw [List.all_eq_true]
    intro c hc
    exact decide_eq_true (digitValue_lt_of_mem_toDigits hone hbase hc)
  rw [natural?, hempty, hall, ofDigits_toDigits hone hbase]
  rfl

end

theorem head?_toDigits_ne_zero (h : 0 < n) : (Nat.toDigits 10 n).head? ≠ some '0' := by
  induction n using Nat.base_induction 10 (by decide) with
  | single m hm =>
      rw [Nat.toDigits_of_lt_base hm]
      simp
      omega
  | digit m k hk hm ih =>
      -- the head is that of the number without its last digit, which is positive
      rw [← Nat.toDigits_append_toDigits (by decide) hm hk, List.head?_append]
      cases hhead : (Nat.toDigits 10 m).head? with
      | none => exact absurd (List.head?_eq_none_iff.mp hhead) Nat.toDigits_ne_nil
      | some c =>
          rw [hhead] at ih
          simpa using ih hm

/-- A number that is written with more than one digit does not start with a zero. -/
theorem head?_toDigits_of_length (h : (Nat.toDigits 10 n).length ≠ 1) :
    (Nat.toDigits 10 n).head? ≠ some '0' := by
  apply head?_toDigits_ne_zero
  apply Nat.pos_of_ne_zero
  rintro rfl
  exact h (by simp)

theorem toDigits_eq_cons (n : ℕ) :
    ∃ c tail, Nat.toDigits 10 n = c :: tail ∧ c.isDigit = true := by
  obtain ⟨c, tail, hdigits⟩ := List.exists_cons_of_ne_nil (Nat.toDigits_ne_nil (b := 10) (n := n))
  have hmem : c ∈ Nat.toDigits 10 n := by
    rw [hdigits]
    exact List.mem_cons_self
  exact ⟨c, tail, hdigits, isDigit_of_mem_toDigits hmem⟩

/-! ## No sign and no blank -/

theorem ne_of_isDigit {d : Char} (h : c.isDigit = true) (hd : d.isDigit = false) : c ≠ d := by
  rintro rfl
  rw [h] at hd
  contradiction

/-- A whole number without a sign is read as one with sign, if it fits. -/
theorem integer?_toDigits {low high : ℤ} (n : ℕ) :
    integer? 10 low high (Nat.toDigits 10 n) =
      (some (n : ℤ)).filter fun n => low ≤ n && n ≤ high := by
  obtain ⟨c, tail, hdigits, hdigit⟩ := toDigits_eq_cons n
  have hnatural := natural?_toDigits (by decide : 1 < 10) (by decide) n
  rw [hdigits] at hnatural ⊢
  unfold integer? signed?
  split
  · rename_i rest heq
    exact absurd (List.cons.inj heq).1 (ne_of_isDigit hdigit (by decide))
  · rename_i rest heq
    exact absurd (List.cons.inj heq).1 (ne_of_isDigit hdigit (by decide))
  · rw [hnatural]
    rfl

theorem unsigned?_toDigits {bound : ℕ} (h : n < bound) :
    unsigned? 10 bound (Nat.toDigits 10 n) = some n := by
  obtain ⟨c, tail, hdigits, hdigit⟩ := toDigits_eq_cons n
  have hnatural := natural?_toDigits (by decide : 1 < 10) (by decide) n
  rw [hdigits] at hnatural ⊢
  unfold unsigned?
  split
  · rename_i rest heq
    exact absurd (List.cons.inj heq).1 (ne_of_isDigit hdigit (by decide))
  · simp [hnatural, h]

theorem isBlank_of_isDigit (h : c.isDigit = true) : isBlank c = false := by
  simp only [Char.isDigit, ge_iff_le, Bool.and_eq_true, decide_eq_true_eq] at h
  have hlow : 48 ≤ c.toNat := UInt32.le_iff_toNat_le.mp h.1
  have hhigh : c.toNat ≤ 57 := UInt32.le_iff_toNat_le.mp h.2
  simp [isBlank]
  omega

theorem trimFront_of_isDigit {cs : List Char} (h : ∀ c ∈ cs, c.isDigit = true) :
    trimFront cs = cs := by
  cases cs with
  | nil => rfl
  | cons c cs =>
      have hblank := isBlank_of_isDigit (h c List.mem_cons_self)
      rw [trimFront, List.dropWhile_cons_of_neg (by simp [hblank])]

/-- There is nothing to trim off digits. -/
theorem trimChars_of_isDigit {cs : List Char} (h : ∀ c ∈ cs, c.isDigit = true) :
    trimChars cs = cs := by
  have hreverse : ∀ c ∈ cs.reverse, c.isDigit = true :=
    fun c hc => h c (List.mem_reverse.mp hc)
  rw [trimChars, trimFront_of_isDigit h, trimFront_of_isDigit hreverse, List.reverse_reverse]

end Text
end Uplink
