import Mathlib.Algebra.Order.Field.Power
import Mathlib.Algebra.Order.Field.Rat
import Mathlib.Tactic.Linarith
import Mathlib.Tactic.NormNum
import Mathlib.Tactic.Positivity
import Mathlib.Tactic.Ring
import Uplink.Binary64

/-!
# Rounding

A quotient is rounded to a finite number exactly when it is less than half a unit beyond the greatest
one.  Then no finite number is nearer, and of two that are equally near the even one is taken; this
leaves only one choice.

Between two powers of two the numbers of a given number of bits lie on a grid.  The proofs compare a
quotient with the points of the grid that is as fine as 53 bits allow there.
-/

namespace Uplink
namespace Binary64

variable {num den exponent units : ℕ} {negative : Bool} {x y : Binary64} {q : ℚ}

/-! ## Values -/

/-- The absolute value of a finite number. -/
def size (x : Binary64) : ℚ :=
  x.ratio.1 / x.ratio.2

/-- The least positive number. -/
def finest : ℚ :=
  (1 : ℚ) / (1 <<< 1074 : ℕ)

theorem finest_pos : 0 < finest := by
  unfold finest
  rw [Nat.one_shiftLeft]
  positivity

/-- The distance between two points of the grid with the given unit exponent. -/
def grain (exponent : ℕ) : ℚ :=
  2 ^ exponent * finest

theorem grain_pos (exponent : ℕ) : 0 < grain exponent :=
  mul_pos (by positivity) finest_pos

theorem grain_add (exponent more : ℕ) : grain (exponent + more) = 2 ^ more * grain exponent := by
  rw [grain, grain, pow_add]
  ring

theorem isFinite_iff : x.isFinite = true ↔ x.pattern < 2047 * 2 ^ 52 := by
  rw [isFinite, infinityPattern, Nat.shiftLeft_eq, decide_eq_true_iff]

/-- The places of a pattern and of a point of the grid are the same. -/
theorem size_of_pattern (hpattern : x.pattern = exponent * 2 ^ 52 + units)
    (hlow : exponent = 0 ∨ 2 ^ 52 ≤ units) (hhigh : units ≤ 2 ^ 53) :
    x.size = units * grain exponent := by
  have hratio : x.ratio.1 = units * 2 ^ exponent := by
    simp only [ratio, Nat.shiftRight_eq_div_pow, Nat.shiftLeft_eq, one_mul]
    rcases lt_or_ge units (2 ^ 52) with hsmall | hlarge
    · obtain rfl : exponent = 0 := hlow.resolve_right (Nat.not_le_of_lt hsmall)
      have hzero : x.pattern / 2 ^ 52 = 0 := by omega
      have hfraction : x.pattern % 2 ^ 52 = units := by omega
      rw [hzero, hfraction, if_pos rfl, pow_zero, mul_one]
    · rcases hhigh.lt_or_eq with hlt | rfl
      · have hplace : x.pattern / 2 ^ 52 = exponent + 1 := by omega
        have hfraction : x.pattern % 2 ^ 52 + 2 ^ 52 = units := by omega
        rw [hplace, hfraction, if_neg (Nat.succ_ne_zero exponent), Nat.add_sub_cancel]
      · -- the greatest point is the least of the next grid
        have hplace : x.pattern / 2 ^ 52 = exponent + 2 := by omega
        have hfraction : x.pattern % 2 ^ 52 + 2 ^ 52 = 2 ^ 52 := by omega
        rw [hplace, hfraction, if_neg (Nat.succ_ne_zero (exponent + 1)), Nat.add_succ_sub_one]
        ring
  have hden : x.ratio.2 = 1 <<< 1074 := rfl
  rw [size, hratio, hden, grain, finest]
  push_cast
  ring

/-- Every pattern is a point of a grid. -/
theorem exists_units (x : Binary64) : ∃ exponent units, x.pattern = exponent * 2 ^ 52 + units ∧
    (exponent = 0 ∨ 2 ^ 52 ≤ units) ∧ units < 2 ^ 53 := by
  have hsplit := Nat.div_add_mod x.pattern (2 ^ 52)
  have hfraction : x.pattern % 2 ^ 52 < 2 ^ 52 := Nat.mod_lt _ (by positivity)
  by_cases hzero : x.pattern / 2 ^ 52 = 0
  · exact ⟨0, x.pattern % 2 ^ 52, by omega, .inl rfl, by omega⟩
  · exact ⟨x.pattern / 2 ^ 52 - 1, x.pattern % 2 ^ 52 + 2 ^ 52, by omega, .inr (by omega), by omega⟩

/-- The values are in the order of the patterns. -/
theorem size_lt_of_pattern_lt (h : x.pattern < y.pattern) : x.size < y.size := by
  obtain ⟨e, m, hx, hlowx, hhighx⟩ := exists_units x
  obtain ⟨e', m', hy, hlowy, hhighy⟩ := exists_units y
  rw [size_of_pattern hx hlowx hhighx.le, size_of_pattern hy hlowy hhighy.le]
  have hle : e ≤ e' := by omega
  obtain ⟨more, rfl⟩ := Nat.exists_eq_add_of_le hle
  rw [grain_add, ← mul_assoc]
  refine mul_lt_mul_of_pos_right ?_ (grain_pos e)
  have hlt : m < m' * 2 ^ more := by
    cases more with
    | zero => omega
    | succ more =>
        have htwice : m' * 2 ≤ m' * 2 ^ (more + 1) := by
          rw [pow_succ', ← mul_assoc]
          exact Nat.le_mul_of_pos_right _ (by positivity)
        omega
  exact_mod_cast hlt

/-- The points of a finer grid lie below those that have 53 bits. -/
theorem size_lt_of_exponent_lt {fine : ℕ} (hpattern : x.pattern = fine * 2 ^ 52 + units)
    (hlow : fine = 0 ∨ 2 ^ 52 ≤ units) (hhigh : units < 2 ^ 53) (hlt : fine < exponent) :
    x.size < 2 ^ 52 * grain exponent := by
  obtain ⟨more, rfl⟩ := Nat.exists_eq_add_of_lt hlt
  have hunits : (units : ℚ) < 2 ^ 53 := by exact_mod_cast hhigh
  have htwo : (2 : ℚ) ≤ 2 ^ (more + 1) := by
    rw [pow_succ']
    exact le_mul_of_one_le_right zero_le_two (one_le_pow₀ one_le_two)
  have hpos := grain_pos fine
  rw [size_of_pattern hpattern hlow hhigh.le, Nat.add_assoc, grain_add]
  calc (units : ℚ) * grain fine < 2 ^ 53 * grain fine := mul_lt_mul_of_pos_right hunits hpos
    _ = 2 ^ 52 * (2 * grain fine) := by ring
    _ ≤ 2 ^ 52 * (2 ^ (more + 1) * grain fine) := by gcongr

/-! ## Whole numbers -/

/-- A quotient is at most one half away from the number to which it is rounded. -/
theorem roundDiv_bounds (num : ℕ) (hden : 0 < den) :
    2 * (roundDiv num den * den) ≤ 2 * num + den ∧ 2 * num ≤ 2 * (roundDiv num den * den) + den := by
  have hsplit := Nat.div_add_mod' num den
  have hrest := Nat.mod_lt num hden
  have hnext := Nat.add_one_mul (num / den) den
  rw [roundDiv]
  split <;> omega

/-- If it is one half away, the number is even. -/
theorem two_dvd_roundDiv (hden : 0 < den)
    (h : 2 * (roundDiv num den * den) = 2 * num + den ∨
      2 * num = 2 * (roundDiv num den * den) + den) : 2 ∣ roundDiv num den := by
  have hsplit := Nat.div_add_mod' num den
  have hrest := Nat.mod_lt num hden
  have hnext := Nat.add_one_mul (num / den) den
  rw [roundDiv] at h ⊢
  split at h
  · rename_i hup
    rw [if_pos hup]
    omega
  · rename_i hdown
    rw [if_neg hdown]
    omega

theorem roundDiv_mul_right {factor : ℕ} (hfactor : 0 < factor) :
    roundDiv (num * factor) (den * factor) = roundDiv num den := by
  have hquotient : num * factor / (den * factor) = num / den :=
    Nat.mul_div_mul_right num den hfactor
  have hrest : num * factor % (den * factor) = num % den * factor := Nat.mul_mod_mul_right factor num den
  have hgreater : 2 * (num % den * factor) > den * factor ↔ 2 * (num % den) > den := by
    rw [← mul_assoc]
    exact Nat.mul_lt_mul_right hfactor
  have heven : 2 * (num % den * factor) = den * factor ↔ 2 * (num % den) = den := by
    rw [← mul_assoc]
    exact Nat.mul_left_inj hfactor.ne'
  simp only [roundDiv, hquotient, hrest, hgreater, heven]

/-! ## The grid of a quotient -/

theorem shiftLeft_eq_mul {more : ℕ} (h : more ≤ exponent) (n : ℕ) :
    n <<< exponent = n <<< (exponent - more) * 2 ^ more := by
  rw [← Nat.shiftLeft_eq, ← Nat.shiftLeft_add, Nat.sub_add_cancel h]

theorem inUnits_eq (num den exponent : ℕ) :
    inUnits num den exponent = roundDiv (num <<< 1074) (den <<< exponent) := by
  rw [inUnits]
  split
  · rename_i hle
    rw [shiftLeft_eq_mul hle num, Nat.shiftLeft_eq den, roundDiv_mul_right (Nat.two_pow_pos _)]
  · rename_i hlt
    rw [shiftLeft_eq_mul (Nat.le_of_not_le hlt) den, Nat.shiftLeft_eq num,
      roundDiv_mul_right (Nat.two_pow_pos 1074)]

theorem reaches_iff : reaches num den exponent = true ↔
    den <<< exponent <<< 52 ≤ num <<< 1074 := by
  rw [reaches]
  split
  · rename_i hle
    rw [decide_eq_true_iff, shiftLeft_eq_mul hle num, ← Nat.shiftLeft_add,
      shiftLeft_eq_mul (Nat.le_add_right exponent 52) den, Nat.add_sub_cancel_left]
    exact (Nat.mul_le_mul_right_iff (Nat.two_pow_pos _)).symm
  · rename_i hlt
    rw [decide_eq_true_iff, ← Nat.shiftLeft_add, ← Nat.shiftLeft_add,
      shiftLeft_eq_mul (Nat.le_add_right_of_le (Nat.le_of_not_le hlt)) den, Nat.shiftLeft_eq num,
      Nat.sub_add_comm (Nat.le_of_not_le hlt)]
    rw [Nat.mul_le_mul_right_iff (Nat.two_pow_pos 1074)]

theorem not_reaches_of_le {fine : ℕ} (hle : fine ≤ exponent)
    (h : reaches num den fine = false) : reaches num den exponent = false := by
  rw [Bool.eq_false_iff, ne_eq, reaches_iff, not_le, ← Nat.shiftLeft_add, Nat.shiftLeft_eq den] at *
  refine lt_of_lt_of_le h ?_
  exact Nat.mul_le_mul_left den (Nat.pow_le_pow_right (by decide) (by omega))

theorem reaches_of_log2 (hnum : 0 < num) (h : exponent + 52 + den.log2 + 1 ≤ 1074 + num.log2) :
    reaches num den exponent = true := by
  rw [reaches_iff, ← Nat.shiftLeft_add, Nat.shiftLeft_eq, Nat.shiftLeft_eq]
  calc den * 2 ^ (exponent + 52) ≤ 2 ^ (den.log2 + 1) * 2 ^ (exponent + 52) :=
        Nat.mul_le_mul_right _ Nat.lt_log2_self.le
    _ = 2 ^ (den.log2 + 1 + (exponent + 52)) := (Nat.pow_add 2 _ _).symm
    _ ≤ 2 ^ (num.log2 + 1074) := Nat.pow_le_pow_right (by decide) (by omega)
    _ = 2 ^ num.log2 * 2 ^ 1074 := Nat.pow_add 2 _ _
    _ ≤ num * 2 ^ 1074 := Nat.mul_le_mul_right _ (Nat.log2_self_le hnum.ne')

theorem not_reaches_of_log2 (hden : 0 < den)
    (h : 1074 + num.log2 + 1 ≤ exponent + 52 + den.log2) :
    reaches num den exponent = false := by
  rw [Bool.eq_false_iff, ne_eq, reaches_iff, not_le, ← Nat.shiftLeft_add, Nat.shiftLeft_eq,
    Nat.shiftLeft_eq]
  calc num * 2 ^ 1074 < 2 ^ (num.log2 + 1) * 2 ^ 1074 :=
        Nat.mul_lt_mul_of_pos_right Nat.lt_log2_self (Nat.two_pow_pos _)
    _ = 2 ^ (num.log2 + 1 + 1074) := (Nat.pow_add 2 _ _).symm
    _ ≤ 2 ^ (den.log2 + (exponent + 52)) := Nat.pow_le_pow_right (by decide) (by omega)
    _ = 2 ^ den.log2 * 2 ^ (exponent + 52) := Nat.pow_add 2 _ _
    _ ≤ den * 2 ^ (exponent + 52) := Nat.mul_le_mul_right _ (Nat.log2_self_le hden.ne')

/-- The grid is the coarsest on which the quotient has 53 bits, or else the finest of all. -/
theorem unitExponent_spec (hnum : 0 < num) (hden : 0 < den) :
    (unitExponent num den = 0 ∨ reaches num den (unitExponent num den) = true) ∧
      reaches num den (unitExponent num den + 1) = false := by
  rw [unitExponent]
  set guess := 1074 + num.log2 + 1 - den.log2 - 52 with hguess
  have hcoarse : reaches num den guess = false := not_reaches_of_log2 hden (by omega)
  rw [if_neg (by rw [hcoarse]; exact Bool.false_ne_true)]
  split
  · rename_i hreaches
    refine ⟨.inr hreaches, not_reaches_of_le (by omega) hcoarse⟩
  · rename_i hnot
    rcases Nat.lt_or_ge guess 2 with hsmall | hlarge
    · refine ⟨.inl (by omega), not_reaches_of_le (by omega) (Bool.eq_false_iff.mpr hnot)⟩
    · have hone : guess - 2 + 1 = guess - 1 := by omega
      refine ⟨.inr (reaches_of_log2 hnum (by omega)), ?_⟩
      rw [hone]
      exact Bool.eq_false_iff.mpr hnot

/-! ## Patterns -/

theorem magnitude_le (num den : ℕ) : magnitude num den ≤ 2047 * 2 ^ 52 := by
  rw [magnitude]
  split
  · exact Nat.zero_le _
  · exact Nat.min_le_left _ _

theorem toNat_ofRatio (negative : Bool) (num den : ℕ) : (ofRatio negative num den).bits.toNat =
    magnitude num den + if negative then 2 ^ 63 else 0 := by
  have hle := magnitude_le num den
  rw [ofRatio, UInt64.toNat_ofNat', Nat.one_shiftLeft]
  refine Nat.mod_eq_of_lt ?_
  split <;> omega

theorem pattern_ofRatio (negative : Bool) (num den : ℕ) :
    (ofRatio negative num den).pattern = magnitude num den := by
  have hle := magnitude_le num den
  rw [pattern, toNat_ofRatio, Nat.one_shiftLeft]
  split <;> omega

theorem isNegative_ofRatio (negative : Bool) (num den : ℕ) :
    (ofRatio negative num den).isNegative = negative := by
  have hle := magnitude_le num den
  rw [isNegative, toNat_ofRatio, Nat.one_shiftLeft]
  cases negative
  · rw [decide_eq_false_iff_not, if_neg Bool.false_ne_true]
    omega
  · rw [decide_eq_true_iff, if_pos rfl]
    omega

/-! ## The nearest number -/

/-- Half a unit beyond the greatest finite number. -/
def limit : ℚ :=
  2 ^ 1024 - 2 ^ 970

theorem grain_whole : grain 1074 = 1 := by
  have hcancel : ∀ k : ℕ, (2 : ℚ) ^ k * (1 / ((1 <<< k : ℕ) : ℚ)) = 1 := by
    intro k
    rw [Nat.one_shiftLeft]
    push_cast
    exact mul_one_div_cancel (pow_ne_zero k two_ne_zero)
  exact hcancel 1074

theorem limit_eq : limit = (2 ^ 53 - 1 / 2) * grain 2045 := by
  have hgrain : grain 2045 = 2 ^ 971 * grain 1074 := grain_add 1074 971
  have hpow : (2 : ℚ) ^ 1024 = 2 ^ 54 * 2 ^ 970 := pow_add 2 54 970
  have hhalf : (2 : ℚ) ^ 971 = 2 * 2 ^ 970 := pow_succ' 2 970
  rw [limit, hgrain, grain_whole, hpow, hhalf]
  generalize (2 : ℚ) ^ 970 = unit
  ring

/-- The number is the one to which the absolute value `q` is rounded: the nearest finite number, and
the even one of two that are equally near.  From the limit on there is none. -/
structure Rounds (q : ℚ) (x : Binary64) : Prop where
  finite_iff : x.isFinite = true ↔ q < limit
  nearest : x.isFinite = true → ∀ y : Binary64, y.isFinite = true → |x.size - q| ≤ |y.size - q|
  even : x.isFinite = true → ∀ y : Binary64, y.isFinite = true →
    |x.size - q| = |y.size - q| → x.size = y.size ∨ 2 ∣ x.pattern

/-- The whole number to which `q` is rounded. -/
structure RoundsWhole (q : ℚ) (n : ℕ) : Prop where
  near : |(n : ℚ) - q| ≤ 1 / 2
  even : |(n : ℚ) - q| = 1 / 2 → 2 ∣ n

theorem roundsWhole_roundDiv (num : ℕ) (hden : 0 < den) :
    RoundsWhole (num / den) (roundDiv num den) := by
  have hpos : (0 : ℚ) < den := by exact_mod_cast hden
  have hquotient : (num / den : ℚ) * den = num := div_mul_cancel₀ _ hpos.ne'
  constructor
  · obtain ⟨hup, hdown⟩ := roundDiv_bounds num hden
    have hup : 2 * ((roundDiv num den : ℚ) * den) ≤ 2 * num + den := by exact_mod_cast hup
    have hdown : 2 * (num : ℚ) ≤ 2 * ((roundDiv num den : ℚ) * den) + den := by exact_mod_cast hdown
    rw [abs_le]
    constructor <;>
    · by_contra hlt
      have hscaled := mul_lt_mul_of_pos_right (not_le.mp hlt) hpos
      linarith
  · intro h
    apply two_dvd_roundDiv hden
    rcases (abs_eq (by norm_num)).mp h with heq | heq
    · left
      have hscaled : ((roundDiv num den : ℚ) - num / den) * den = 1 / 2 * den := by rw [heq]
      have hboth : 2 * ((roundDiv num den : ℚ) * den) = 2 * num + den := by linarith
      exact_mod_cast hboth
    · right
      have hscaled : ((roundDiv num den : ℚ) - num / den) * den = -(1 / 2) * den := by rw [heq]
      have hboth : 2 * (num : ℚ) = 2 * ((roundDiv num den : ℚ) * den) + den := by linarith
      exact_mod_cast hboth

/-- No whole number is nearer. -/
theorem RoundsWhole.nearest {n : ℕ} (h : RoundsWhole q n) (k : ℕ) :
    |(n : ℚ) - q| ≤ |(k : ℚ) - q| ∧ (|(n : ℚ) - q| = |(k : ℚ) - q| → n = k ∨ 2 ∣ n) := by
  by_cases heq : n = k
  · rw [heq]
    exact ⟨le_rfl, fun _ => .inl rfl⟩
  · have hone : (1 : ℚ) ≤ |(k : ℚ) - n| := by
      have hne : (k : ℤ) - n ≠ 0 := by omega
      exact_mod_cast Int.one_le_abs hne
    have htriangle := abs_sub_le (k : ℚ) q n
    rw [abs_sub_comm q] at htriangle
    have hnear := h.near
    exact ⟨by linarith, fun htie => .inr (h.even (by linarith))⟩

/-- On this grid the absolute value has 53 bits, or else it is the finest grid. -/
structure Fits (q : ℚ) (exponent : ℕ) : Prop where
  low : exponent = 0 ∨ 2 ^ 52 ≤ q / grain exponent
  high : q / grain exponent < 2 ^ 53

theorem quotient_eq (num den exponent : ℕ) : (num / den : ℚ) / grain exponent =
    ((num <<< 1074 : ℕ) : ℚ) / ((den <<< exponent : ℕ) : ℚ) := by
  have hnum : num <<< 1074 = num * 1 <<< 1074 := by
    rw [Nat.shiftLeft_eq num, Nat.one_shiftLeft]
  rw [hnum, grain, finest, Nat.shiftLeft_eq den]
  generalize 1 <<< 1074 = unit
  push_cast
  rw [mul_one_div, div_div_div_eq]

theorem fits_unitExponent (hnum : 0 < num) (hden : 0 < den) :
    Fits (num / den) (unitExponent num den) := by
  obtain ⟨hlow, hhigh⟩ := unitExponent_spec hnum hden
  have hpos : ∀ e : ℕ, (0 : ℚ) < ((den <<< e : ℕ) : ℚ) := by
    intro e
    rw [Nat.shiftLeft_eq]
    exact_mod_cast Nat.mul_pos hden (Nat.two_pow_pos e)
  refine ⟨hlow.imp_right fun h => ?_, ?_⟩
  · rw [quotient_eq, le_div_iff₀ (hpos _)]
    rw [reaches_iff, Nat.shiftLeft_eq, mul_comm] at h
    exact_mod_cast h
  · rw [quotient_eq, div_lt_iff₀ (hpos _)]
    rw [Bool.eq_false_iff, ne_eq, reaches_iff, not_le, ← Nat.shiftLeft_add, Nat.add_assoc,
      Nat.shiftLeft_add, Nat.shiftLeft_eq _ (1 + 52), mul_comm] at hhigh
    exact_mod_cast hhigh

section

variable (hfits : Fits q exponent) (hunits : RoundsWhole (q / grain exponent) units)

include hfits hunits

theorem Fits.units_le : units ≤ 2 ^ 53 := by
  have hnear := (abs_le.mp hunits.near).2
  have hhigh := hfits.high
  have hlt : (units : ℚ) < 2 ^ 53 + 1 := by linarith
  have hlt : units < 2 ^ 53 + 1 := by exact_mod_cast hlt
  omega

theorem Fits.le_units : exponent = 0 ∨ 2 ^ 52 ≤ units := by
  refine hfits.low.imp_right fun hlow => ?_
  have hnear := (abs_le.mp hunits.near).1
  have hlt : (2 ^ 52 : ℚ) < units + 1 := by linarith
  have hlt : 2 ^ 52 < units + 1 := by exact_mod_cast hlt
  omega

/-- No finite number is nearer than the nearest point of the grid. -/
theorem Fits.nearest (hpattern : x.pattern = exponent * 2 ^ 52 + units) (y : Binary64) :
    |x.size - q| ≤ |y.size - q| ∧
      (|x.size - q| = |y.size - q| → x.size = y.size ∨ 2 ∣ x.pattern) := by
  have hpos := grain_pos exponent
  have hscale : ∀ r : ℚ, |r * grain exponent - q| = |r - q / grain exponent| * grain exponent := by
    intro r
    rw [← abs_of_pos hpos, ← abs_mul, abs_of_pos hpos, sub_mul, div_mul_cancel₀ _ hpos.ne']
  have hsize := size_of_pattern hpattern (hfits.le_units hunits) (hfits.units_le hunits)
  obtain ⟨exponent', units', hpattern', hlow', hhigh'⟩ := exists_units y
  have hsize' := size_of_pattern hpattern' hlow' hhigh'.le
  rw [hsize, hscale]
  rcases le_or_gt exponent exponent' with hle | hlt
  · -- the other number lies on the grid
    obtain ⟨more, rfl⟩ := Nat.exists_eq_add_of_le hle
    have hpoint : y.size = ((units' * 2 ^ more : ℕ) : ℚ) * grain exponent := by
      rw [hsize', grain_add]
      push_cast
      ring
    obtain ⟨hleast, htie⟩ := hunits.nearest (units' * 2 ^ more)
    rw [hpoint, hscale]
    refine ⟨mul_le_mul_of_nonneg_right hleast hpos.le, fun hequal => ?_⟩
    refine (htie (mul_right_cancel₀ hpos.ne' hequal)).imp (fun heq => by rw [heq]) fun heven => ?_
    omega
  · -- the other number lies below all points with 53 bits
    have hbelow : y.size < 2 ^ 52 * grain exponent := size_lt_of_exponent_lt hpattern' hlow' hhigh' hlt
    have hq : 2 ^ 52 * grain exponent ≤ q :=
      (le_div_iff₀ hpos).mp (hfits.low.resolve_left (Nat.ne_zero_of_lt hlt))
    obtain ⟨hleast, -⟩ := hunits.nearest (2 ^ 52)
    push_cast at hleast
    have hless : |(units : ℚ) - q / grain exponent| * grain exponent < |y.size - q| := by
      refine lt_of_le_of_lt (mul_le_mul_of_nonneg_right hleast hpos.le) ?_
      rw [← hscale, abs_of_nonpos (by linarith), abs_of_nonpos (by linarith)]
      linarith
    exact ⟨hless.le, fun hequal => absurd hequal hless.ne⟩

/-- The pattern is one of a finite number exactly below the limit. -/
theorem Fits.lt_limit_iff : exponent * 2 ^ 52 + units < 2047 * 2 ^ 52 ↔ q < limit := by
  have hpos := grain_pos 2045
  have hhigh := hfits.units_le hunits
  have hlow := hfits.le_units hunits
  have hbound := hfits.high
  rw [div_lt_iff₀ (grain_pos exponent)] at hbound
  rw [limit_eq]
  rcases lt_trichotomy exponent 2045 with hlt | rfl | hgt
  · have hgrain : 2 * grain exponent ≤ grain 2045 := by
      obtain ⟨more, hmore⟩ := Nat.exists_eq_add_of_lt hlt
      rw [hmore, Nat.add_assoc, grain_add, pow_succ', mul_assoc]
      exact mul_le_mul_of_nonneg_left
        (le_mul_of_one_le_left (grain_pos exponent).le (one_le_pow₀ one_le_two)) zero_le_two
    refine iff_of_true (by omega) ?_
    linarith
  · -- the limit is half a unit beyond the last point of this grid
    rw [← div_lt_iff₀ hpos]
    have hnear := abs_le.mp hunits.near
    constructor
    · intro hlast
      have hlt : units + 1 ≤ 2 ^ 53 := by omega
      have hlt : (units : ℚ) + 1 ≤ 2 ^ 53 := by exact_mod_cast hlt
      refine lt_of_le_of_ne (by linarith) fun hmiddle => ?_
      rw [hmiddle] at hnear
      have hlast : (units : ℚ) + 1 = 2 ^ 53 := by linarith
      have heven : 2 ∣ units := by
        apply hunits.even
        rw [hmiddle, abs_of_nonpos (by linarith)]
        linarith
      have hodd : units + 1 = 2 ^ 53 := by exact_mod_cast hlast
      omega
    · intro hlast
      have hlt : (units : ℚ) < 2 ^ 53 := by linarith
      have hlt : units < 2 ^ 53 := by exact_mod_cast hlt
      omega
  · have hgrain : 2 * grain 2045 ≤ grain exponent := by
      obtain ⟨more, hmore⟩ := Nat.exists_eq_add_of_lt hgt
      rw [hmore, Nat.add_assoc, grain_add, pow_succ', mul_assoc]
      exact mul_le_mul_of_nonneg_left
        (le_mul_of_one_le_left hpos.le (one_le_pow₀ one_le_two)) zero_le_two
    have hreached := hfits.low.resolve_left (by omega)
    rw [le_div_iff₀ (grain_pos exponent)] at hreached
    refine iff_of_false (by omega) ?_
    linarith

theorem Fits.rounds (hpattern : x.pattern = min (2047 * 2 ^ 52) (exponent * 2 ^ 52 + units)) :
    Rounds q x := by
  have hfinite := hfits.lt_limit_iff hunits
  have hnearest := fun (hx : x.isFinite = true) =>
    hfits.nearest hunits (x := x) (by rw [isFinite_iff] at hx; omega)
  refine ⟨?_, fun hx y _ => (hnearest hx y).1, fun hx y _ => (hnearest hx y).2⟩
  rw [isFinite_iff, ← hfinite]
  omega

end

theorem rounds_of_pattern_eq_zero (hpattern : x.pattern = 0) : Rounds 0 x := by
  have hfits : Fits 0 0 := ⟨.inl rfl, by rw [zero_div]; positivity⟩
  have hunits : RoundsWhole (0 / grain 0) 0 := by
    rw [zero_div]
    exact ⟨by norm_num, fun _ => dvd_zero 2⟩
  exact hfits.rounds hunits hpattern

theorem rounds_ofRatio (negative : Bool) (num : ℕ) (hden : 0 < den) :
    Rounds (num / den) (ofRatio negative num den) := by
  have hpattern := pattern_ofRatio negative num den
  rw [magnitude] at hpattern
  rcases num.eq_zero_or_pos with rfl | hnum
  · rw [Nat.cast_zero, zero_div]
    exact rounds_of_pattern_eq_zero hpattern
  · have hpos : 0 < den <<< unitExponent num den := by
      rw [Nat.shiftLeft_eq]
      positivity
    have hunits := roundsWhole_roundDiv (num <<< 1074) hpos
    rw [← quotient_eq, ← inUnits_eq] at hunits
    rw [if_neg (by omega), infinityPattern, Nat.shiftLeft_eq] at hpattern
    dsimp only at hpattern
    rw [Nat.shiftLeft_eq] at hpattern
    exact (fits_unitExponent hnum hden).rounds hunits hpattern

/-! ## One choice -/

theorem toNat_bits (x : Binary64) :
    x.bits.toNat = x.pattern + if x.isNegative = true then 2 ^ 63 else 0 := by
  have hlt := x.bits.toNat_lt
  simp only [pattern, isNegative, Nat.one_shiftLeft, decide_eq_true_iff]
  split <;> omega

theorem eq_of_pattern (hpattern : x.pattern = y.pattern) (hsign : x.isNegative = y.isNegative) :
    x = y := by
  have hbits : x.bits.toNat = y.bits.toNat := by
    rw [toNat_bits, toNat_bits, hpattern, hsign]
  have heq : x.bits = y.bits := UInt64.toNat_inj.mp hbits
  cases x
  cases y
  exact congrArg mk heq

theorem pattern_eq_of_size (h : x.size = y.size) : x.pattern = y.pattern := by
  rcases lt_trichotomy x.pattern y.pattern with hlt | heq | hgt
  · exact absurd h (size_lt_of_pattern_lt hlt).ne
  · exact heq
  · exact absurd h (size_lt_of_pattern_lt hgt).ne'

/-- Two finite numbers that are equally near, with even patterns, have a nearer one between them. -/
theorem Rounds.not_both_even (h : Rounds q x) (hx : x.isFinite = true) (hy : y.isFinite = true)
    (htie : |x.size - q| = |y.size - q|) (hevenx : 2 ∣ x.pattern) (heveny : 2 ∣ y.pattern) :
    ¬ x.pattern < y.pattern := by
  intro hlt
  have hymax := isFinite_iff.mp hy
  obtain ⟨z, hz⟩ : ∃ z : Binary64, z.pattern = x.pattern + 1 := by
    refine ⟨⟨UInt64.ofNat (x.pattern + 1)⟩, ?_⟩
    rw [pattern, UInt64.toNat_ofNat', Nat.one_shiftLeft]
    omega
  have hxz : x.size < z.size := size_lt_of_pattern_lt (by omega)
  have hzy : z.size < y.size := size_lt_of_pattern_lt (by omega)
  have hnearest := h.nearest hx z (isFinite_iff.mpr (by omega))
  have hnearer : |z.size - q| < |x.size - q| := by
    rw [abs_lt]
    constructor
    · have hleft := neg_abs_le (x.size - q)
      linarith
    · have hright := le_abs_self (y.size - q)
      linarith
  exact absurd hnearest (not_le_of_gt hnearer)

/-- There is only one finite number to which an absolute value is rounded. -/
theorem Rounds.unique (hx : Rounds q x) (hy : Rounds q y) (hfinite : x.isFinite = true)
    (hsign : x.isNegative = y.isNegative) : x = y := by
  have hfinite' : y.isFinite = true := hy.finite_iff.mpr (hx.finite_iff.mp hfinite)
  have htie : |x.size - q| = |y.size - q| :=
    le_antisymm (hx.nearest hfinite y hfinite') (hy.nearest hfinite' x hfinite)
  refine eq_of_pattern ?_ hsign
  rcases hx.even hfinite y hfinite' htie with heq | hevenx
  · exact pattern_eq_of_size heq
  · rcases hy.even hfinite' x hfinite htie.symm with heq | heveny
    · exact (pattern_eq_of_size heq).symm
    · exact Nat.le_antisymm
        (Nat.le_of_not_lt (hy.not_both_even hfinite' hfinite htie.symm heveny hevenx))
        (Nat.le_of_not_lt (hx.not_both_even hfinite hfinite' htie hevenx heveny))

/-! ## Decimal numbers -/

theorem Rounds.of_limit_le (hlimit : limit ≤ q) (hinfinite : x.isFinite = false) : Rounds q x := by
  have hnot : ¬ x.isFinite = true := by rw [hinfinite]; exact Bool.false_ne_true
  exact ⟨iff_of_false hnot (not_lt_of_ge hlimit), fun h => absurd h hnot, fun h => absurd h hnot⟩

/-- What is less than half of the least positive number is rounded to zero. -/
theorem Rounds.of_lt_half (hzero : x.pattern = 0) (hq : 0 ≤ q) (hhalf : q < finest / 2) :
    Rounds q x := by
  have hgrain : grain 0 = finest := by rw [grain, pow_zero, one_mul]
  have hpos := finest_pos
  have hlt : q / grain 0 < 1 / 2 := by
    rw [hgrain, div_lt_iff₀ hpos]
    linarith
  have hle : 0 ≤ q / grain 0 := div_nonneg hq (grain_pos 0).le
  have hfits : Fits q 0 := ⟨.inl rfl, by linarith⟩
  have hunits : RoundsWhole (q / grain 0) 0 := by
    refine ⟨?_, fun _ => dvd_zero 2⟩
    rw [Nat.cast_zero, zero_sub, abs_neg, abs_of_nonneg hle]
    exact hlt.le
  exact hfits.rounds hunits hzero

theorem two_pow_le_ten_pow : (2 : ℚ) ^ 1203 ≤ 10 ^ 401 := by
  have hpow : (2 : ℚ) ^ 1203 = (2 ^ 3) ^ 401 := pow_mul 2 3 401
  rw [hpow]
  exact pow_le_pow_left₀ (by positivity) (by norm_num) 401

/-- A number of so many bits has at least this many places before the point. -/
theorem ten_pow_le_two_pow {bits places : ℕ} (h : 10 * places ≤ 3 * bits) : 10 ^ places ≤ 2 ^ bits := by
  have hpower : (10 ^ places) ^ 10 ≤ (2 ^ bits) ^ 10 :=
    calc (10 ^ places) ^ 10 = 10 ^ (10 * places) := by rw [← pow_mul, mul_comm]
      _ ≤ 10 ^ (3 * bits) := Nat.pow_le_pow_right (by decide) h
      _ = (10 ^ 3) ^ bits := pow_mul 10 3 bits
      _ ≤ (2 ^ 10) ^ bits := Nat.pow_le_pow_left (by decide) bits
      _ = (2 ^ bits) ^ 10 := by rw [← pow_mul, ← pow_mul, mul_comm]
  exact (Nat.pow_le_pow_iff_left (by decide)).mp hpower

/-- A number of so many bits has at most about this many places before the point. -/
theorem two_pow_le_ten_pow_of_le {bits places : ℕ} (h : bits ≤ 3 * places + 2) :
    2 ^ bits ≤ 4 * 10 ^ places :=
  calc 2 ^ bits ≤ 2 ^ (3 * places + 2) := Nat.pow_le_pow_right (by decide) h
    _ = (2 ^ 3) ^ places * 2 ^ 2 := by rw [pow_add, pow_mul]
    _ ≤ 10 ^ places * 4 := Nat.mul_le_mul_right 4 (Nat.pow_le_pow_left (by decide) places)
    _ = 4 * 10 ^ places := mul_comm _ _

theorem cast_one_shiftLeft (places : ℕ) : ((1 <<< places : ℕ) : ℚ) = 2 ^ places := by
  rw [Nat.one_shiftLeft, Nat.cast_pow, Nat.cast_ofNat]

theorem not_isFinite_ofRatio_limit (negative : Bool) :
    (ofRatio negative (1 <<< 1024) 1).isFinite = false := by
  have hrounds := rounds_ofRatio negative (1 <<< 1024) one_pos
  rw [Nat.cast_one, div_one, cast_one_shiftLeft] at hrounds
  rw [Bool.eq_false_iff, ne_eq, hrounds.finite_iff, not_lt, limit]
  exact sub_le_self _ (pow_nonneg zero_le_two 970)

theorem inv_ten_pow_le : 4 * ((10 : ℚ) ^ 401)⁻¹ ≤ finest / 2 := by
  have hpow : (2 : ℚ) ^ 1074 * 2 ^ 3 ≤ 10 ^ 401 := by
    rw [← pow_add 2 1074 3]
    exact (pow_le_pow_right₀ one_le_two (by norm_num)).trans two_pow_le_ten_pow
  have hunit : (0 : ℚ) < 2 ^ 1074 := pow_pos two_pos 1074
  have hbound : (0 : ℚ) < 10 ^ 401 := pow_pos (by norm_num) 401
  rw [finest, cast_one_shiftLeft]
  generalize (2 : ℚ) ^ 1074 = unit at *
  generalize (10 : ℚ) ^ 401 = bound at *
  rw [← div_eq_mul_inv, div_div, div_le_div_iff₀ hbound (by positivity)]
  linarith

section

variable {digits : ℕ} {exponent : ℤ}

theorem limit_le_of_places (hdigits : digits ≠ 0)
    (h : 400 < (digits.log2 : ℤ) * 3 / 10 + exponent) : limit ≤ digits * 10 ^ exponent := by
  set places := digits.log2 * 3 / 10 with hplaces
  have hlow : 10 ^ places ≤ digits :=
    (ten_pow_le_two_pow (by omega)).trans (Nat.log2_self_le hdigits)
  have hlow : (10 : ℚ) ^ (places : ℤ) ≤ digits := by
    rw [zpow_natCast]
    exact_mod_cast hlow
  calc limit ≤ 2 ^ 1024 := sub_le_self _ (pow_nonneg zero_le_two 970)
    _ ≤ 2 ^ 1203 := pow_le_pow_right₀ one_le_two (by norm_num)
    _ ≤ 10 ^ 401 := two_pow_le_ten_pow
    _ = 10 ^ (401 : ℤ) := (zpow_natCast 10 401).symm
    _ ≤ 10 ^ (places + exponent) := zpow_le_zpow_right₀ (by norm_num) (by omega)
    _ = 10 ^ (places : ℤ) * 10 ^ exponent := zpow_add₀ (by norm_num) _ _
    _ ≤ digits * 10 ^ exponent := mul_le_mul_of_nonneg_right hlow (zpow_nonneg (by norm_num) _)

theorem lt_half_of_places (h : ((digits.log2 : ℤ) + 1) / 3 + exponent < -400) :
    digits * 10 ^ exponent < finest / 2 := by
  set places := (digits.log2 + 1) / 3 with hplaces
  have hhigh : digits < 4 * 10 ^ places :=
    Nat.lt_of_lt_of_le Nat.lt_log2_self (two_pow_le_ten_pow_of_le (by omega))
  have hhigh : (digits : ℚ) < 4 * 10 ^ (places : ℤ) := by
    rw [zpow_natCast]
    exact_mod_cast hhigh
  calc digits * (10 : ℚ) ^ exponent < 4 * 10 ^ (places : ℤ) * 10 ^ exponent :=
        mul_lt_mul_of_pos_right hhigh (zpow_pos (by norm_num) _)
    _ = 4 * 10 ^ (places + exponent) := by rw [mul_assoc, ← zpow_add₀ (by norm_num)]
    _ ≤ 4 * 10 ^ (-401 : ℤ) :=
        mul_le_mul_of_nonneg_left (zpow_le_zpow_right₀ (by norm_num) (by omega)) (by norm_num)
    _ = 4 * ((10 : ℚ) ^ 401)⁻¹ := by rw [zpow_neg]; rfl
    _ ≤ finest / 2 := inv_ten_pow_le

theorem rounds_ofDecimal (negative : Bool) (digits : ℕ) (exponent : ℤ) :
    Rounds (digits * 10 ^ exponent) (ofDecimal negative digits exponent) := by
  have hzero : (ofRatio negative 0 1).pattern = 0 := pattern_ofRatio negative 0 1
  rw [ofDecimal]
  split
  · rename_i hdigits
    rw [hdigits, Nat.cast_zero, zero_mul]
    exact rounds_of_pattern_eq_zero hzero
  · rename_i hdigits
    dsimp only
    split
    · rename_i hplaces
      exact .of_limit_le (limit_le_of_places hdigits hplaces) (not_isFinite_ofRatio_limit negative)
    · split
      · rename_i hplaces
        have hnonneg : 0 ≤ digits * (10 : ℚ) ^ exponent := by positivity
        exact .of_lt_half hzero hnonneg (lt_half_of_places hplaces)
      · split
        · rename_i hexponent
          have hrounds := rounds_ofRatio negative (digits * Nat.pow 10 exponent.toNat) one_pos
          obtain ⟨places, rfl⟩ := Int.eq_ofNat_of_zero_le hexponent
          simpa using hrounds
        · rename_i hexponent
          obtain ⟨places, rfl⟩ : ∃ places : ℕ, exponent = -places :=
            ⟨(-exponent).toNat, by omega⟩
          have hpos : 0 < Nat.pow 10 places := Nat.pow_pos (by decide)
          have hrounds := rounds_ofRatio negative digits hpos
          simpa [div_eq_mul_inv] using hrounds

end

theorem isNegative_ofDecimal (negative : Bool) (digits : ℕ) (exponent : ℤ) :
    (ofDecimal negative digits exponent).isNegative = negative := by
  rw [ofDecimal]
  dsimp only
  repeat' split
  all_goals exact isNegative_ofRatio _ _ _

end Binary64
end Uplink
