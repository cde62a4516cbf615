/-!
# Binary floating-point numbers of 64 bits

A number is kept as its bit pattern, and every operation is exact arithmetic on quotients of natural
numbers followed by one rounding: to the nearest number, and to the even one of two that are equally
near.
-/

namespace Uplink

/-- A binary floating-point number of 64 bits. -/
structure Binary64 where
  /-- Sign, biased exponent and fraction, from the most significant bit on. -/
  bits : UInt64
  deriving DecidableEq, Repr, Inhabited

namespace Binary64

/-- The pattern of infinity. -/
def infinityPattern : Nat :=
  0x7ff <<< 52

/-- `num / den` rounded to the nearest natural number, a half to the even one. -/
def roundDiv (num den : Nat) : Nat :=
  let quotient := num / den
  let rest := num % den
  if 2 * rest > den ∨ (2 * rest = den ∧ quotient % 2 = 1) then quotient + 1 else quotient

/-- `num / den` in units of `2 ^ (exponent - 1074)`, rounded. -/
def inUnits (num den exponent : Nat) : Nat :=
  if exponent ≤ 1074 then roundDiv (num <<< (1074 - exponent)) den
  else roundDiv num (den <<< (exponent - 1074))

/-- Whether `num / den` has at least 53 bits before the point in units of
`2 ^ (exponent - 1074)`. -/
def reaches (num den exponent : Nat) : Bool :=
  if exponent ≤ 1074 then den <<< 52 ≤ num <<< (1074 - exponent)
  else den <<< (exponent - 1074) <<< 52 ≤ num

/-- The largest unit exponent, counted from the smallest one, in which `num / den` keeps 53 bits;
zero where the number is too small for that. -/
def unitExponent (num den : Nat) : Nat :=
  let guess := 1074 + num.log2 + 1 - den.log2 - 52
  if reaches num den guess then guess
  else if reaches num den (guess - 1) then guess - 1
  else guess - 2

/-- The pattern, without sign, of the number nearest to `num / den`. -/
def magnitude (num den : Nat) : Nat :=
  if num = 0 ∨ den = 0 then 0
  else
    let exponent := unitExponent num den
    min infinityPattern ((exponent <<< 52) + inUnits num den exponent)

/-- The number nearest to a quotient, with the given sign. -/
def ofRatio (negative : Bool) (num den : Nat) : Binary64 :=
  ⟨UInt64.ofNat (magnitude num den + if negative then 1 <<< 63 else 0)⟩

/-- The pattern without its sign. -/
def pattern (x : Binary64) : Nat :=
  x.bits.toNat % (1 <<< 63)

/-- Whether the sign bit is set. -/
def isNegative (x : Binary64) : Bool :=
  1 <<< 63 ≤ x.bits.toNat

/-- Whether the number is neither infinite nor no number at all. -/
def isFinite (x : Binary64) : Bool :=
  x.pattern < infinityPattern

/-- The absolute value of a finite number as a quotient. -/
def ratio (x : Binary64) : Nat × Nat :=
  let exponent := x.pattern >>> 52
  let fraction := x.pattern % (1 <<< 52)
  let units := if exponent = 0 then fraction else (fraction + (1 <<< 52)) <<< (exponent - 1)
  (units, 1 <<< 1074)

/-- The number with its sign turned. -/
def neg (x : Binary64) : Binary64 :=
  ⟨x.bits + 0x8000000000000000⟩

/-- The rounded product of two finite numbers that are not negative. -/
def mul (x y : Binary64) : Binary64 :=
  ofRatio false (x.ratio.1 * y.ratio.1) (x.ratio.2 * y.ratio.2)

/-- The rounded quotient of two finite numbers that are not negative. -/
def div (x y : Binary64) : Binary64 :=
  ofRatio false (x.ratio.1 * y.ratio.2) (x.ratio.2 * y.ratio.1)

/-- The number nearest to `digits * 10 ^ exponent`; powers far outside the range are not computed.
How many places stand before the point is bounded by `10 ^ 3 ≤ 2 ^ 10` and `2 ^ 3 ≤ 10`. -/
def ofDecimal (negative : Bool) (digits : Nat) (exponent : Int) : Binary64 :=
  if digits = 0 then ofRatio negative 0 1
  else
    let bits : Int := digits.log2
    if 400 < bits * 3 / 10 + exponent then ofRatio negative (1 <<< 1024) 1
    else if (bits + 1) / 3 + exponent < -400 then ofRatio negative 0 1
    else if 0 ≤ exponent then ofRatio negative (digits * Nat.pow 10 exponent.toNat) 1
    else ofRatio negative digits (Nat.pow 10 (-exponent).toNat)

/-! ## The shortest decimal number -/

/-- The exact value, without sign, in units of `10 ^ -1074`. -/
def decimalUnits (x : Binary64) : Nat :=
  x.ratio.1 * Nat.pow 5 1074

/-- The decimal number nearest to `x` that has `cut` digits less than its exact value, if `x` is the
number nearest to it.  The neighbours on both sides are tried, for the numbers that are read as a power
of two reach farther on one side. -/
def cutShort? (x : Binary64) (cut : Nat) : Option (Nat × Int) :=
  let exponent : Int := cut - 1074
  let isRead := fun digits => decide (ofDecimal x.isNegative digits exponent = x)
  let below := x.decimalUnits / Nat.pow 10 cut
  let rest := x.decimalUnits % Nat.pow 10 cut
  let takesBelow := 2 * rest < Nat.pow 10 cut ∨ (2 * rest = Nat.pow 10 cut ∧ below % 2 = 0)
  if isRead below ∧ (takesBelow ∨ ¬ isRead (below + 1)) then some (below, exponent)
  else if isRead (below + 1) then some (below + 1, exponent)
  else none

/-- The digits and the power of ten of the shortest decimal number that is read as a finite number.
Seventeen digits are always enough. -/
def shortest (x : Binary64) : Nat × Int :=
  let length := (Nat.toDigits 10 x.decimalUnits).length
  ((List.range 17).findSome? fun places => x.cutShort? (length - 1 - places)).getD
    (x.decimalUnits, -1074)

end Binary64
end Uplink
