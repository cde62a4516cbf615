import Uplink.Binary64

/-!
# Numerals

Reading numbers that are written with digits: whole numbers in a given base and within given bounds,
and decimal numbers with a point and an exponent.  Only the ASCII digits count as digits.
-/

namespace Uplink
namespace Text

/-- The value of a digit, the letters standing for ten and more. -/
def digitValue (c : Char) : Nat :=
  if c.isDigit then c.toNat - '0'.toNat
  else if 'a' ≤ c ∧ c ≤ 'z' then c.toNat - 'a'.toNat + 10
  else if 'A' ≤ c ∧ c ≤ 'Z' then c.toNat - 'A'.toNat + 10
  else 36

/-- The number that a list of digits denotes. -/
def ofDigits (base : Nat) (cs : List Char) : Nat :=
  cs.foldl (fun n c => n * base + digitValue c) 0

/-- The number that a nonempty list of digits denotes; absent if another character occurs. -/
def natural? (base : Nat) (cs : List Char) : Option Nat :=
  if !cs.isEmpty && cs.all (fun c => digitValue c < base) then some (ofDigits base cs) else none

/-- A number below `bound`, written with digits after an optional plus sign. -/
def unsigned? (base bound : Nat) (cs : List Char) : Option Nat :=
  let digits := match cs with
    | '+' :: rest => rest
    | _ => cs
  (natural? base digits).filter fun n => n < bound

/-- A whole number, written with digits after an optional sign. -/
def signed? (base : Nat) (cs : List Char) : Option Int :=
  match cs with
  | '-' :: rest => (natural? base rest).map fun n => -(n : Int)
  | '+' :: rest => (natural? base rest).map fun n => (n : Int)
  | _ => (natural? base cs).map fun n => (n : Int)

/-- A whole number between `low` and `high`, written with digits after an optional sign. -/
def integer? (base : Nat) (low high : Int) (cs : List Char) : Option Int :=
  (signed? base cs).filter fun n => low ≤ n && n ≤ high

/-- The least and the greatest whole number of 64 bits with sign. -/
def int64Bounds : Int × Int :=
  (Int64.minValue.toInt, Int64.maxValue.toInt)

/-- The exponent of a decimal numeral: nothing, or a mark and a whole number. -/
def exponent? : List Char → Option Int
  | [] => some 0
  | mark :: rest => if mark = 'e' ∨ mark = 'E' then signed? 10 rest else none

/-- A decimal numeral without sign, rounded to the nearest number of 64 bits. -/
def magnitude? (negative : Bool) (cs : List Char) : Option Binary64 :=
  let whole := cs.takeWhile Char.isDigit
  let rest := cs.dropWhile Char.isDigit
  let (places, rest) := match rest with
    | '.' :: more => (more.takeWhile Char.isDigit, more.dropWhile Char.isDigit)
    | _ => ([], rest)
  if whole.isEmpty && places.isEmpty then none
  else
    (exponent? rest).map fun exponent =>
      Binary64.ofDecimal negative (ofDigits 10 (whole ++ places)) (exponent - places.length)

/-- A decimal numeral with an optional sign, if the nearest number of 64 bits is finite. -/
def decimal? (cs : List Char) : Option Binary64 :=
  let value := match cs with
    | '-' :: rest => magnitude? true rest
    | '+' :: rest => magnitude? false rest
    | _ => magnitude? false cs
  value.filter Binary64.isFinite

end Text
end Uplink
