import Uplink.Json
import Uplink.Text.Numeral

/-!
# Numbers in JSON text

A numeral without point and exponent is a whole number, as long as it fits 64 bits with or without
sign.  Every other numeral is a floating-point number.  Its digits are kept as far as they fit 64
bits; the number they form is then scaled once by the floating-point number nearest to the power of
ten.
-/

namespace Uplink
namespace Json

/-- The parts of a number as it is written. -/
structure Numeral where
  /-- Whether a minus sign comes first. -/
  negative : Bool
  /-- The digits before the point. -/
  whole : List Char
  /-- The digits after the point. -/
  places : Option (List Char)
  /-- Whether the exponent has a minus sign, and its digits. -/
  exponent : Option (Bool × List Char)
  deriving DecidableEq, Repr

namespace Numeral

/-- Read the digits at the front; there must be one. -/
def readDigits? (cs : List Char) : Option (List Char × List Char) :=
  let digits := cs.takeWhile Char.isDigit
  if digits.isEmpty then none else some (digits, cs.dropWhile Char.isDigit)

/-- Read the part before the point: a zero, or digits that start with another digit. -/
def readWhole? (cs : List Char) : Option (List Char × List Char) :=
  (readDigits? cs).filter fun found => found.1.head? ≠ some '0' || found.1.length = 1

/-- Read the point and the digits after it, if there is a point. -/
def readPlaces? : List Char → Option (Option (List Char) × List Char)
  | '.' :: rest => (readDigits? rest).map fun found => (some found.1, found.2)
  | cs => some (none, cs)

/-- Read the sign and the digits of an exponent. -/
def readPower? : List Char → Option (Option (Bool × List Char) × List Char)
  | '-' :: rest => (readDigits? rest).map fun found => (some (true, found.1), found.2)
  | '+' :: rest => (readDigits? rest).map fun found => (some (false, found.1), found.2)
  | cs => (readDigits? cs).map fun found => (some (false, found.1), found.2)

/-- Read the exponent, if there is one. -/
def readExponent? : List Char → Option (Option (Bool × List Char) × List Char)
  | 'e' :: rest => readPower? rest
  | 'E' :: rest => readPower? rest
  | cs => some (none, cs)

/-- Read a number without its sign. -/
def readMagnitude? (negative : Bool) (cs : List Char) : Option (Numeral × List Char) := do
  let (whole, rest) ← readWhole? cs
  let (places, rest) ← readPlaces? rest
  let (exponent, rest) ← readExponent? rest
  return (⟨negative, whole, places, exponent⟩, rest)

/-- Read a number, which the longest text that can be one. -/
def read? : List Char → Option (Numeral × List Char)
  | '-' :: rest => readMagnitude? true rest
  | cs => readMagnitude? false cs

/-! ## Reading moves forward -/

theorem readDigits?_lt {cs digits rest : List Char} (h : readDigits? cs = some (digits, rest)) :
    rest.length < cs.length := by
  simp only [readDigits?] at h
  split at h
  · cases h
  · rename_i hne
    simp only [Option.some.injEq, Prod.mk.injEq] at h
    have hlength := congrArg List.length
      (List.takeWhile_append_dropWhile (p := Char.isDigit) (l := cs))
    have hpos : 0 < (cs.takeWhile Char.isDigit).length := by
      cases hd : cs.takeWhile Char.isDigit with
      | nil => simp [hd] at hne
      | cons => simp
    rw [List.length_append] at hlength
    rw [← h.2]
    omega

theorem readWhole?_lt {cs digits rest : List Char} (h : readWhole? cs = some (digits, rest)) :
    rest.length < cs.length :=
  readDigits?_lt (Option.filter_eq_some_iff.1 h).1

theorem readPlaces?_le {cs rest : List Char} {places : Option (List Char)}
    (h : readPlaces? cs = some (places, rest)) : rest.length ≤ cs.length := by
  unfold readPlaces? at h
  split at h
  · obtain ⟨⟨digits, last⟩, hfound, heq⟩ := Option.map_eq_some_iff.1 h
    have hlt := readDigits?_lt hfound
    cases heq
    exact Nat.le_succ_of_le (Nat.le_of_lt hlt)
  · simp only [Option.some.injEq, Prod.mk.injEq] at h
    exact Nat.le_of_eq (congrArg List.length h.2.symm)

theorem readPower?_lt {cs rest : List Char} {exponent : Option (Bool × List Char)}
    (h : readPower? cs = some (exponent, rest)) : rest.length < cs.length := by
  unfold readPower? at h
  split at h <;>
  · obtain ⟨⟨digits, last⟩, hfound, heq⟩ := Option.map_eq_some_iff.1 h
    have hlt := readDigits?_lt hfound
    cases heq
    first | exact hlt | exact Nat.lt_succ_of_lt hlt

theorem readExponent?_le {cs rest : List Char} {exponent : Option (Bool × List Char)}
    (h : readExponent? cs = some (exponent, rest)) : rest.length ≤ cs.length := by
  unfold readExponent? at h
  split at h
  · have hlt := readPower?_lt h
    rw [List.length_cons]
    omega
  · have hlt := readPower?_lt h
    rw [List.length_cons]
    omega
  · simp only [Option.some.injEq, Prod.mk.injEq] at h
    exact Nat.le_of_eq (congrArg List.length h.2.symm)

theorem readMagnitude?_lt {negative : Bool} {cs rest : List Char} {numeral : Numeral}
    (h : readMagnitude? negative cs = some (numeral, rest)) : rest.length < cs.length := by
  simp only [readMagnitude?, bind, Option.bind_eq_some_iff] at h
  obtain ⟨⟨whole, r₁⟩, h₁, ⟨places, r₂⟩, h₂, ⟨exponent, r₃⟩, h₃, h₄⟩ := h
  simp only [pure, Option.some.injEq, Prod.mk.injEq] at h₄
  have hone := readWhole?_lt h₁
  have htwo : r₂.length ≤ r₁.length := readPlaces?_le h₂
  have hthree : r₃.length ≤ r₂.length := readExponent?_le h₃
  have hlast : r₃.length = rest.length := congrArg List.length h₄.2
  omega

/-- Reading a number moves forward. -/
theorem read?_lt {cs rest : List Char} {numeral : Numeral} (h : read? cs = some (numeral, rest)) :
    rest.length < cs.length := by
  unfold read? at h
  split at h
  · have hlt := readMagnitude?_lt h
    rw [List.length_cons]
    omega
  · exact readMagnitude?_lt h

/-! ## Value -/

/-- The digits that fit 64 bits, as a number, and how many digits after them do not. -/
def significand (digits : List Char) : Nat × Nat :=
  digits.foldl
    (fun now c =>
      let next := now.1 * 10 + Text.digitValue c
      if now.2 = 0 ∧ next < UInt64.size then (next, 0) else (now.1, now.2 + 1))
    (0, 0)

/-- Digits after the point, appended to a number as long as the result fits 64 bits; `taken` counts
those appended. -/
def appendPlaces (n taken : Nat) : List Char → Nat × Nat
  | [] => (n, taken)
  | c :: rest =>
    let next := n * 10 + Text.digitValue c
    if next < UInt64.size then appendPlaces next (taken + 1) rest else (n, taken)

/-- Divide by a power of ten, at most the 308th at a time. -/
def scaleDown (x : Binary64) (power : Nat) : Binary64 :=
  if power ≤ 308 then x.div (Binary64.ofDecimal false 1 power)
  else if x.pattern = 0 then x
  else scaleDown (x.div (Binary64.ofDecimal false 1 308)) (power - 308)
  termination_by power

/-- Scale by a power of ten; nothing if the result is too large. -/
def scale? (x : Binary64) (power : Int) : Option Binary64 :=
  if x.pattern = 0 then some x
  else if power < 0 then some (scaleDown x (-power).toNat)
  else if 308 < power then none
  else some (x.mul (Binary64.ofDecimal false 1 power)) |>.filter Binary64.isFinite

/-- The exponent that is written. -/
def power (numeral : Numeral) : Int :=
  match numeral.exponent with
  | none => 0
  | some (true, digits) => -(Text.ofDigits 10 digits : Int)
  | some (false, digits) => Text.ofDigits 10 digits

/-- The floating-point number that a numeral denotes, unless it is too large. -/
def float? (numeral : Numeral) : Option Binary64 :=
  let (n, dropped) := significand numeral.whole
  let (n, taken) := appendPlaces n 0 (numeral.places.getD [])
  let size := scale? (Binary64.ofRatio false n 1) (dropped - taken + numeral.power)
  if numeral.negative then size.map Binary64.neg else size

/-- The whole number that a numeral denotes, if it is written as one and fits 64 bits.  The zero
with a minus sign is none: it is a floating-point number. -/
def int? (numeral : Numeral) : Option Int :=
  let n := Text.ofDigits 10 numeral.whole
  if numeral.places.isSome || numeral.exponent.isSome then none
  else if numeral.negative then if 0 < n ∧ 2 * n ≤ UInt64.size then some (-(n : Int)) else none
  else if n < UInt64.size then some n else none

/-- The number that a numeral denotes, unless it is too large. -/
def number? (numeral : Numeral) : Option Number :=
  match numeral.int? with
  | some n => some (.int n)
  | none => numeral.float?.map .float

end Numeral
end Json
end Uplink
