import Uplink.Binary64
import Uplink.Keyed

/-!
# JSON values

The values that JSON text denotes.  Whole numbers are kept apart from floating-point numbers,
because only the former are ever taken for a count, a port or an identifier.

Some text is well formed and yet denotes no value: a number too large for a floating-point number, a
string with half of a surrogate pair, an object with such a string as a key.  Its value is `void`.
A reader that ignores the value need not care; a reader that uses it fails.
-/

namespace Uplink

/-- A number of a JSON text. -/
inductive Json.Number where
  /-- A number written without point and exponent. -/
  | int (n : Int)
  /-- Any other number. -/
  | float (x : Binary64)
  deriving DecidableEq, Repr, Inhabited

/-- A JSON value. -/
inductive Json where
  /-- The value of the word null. -/
  | null
  /-- A truth value. -/
  | bool (b : Bool)
  /-- A number. -/
  | number (n : Json.Number)
  /-- A text. -/
  | string (s : String)
  /-- A sequence of values. -/
  | array (items : List Json)
  /-- Values under keys, in the order of the text; a key may occur more than once. -/
  | object (members : List (String × Json))
  /-- What well-formed text without a value stands for. -/
  | void
  deriving Inhabited

namespace Json

/-- A whole number as a value. -/
def int (n : Int) : Json :=
  number (.int n)

/-- A natural number as a value. -/
def nat (n : Nat) : Json :=
  int n

/-- The text of a string. -/
def asString? : Json → Option String
  | string s => some s
  | _ => none

/-- A truth value. -/
def asBool? : Json → Option Bool
  | bool b => some b
  | _ => none

/-- A whole number between two bounds. -/
def asInt? (low high : Int) : Json → Option Int
  | number (.int n) => if low ≤ n ∧ n ≤ high then some n else none
  | _ => none

/-- A natural number below a bound. -/
def asNat? (bound : Nat) : Json → Option Nat
  | number (.int n) => if 0 ≤ n ∧ n < bound then some n.toNat else none
  | _ => none

/-- A whole number of 8 bits without sign. -/
def asUInt8? (json : Json) : Option UInt8 :=
  (json.asNat? UInt8.size).map UInt8.ofNat

/-- A whole number of 16 bits without sign. -/
def asUInt16? (json : Json) : Option UInt16 :=
  (json.asNat? UInt16.size).map UInt16.ofNat

/-- A whole number of 64 bits without sign. -/
def asUInt64? (json : Json) : Option UInt64 :=
  (json.asNat? UInt64.size).map UInt64.ofNat

/-- A whole number of 32 bits with sign. -/
def asInt32? (json : Json) : Option Int32 :=
  (json.asInt? Int32.minValue.toInt Int32.maxValue.toInt).map Int32.ofInt

/-- The items of a sequence, each read by `read`. -/
def asArray? {α : Type} (read : Json → Option α) : Json → Option (List α)
  | array items => items.mapM read
  | _ => none

/-- The value, or nothing where it is null. -/
def asOption? {α : Type} (read : Json → Option α) : Json → Option (Option α)
  | null => some none
  | json => (read json).map some

/-- The levels of brackets that a document may have around and in a value that is kept. -/
def documentLevels : Nat := 127

/-- A value that is to be stored as it is: it has at most the given number of levels of brackets, no
part without a value, and each key once, in order. -/
def kept? : Nat → Json → Option Json
  | _, void => none
  | 0, array _ => none
  | 0, object _ => none
  | levels + 1, array items => (items.mapM (kept? levels)).map array
  | levels + 1, object members =>
    (members.mapM fun member => (kept? levels member.2).map fun value => (member.1, value)).map
      fun members => object (Keyed.ofList members)
  | _, json => some json

end Json
end Uplink
