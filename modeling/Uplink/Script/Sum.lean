import Uplink.Keyed
import Uplink.Script.Utility
import Uplink.Text.Blank

/-!
# Sums

Whole numbers of 64 bits with sign, put together with the operators of the language of scripts.
-/

namespace Uplink
namespace Script
namespace Sum

/-- The number of 64 bits that is congruent to a number. -/
def wrap (n : Int) : Int :=
  n.bmod UInt64.size

/-- The binary operators, with how tightly they bind. Longer ones come first. -/
def operators : List (String × Nat) :=
  [("||", 1), ("&&", 2), ("==", 6), ("!=", 6), ("<=", 7), (">=", 7), ("<<", 8), (">>", 8), ("|", 3),
    ("^", 4), ("&", 5), ("<", 7), (">", 7), ("+", 9), ("-", 9), ("*", 10), ("/", 10), ("%", 10)]

/-- A truth value as a number. -/
def ofBool (b : Bool) : Int :=
  if b then 1 else 0

/-- The bits of a number. -/
def bits (n : Int) : BitVec 64 :=
  BitVec.ofInt 64 n

/-- Put two numbers together. Nothing can be divided by zero. -/
def combine? (operator : String) (a b : Int) : Option Int :=
  match operator with
  | "||" => some (ofBool (a ≠ 0 || b ≠ 0))
  | "&&" => some (ofBool (a ≠ 0 && b ≠ 0))
  | "==" => some (ofBool (a = b))
  | "!=" => some (ofBool (a ≠ b))
  | "<=" => some (ofBool (a ≤ b))
  | ">=" => some (ofBool (b ≤ a))
  | "<" => some (ofBool (a < b))
  | ">" => some (ofBool (b < a))
  | "<<" => some (wrap (a * (1 <<< b.toNat : Nat)))
  | ">>" => some (a >>> b.toNat)
  | "|" => some (bits a ||| bits b).toInt
  | "^" => some (bits a ^^^ bits b).toInt
  | "&" => some (bits a &&& bits b).toInt
  | "+" => some (wrap (a + b))
  | "-" => some (wrap (a - b))
  | "*" => some (wrap (a * b))
  | "/" => if b = 0 then none else some (wrap (a.tdiv b))
  | "%" => if b = 0 then none else some (wrap (a.tmod b))
  | _ => none

/-- Pass over blanks. -/
def skip (cs : List Char) : List Char :=
  cs.dropWhile fun c => c = ' ' || c = '\t' || c = '\n'

/-- The number that stands first, and what follows. -/
def numeral (cs : List Char) : Option (Int × List Char) :=
  let word := cs.takeWhile Char.isAlphanum
  (numeral? word).map fun n => (wrap n, cs.drop word.length)

mutual

/-- The value of an operand. -/
def operand (bindings : Keyed Bytes) : Nat → List Char → Option (Int × List Char)
  | 0, _ => none
  | fuel + 1, cs =>
    match skip cs with
    | '(' :: rest => do
      let (n, rest) ← value bindings 0 fuel rest
      match skip rest with
      | ')' :: rest => return (n, rest)
      | _ => none
    | '-' :: rest => (operand bindings fuel rest).map fun (n, rest) => (wrap (-n), rest)
    | '+' :: rest => operand bindings fuel rest
    | '!' :: rest => (operand bindings fuel rest).map fun (n, rest) => (ofBool (n = 0), rest)
    | '~' :: rest => (operand bindings fuel rest).map fun (n, rest) => (-n - 1, rest)
    | c :: rest =>
      if c.isDigit then numeral (c :: rest)
      else if c.isAlpha || c = '_' then
        let name := (c :: rest).takeWhile fun c => c.isAlphanum || c = '_'
        let word := charsOf ((bindings.find? (String.ofList name)).getD [])
        (if word.isEmpty then some 0 else numeral? word).map fun n =>
          (wrap n, (c :: rest).drop name.length)
      else none
    | [] => none

/-- The value of a sum whose operators bind more tightly than `least`. -/
def value (bindings : Keyed Bytes) (least : Nat) : Nat → List Char → Option (Int × List Char)
  | 0, _ => none
  | fuel + 1, cs => do
    let (n, rest) ← operand bindings fuel cs
    more bindings least fuel n rest

/-- Go on with a value and what follows it. -/
def more (bindings : Keyed Bytes) (least : Nat) : Nat → Int → List Char → Option (Int × List Char)
  | 0, _, _ => none
  | fuel + 1, n, cs =>
    let cs := skip cs
    match operators.find? fun operator => operator.1.toList.isPrefixOf cs with
    | some (operator, level) =>
      if least < level then do
        let (m, rest) ← value bindings level fuel (cs.drop operator.length)
        let n ← combine? operator n m
        more bindings least fuel n rest
      else some (n, cs)
    | none => some (n, cs)

end

/-- The value of a whole sum; nothing at all counts as zero. -/
def eval (bindings : Keyed Bytes) (cs : List Char) : Option Int :=
  if (skip cs).isEmpty then some 0
  else
    match value bindings 0 (4 * cs.length + 4) cs with
    | some (n, rest) => if (skip rest).isEmpty then some n else none
    | none => none

/-- What is said about a sum that has no value. -/
def complaint (cs : List Char) : String :=
  let text := String.ofList cs
  let zero := ["/0", "%0", "/ 0", "% 0"].any fun part => Text.contains text part
  let cause := if zero then "division by zero" else "expecting primary"
  "arithmetic expression: " ++ cause ++ ": \"" ++ text ++ "\""

end Sum
end Script
end Uplink
