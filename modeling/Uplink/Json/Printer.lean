import Uplink.Json
import Uplink.Text.Quoted

/-!
# JSON text

Values are written without blanks.  In a string only what has to be escaped is escaped.
-/

namespace Uplink
namespace Json

/-- One character inside a string. -/
def escape (c : Char) : List Char :=
  if c = '"' then ['\\', '"']
  else if c = '\\' then ['\\', '\\']
  else if c = '\x08' then ['\\', 'b']
  else if c = '\x0c' then ['\\', 'f']
  else if c = '\n' then ['\\', 'n']
  else if c = '\r' then ['\\', 'r']
  else if c = '\t' then ['\\', 't']
  else if c < ' ' then
    ['\\', 'u', '0', '0', Nat.digitChar (c.toNat / 16), Nat.digitChar (c.toNat % 16)]
  else [c]

/-- Write a string after some text. -/
def writeString (out s : String) : String :=
  let body := s.toList.foldl (fun out c => (escape c).foldl String.push out) (out.push '"')
  body.push '"'

/-- A decimal number with its point among the digits or near them; farther away it is replaced by an
exponent. -/
def layOut (digits : List Char) (exponent : Int) : List Char :=
  let point := digits.length + exponent
  if 0 ≤ exponent ∧ point ≤ 16 then
    digits ++ List.replicate exponent.toNat '0' ++ ['.', '0']
  else if 0 < point ∧ point ≤ 16 then
    digits.take point.toNat ++ '.' :: digits.drop point.toNat
  else if -5 < point ∧ point ≤ 0 then
    '0' :: '.' :: (List.replicate (-point).toNat '0' ++ digits)
  else
    let places := if digits.length ≤ 1 then [] else '.' :: digits.drop 1
    digits.take 1 ++ places ++ 'e' :: (toString (point - 1)).toList

/-- The shortest text that is read as a floating-point number, or null where it has no value. -/
def floatText (x : Binary64) : String :=
  if x.isFinite then
    let (units, exponent) := x.shortest
    let digits := Nat.toDigits 10 units
    let zeros := (digits.reverse.takeWhile (· = '0')).length
    let body :=
      if units = 0 then ['0', '.', '0']
      else layOut (digits.take (digits.length - zeros)) (exponent + zeros)
    String.ofList (if x.isNegative then '-' :: body else body)
  else "null"

/-- The text of a number. -/
def Number.text : Number → String
  | int n => toString n
  | float x => floatText x

mutual

/-- Write a value after some text. -/
def write (out : String) : Json → String
  | null => out ++ "null"
  | bool true => out ++ "true"
  | bool false => out ++ "false"
  | number n => out ++ n.text
  | string s => writeString out s
  | array [] => out ++ "[]"
  | array (item :: items) => (writeItems (write (out.push '[') item) items).push ']'
  | object [] => out ++ "\x7b\x7d"
  | object (member :: members) =>
    (writeMembers (writeMember (out.push '\x7b') member) members).push '\x7d'
  | void => out ++ "null"

/-- Write the items of an array but the first. -/
def writeItems (out : String) : List Json → String
  | [] => out
  | item :: items => writeItems (write (out.push ',') item) items

/-- Write a key and its value. -/
def writeMember (out : String) : String × Json → String
  | (key, value) => write ((writeString out key).push ':') value

/-- Write the members of an object but the first. -/
def writeMembers (out : String) : List (String × Json) → String
  | [] => out
  | member :: members => writeMembers (writeMember (out.push ',') member) members

end

/-- The text of a value. -/
def render (json : Json) : String :=
  write "" json

end Json
end Uplink
