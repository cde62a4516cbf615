import Uplink.Json.Literal
import Uplink.Json.Numeral

/-!
# Tokens of JSON text

A text is cut into brackets, marks, words, numbers and strings; blanks between them are dropped.
-/

namespace Uplink
namespace Json

/-- A token of JSON text. -/
inductive Token where
  /-- The bracket before the items of an array. -/
  | openArray
  /-- The bracket after the items of an array. -/
  | closeArray
  /-- The bracket before the members of an object. -/
  | openObject
  /-- The bracket after the members of an object. -/
  | closeObject
  /-- The mark between items or members. -/
  | comma
  /-- The mark between a key and its value. -/
  | colon
  /-- The word null. -/
  | null
  /-- One of the words true and false. -/
  | bool (b : Bool)
  /-- A number, which may be too large to have a value. -/
  | number (n : Option Number)
  /-- A string, which may denote no text. -/
  | string (s : Option String)
  deriving DecidableEq, Repr

namespace Token

/-- Whether a character may stand between tokens. -/
def isSpace (c : Char) : Bool :=
  c = ' ' || c = '\n' || c = '\t' || c = '\r'

/-- The token that is a single character. -/
def mark? (c : Char) : Option Token :=
  if c = '[' then some openArray
  else if c = ']' then some closeArray
  else if c = '\x7b' then some openObject
  else if c = '\x7d' then some closeObject
  else if c = ',' then some comma
  else if c = ':' then some colon
  else none

/-- The first token of a text that starts with one, and what follows it. -/
def next? : List Char → Option (Token × List Char)
  | 'n' :: 'u' :: 'l' :: 'l' :: rest => some (null, rest)
  | 't' :: 'r' :: 'u' :: 'e' :: rest => some (bool true, rest)
  | 'f' :: 'a' :: 'l' :: 's' :: 'e' :: rest => some (bool false, rest)
  | '"' :: rest => (Literal.read [] rest).map fun found => (string (Literal.text? found.1), found.2)
  | c :: rest =>
    match mark? c with
    | some token => some (token, rest)
    | none => (Numeral.read? (c :: rest)).map fun found => (number found.1.number?, found.2)
  | [] => none

theorem next?_lt {cs rest : List Char} {token : Token} (h : next? cs = some (token, rest)) :
    rest.length < cs.length := by
  unfold next? at h
  split at h
  · simp only [Option.some.injEq, Prod.mk.injEq] at h
    rw [← h.2]
    simp only [List.length_cons]
    omega
  · simp only [Option.some.injEq, Prod.mk.injEq] at h
    rw [← h.2]
    simp only [List.length_cons]
    omega
  · simp only [Option.some.injEq, Prod.mk.injEq] at h
    rw [← h.2]
    simp only [List.length_cons]
    omega
  · obtain ⟨⟨elements, last⟩, hfound, heq⟩ := Option.map_eq_some_iff.1 h
    have hlt := Literal.read_lt hfound
    cases heq
    exact Nat.lt_succ_of_lt hlt
  · split at h
    · simp only [Option.some.injEq, Prod.mk.injEq] at h
      rw [← h.2, List.length_cons]
      omega
    · obtain ⟨⟨numeral, last⟩, hfound, heq⟩ := Option.map_eq_some_iff.1 h
      have hlt := Numeral.read?_lt hfound
      cases heq
      exact hlt
  · cases h

/-- The tokens of a text, after those in `found`, last first. -/
def scan (found : List Token) (cs : List Char) : Option (List Token) :=
  match cs with
  | [] => some found.reverse
  | c :: tail =>
    if isSpace c then scan found tail
    else
      match h : next? (c :: tail) with
      | none => none
      | some (token, rest) =>
        have : rest.length < tail.length + 1 := next?_lt h
        scan (token :: found) rest
  termination_by cs.length
  decreasing_by
    · exact Nat.lt_succ_self tail.length
    · exact this

/-- The tokens of a text. -/
def ofText? (text : String) : Option (List Token) :=
  scan [] text.toList

end Token
end Json
end Uplink
