/-!
# The contents of string literals

What stands between the quotation marks of a JSON string: plain characters and escapes.  An escape
with a number denotes a code unit of sixteen bits, and two of them together may denote one
character, so reading has two steps.  The first finds the elements and the closing mark; it decides
whether the text is well formed.  The second pairs the code units; it decides whether the literal
denotes a text.
-/

namespace Uplink
namespace Json

/-- One element of a string literal. -/
inductive Element where
  /-- A character that stands for itself, or a short escape. -/
  | plain (c : Char)
  /-- An escape with the number of a code unit. -/
  | unit (n : Nat)
  deriving DecidableEq, Repr

namespace Literal

/-- The value of a hexadecimal digit. -/
def hexValue? (c : Char) : Option Nat :=
  if c.isDigit then some (c.toNat - '0'.toNat)
  else if 'a' ≤ c ∧ c ≤ 'f' then some (c.toNat - 'a'.toNat + 10)
  else if 'A' ≤ c ∧ c ≤ 'F' then some (c.toNat - 'A'.toNat + 10)
  else none

/-- The code unit that four hexadecimal digits denote. -/
def codeUnit? (a b c d : Char) : Option Nat := do
  let a ← hexValue? a
  let b ← hexValue? b
  let c ← hexValue? c
  let d ← hexValue? d
  return ((a * 16 + b) * 16 + c) * 16 + d

/-- The character that a letter stands for after a backslash. -/
def shortEscape? (c : Char) : Option Char :=
  if c = '"' ∨ c = '\\' ∨ c = '/' then some c
  else if c = 'b' then some '\x08'
  else if c = 'f' then some '\x0c'
  else if c = 'n' then some '\n'
  else if c = 'r' then some '\r'
  else if c = 't' then some '\t'
  else none

/-- Read up to the closing mark: the elements, and what follows the mark.  The elements read before
are in `found`, last first. -/
def read (found : List Element) : List Char → Option (List Element × List Char)
  | [] => none
  | '"' :: rest => some (found.reverse, rest)
  | '\\' :: 'u' :: a :: b :: c :: d :: rest =>
    match codeUnit? a b c d with
    | some n => read (.unit n :: found) rest
    | none => none
  | '\\' :: c :: rest =>
    match shortEscape? c with
    | some c => read (.plain c :: found) rest
    | none => none
  | c :: rest => if c < ' ' then none else read (.plain c :: found) rest

/-- Reading a literal moves forward. -/
theorem read_lt {found elements : List Element} {cs rest : List Char}
    (h : read found cs = some (elements, rest)) : rest.length < cs.length := by
  fun_induction read found cs with
  | case1 => cases h
  | case2 found rest' =>
    simp only [Option.some.injEq, Prod.mk.injEq] at h
    simp [h.2]
  | case3 found a b c d tail n hn ih =>
    have := ih h
    simp only [List.length_cons]
    omega
  | case4 => cases h
  | case5 found c tail _ e he ih =>
    have := ih h
    simp only [List.length_cons]
    omega
  | case6 => cases h
  | case7 => cases h
  | case8 found c tail _ _ _ hc ih =>
    have := ih h
    simp only [List.length_cons]
    omega

/-- Whether a code unit is the first of a pair. -/
def isHigh (n : Nat) : Bool :=
  0xd800 ≤ n && n ≤ 0xdbff

/-- Whether a code unit is the second of a pair. -/
def isLow (n : Nat) : Bool :=
  0xdc00 ≤ n && n ≤ 0xdfff

/-- The character of a pair of code units. -/
def paired (high low : Nat) : Char :=
  Char.ofNat (0x10000 + (high - 0xd800) * 0x400 + (low - 0xdc00))

/-- The characters that the elements denote, after those in `found`, last first; nothing where a
code unit that needs a partner has none. -/
def denoted? (found : List Char) : List Element → Option (List Char)
  | [] => some found.reverse
  | .plain c :: rest => denoted? (c :: found) rest
  | .unit high :: .unit low :: rest =>
    if isHigh high then
      if isLow low then denoted? (paired high low :: found) rest else none
    else if isLow high then none
    else denoted? (Char.ofNat high :: found) (.unit low :: rest)
  | .unit n :: rest =>
    if isHigh n || isLow n then none else denoted? (Char.ofNat n :: found) rest

/-- The text that the elements denote. -/
def text? (elements : List Element) : Option String :=
  (denoted? [] elements).map String.ofList

end Literal
end Json
end Uplink
