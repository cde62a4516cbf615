/-!
# Blank characters

The white space of Unicode, and the operations on text that depend on it: trimming at both ends and
the first column of a line.  Beside them stands the search for a part of a text.
-/

namespace Uplink
namespace Text

/-- The white space characters of Unicode. -/
def isBlank (c : Char) : Bool :=
  let n := c.toNat
  (9 ≤ n && n ≤ 13) || n == 0x20 || n == 0x85 || n == 0xa0 || n == 0x1680 ||
    (0x2000 ≤ n && n ≤ 0x200a) || n == 0x2028 || n == 0x2029 || n == 0x202f || n == 0x205f ||
    n == 0x3000

/-- Drop the blank characters at the front. -/
def trimFront (cs : List Char) : List Char :=
  cs.dropWhile isBlank

/-- Drop the blank characters at both ends. -/
def trimChars (cs : List Char) : List Char :=
  (trimFront (trimFront cs).reverse).reverse

/-- The first maximal run of characters that are not blank, if there is one. -/
def firstColumn? (line : List Char) : Option (List Char) :=
  let column := (trimFront line).takeWhile fun c => !isBlank c
  if column.isEmpty then none else some column

/-- Whether some characters occur next to each other among others. -/
def occursIn (needle : List Char) : List Char → Bool
  | [] => needle.isEmpty
  | c :: rest => needle.isPrefixOf (c :: rest) || occursIn needle rest

/-- Whether a text contains another one. -/
def contains (text part : String) : Bool :=
  occursIn part.toList text.toList

end Text
end Uplink
