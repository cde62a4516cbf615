/-!
# Places in a text

A cursor stands before the characters that are not read yet, and knows its line and column.
Structure depends on columns, so that every character counts as one column, and a line break starts
a new line.
-/

namespace Uplink
namespace Yaml

/-- Whether a character ends a line. -/
def isBreak (c : Char) : Bool :=
  ['\n', '\r', '\u0085', '\u2028', '\u2029'].contains c

/-- Whether a character is a space or a tab. -/
def isGap (c : Char) : Bool :=
  c = ' ' || c = '\t'

/-- Whether a word ends before what follows: before a space, a tab, a line break or the end. -/
def closes : Option Char → Bool
  | none => true
  | some c => isGap c || isBreak c

/-- Whether a character may stand in the name of an anchor or a tag. -/
def isWord (c : Char) : Bool :=
  c.isAlphanum || c = '_' || c = '-'

/-- Whether a character may stand in a text at all. -/
def isAllowed (c : Char) : Bool :=
  let n := c.toNat
  n = 0x09 || n = 0x0a || n = 0x0d || (0x20 ≤ n && n ≤ 0x7e) || n = 0x85 ||
    (0xa0 ≤ n && n ≤ 0xd7ff) || (0xe000 ≤ n && n ≤ 0xfffd && n ≠ 0xfeff) ||
    (0x10000 ≤ n && n ≤ 0x10ffff)

/-- A place in a text. -/
structure Cursor where
  /-- The characters that follow. -/
  rest : List Char
  /-- How many characters were read. -/
  index : Nat := 0
  /-- How many lines were read. -/
  line : Nat := 0
  /-- How many characters of the line were read. -/
  column : Nat := 0
  deriving Repr, Inhabited

namespace Cursor

/-- The next character. -/
def next? (c : Cursor) : Option Char :=
  c.rest.head?

/-- Whether nothing follows. -/
def atEnd (c : Cursor) : Bool :=
  c.rest.isEmpty

/-- Whether the next character is the given one. -/
def sees (c : Cursor) (char : Char) : Bool :=
  c.next? = some char

/-- Whether a space or a tab follows. -/
def atGap (c : Cursor) : Bool :=
  c.next?.any isGap

/-- Whether a line break follows. -/
def atBreak (c : Cursor) : Bool :=
  c.next?.any isBreak

/-- Whether a line break or the end follows. -/
def atLineEnd (c : Cursor) : Bool :=
  c.atEnd || c.atBreak

/-- Whether a word ends here. -/
def atClose (c : Cursor) : Bool :=
  closes c.next?

/-- Pass over some characters, none of them a line break. -/
def skip (c : Cursor) (count : Nat) : Cursor :=
  { c with rest := c.rest.drop count, index := c.index + count, column := c.column + count }

/-- Read characters as long as they have a property that no line break has. -/
def takeWhile (p : Char → Bool) (c : Cursor) : List Char × Cursor :=
  let chars := c.rest.takeWhile p
  (chars, c.skip chars.length)

/-- Pass over characters as long as they have a property that no line break has. -/
def skipWhile (p : Char → Bool) (c : Cursor) : Cursor :=
  (c.takeWhile p).2

/-- Pass over a line break of the given length. -/
def toNextLine (c : Cursor) (length : Nat) : Cursor :=
  { rest := c.rest.drop length, index := c.index + length, line := c.line + 1, column := 0 }

/-- Read a line break, if there is one.  Most line breaks are read as a line feed. -/
def takeBreak (c : Cursor) : List Char × Cursor :=
  match c.rest with
  | '\r' :: '\n' :: _ => (['\n'], c.toNextLine 2)
  | char :: _ =>
    if char = '\u2028' || char = '\u2029' then ([char], c.toNextLine 1)
    else if isBreak char then (['\n'], c.toNextLine 1)
    else ([], c)
  | [] => ([], c)

/-- Whether the given mark of three characters stands at the start of the line, as a word. -/
def atMark (c : Cursor) (mark : List Char) : Bool :=
  c.column = 0 && mark.isPrefixOf c.rest && closes (c.rest.drop 3).head?

/-- Whether a document ends or another one starts here. -/
def atDocumentMark (c : Cursor) : Bool :=
  c.atMark ['-', '-', '-'] || c.atMark ['.', '.', '.']

/-- Pass over a comment. -/
def skipComment (c : Cursor) : Cursor :=
  if c.sees '#' then c.skipWhile fun char => !isBreak char else c

end Cursor
end Yaml
end Uplink
