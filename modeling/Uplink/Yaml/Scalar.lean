import Uplink.Text.Numeral
import Uplink.Yaml.Cursor

/-!
# Scalars

A scalar may extend over several lines.  Spaces and line breaks inside it are folded: a single line
break becomes a space, and of several the first one is dropped.  Only blocks that are marked to be
literal keep them.  Each function reads a scalar from its first character on, and yields its text
and the place after it.
-/

namespace Uplink
namespace Yaml

/-- Spaces and line breaks between two words. -/
structure Gap where
  /-- The spaces, unless there is a line break. -/
  blanks : List Char := []
  /-- Whether there is a line break. -/
  broken : Bool := false
  /-- The first line break, if it counts. -/
  first : List Char := []
  /-- The other line breaks. -/
  more : List Char := []
  deriving Repr, Inhabited

namespace Gap

/-- A first line break, unless it was a common one, and the others; a space if there are none. -/
def fold (first more : List Char) : List Char :=
  if first.head? = some '\n' then (if more.isEmpty then [' '] else more) else first ++ more

/-- What remains of a gap between two words. -/
def text (gap : Gap) : List Char :=
  if gap.broken then fold gap.first gap.more else gap.blanks

/-- The gap with another line break. -/
def addBreak (gap : Gap) (chars : List Char) : Gap :=
  if gap.broken then { gap with more := gap.more ++ chars }
  else { blanks := [], broken := true, first := chars }

/-- Read a gap.  In a line that is indented less than `indent` columns there must not be a tab. -/
def scan (indent : Nat) : Nat → Gap → Cursor → Option (Gap × Cursor)
  | 0, gap, c => some (gap, c)
  | fuel + 1, gap, c =>
    if c.atGap then
      if gap.broken then
        if c.sees '\t' && c.column < indent then none else scan indent fuel gap (c.skip 1)
      else scan indent fuel { gap with blanks := gap.blanks ++ c.next?.toList } (c.skip 1)
    else if c.atBreak then
      let (chars, c) := c.takeBreak
      scan indent fuel (gap.addBreak chars) c
    else some (gap, c)

end Gap

/-! ## Plain scalars -/

/-- How many characters belong to the word of a plain scalar.  Inside brackets a colon must not be
followed by a bracket or a comma. -/
def plainLength? (inFlow : Bool) : List Char → Option Nat
  | [] => some 0
  | char :: rest =>
    if isGap char || isBreak char then some 0
    else if inFlow && char = ':' && rest.head?.any (",?[]\x7b\x7d".toList.contains ·) then none
    else if char = ':' && closes rest.head? then some 0
    else if inFlow && ",[]\x7b\x7d".toList.contains char then some 0
    else (plainLength? inFlow rest).map (· + 1)

/-- Read the words of a plain scalar: its text, last character first, and whether it ends in another
line than its last word. -/
def scanPlainWords (inFlow : Bool) (indent : Nat) :
    Nat → List Char → Gap → Cursor → Option (List Char × Bool × Cursor)
  | 0, text, gap, c => some (text, gap.broken, c)
  | fuel + 1, text, gap, c =>
    if c.atDocumentMark || c.sees '#' then some (text, gap.broken, c)
    else do
      let length ← plainLength? inFlow c.rest
      if length = 0 then some (text, gap.broken, c)
      else
        let text := (gap.text ++ c.rest.take length).reverse ++ text
        let c := c.skip length
        let (gap, c) ← Gap.scan indent fuel {} c
        if gap.blanks.isEmpty && !gap.broken then some (text, false, c)
        else if !inFlow && c.column < indent then some (text, gap.broken, c)
        else scanPlainWords inFlow indent fuel text gap c

/-- Read a plain scalar. -/
def scanPlain (inFlow : Bool) (indent : Nat) (c : Cursor) : Option (List Char × Bool × Cursor) :=
  (scanPlainWords inFlow indent c.rest.length [] {} c).map fun (text, broken, c) =>
    (text.reverse, broken, c)

/-! ## Quoted scalars -/

/-- The character that a letter stands for after a backslash. -/
def escape? : Char → Option Char
  | '0' => some '\x00'
  | 'a' => some '\x07'
  | 'b' => some '\x08'
  | 't' | '\t' => some '\t'
  | 'n' => some '\n'
  | 'v' => some '\x0b'
  | 'f' => some '\x0c'
  | 'r' => some '\r'
  | 'e' => some '\x1b'
  | ' ' => some ' '
  | '"' => some '"'
  | '/' => some '/'
  | '\\' => some '\\'
  | 'N' => some '\u0085'
  | '_' => some '\u00a0'
  | 'L' => some '\u2028'
  | 'P' => some '\u2029'
  | _ => none

/-- How many digits give the number of a character after a letter and a backslash. -/
def escapeDigits? : Char → Option Nat
  | 'x' => some 2
  | 'u' => some 4
  | 'U' => some 8
  | _ => none

/-- The character with the number that some digits denote. -/
def charOfDigits? (count : Nat) (digits : List Char) : Option Char :=
  if digits.length = count then
    (Text.natural? 16 digits).bind fun n =>
      if h : n.isValidChar then some (Char.ofNatAux n h) else none
  else none

/-- Read the rest of an escape, after the backslash. -/
def scanEscape (c : Cursor) : Option (Char × Cursor) :=
  c.next?.bind fun letter =>
    match escapeDigits? letter with
    | some count =>
      (charOfDigits? count ((c.rest.drop 1).take count)).map fun char => (char, c.skip (count + 1))
    | none => (escape? letter).map fun char => (char, c.skip 1)

/-- Read a word in quotes: the text with the word, last character first, and whether an escaped line
break ends it. -/
def scanQuotedWord (quote : Char) : Nat → List Char → Cursor → Option (List Char × Bool × Cursor)
  | 0, text, c => some (text, false, c)
  | fuel + 1, text, c =>
    match c.rest with
    | [] => some (text, false, c)
    | char :: rest =>
      if isGap char || isBreak char then some (text, false, c)
      else if char = '\'' && quote = '\'' && rest.head? = some '\'' then
        scanQuotedWord quote fuel ('\'' :: text) (c.skip 2)
      else if char = quote then some (text, false, c)
      else if char = '\\' && quote = '"' then
        if rest.head?.any isBreak then some (text, true, (c.skip 1).takeBreak.2)
        else do
          let (char, c) ← scanEscape (c.skip 1)
          scanQuotedWord quote fuel (char :: text) c
      else scanQuotedWord quote fuel (char :: text) (c.skip 1)

/-- Read the words in quotes up to the closing quote. -/
def scanQuotedWords (quote : Char) : Nat → List Char → Cursor → Option (List Char × Cursor)
  | 0, _, _ => none
  | fuel + 1, text, c =>
    if c.atDocumentMark || c.atEnd then none
    else do
      let (text, broken, c) ← scanQuotedWord quote fuel text c
      if c.sees quote then some (text.reverse, c.skip 1)
      else
        let (gap, c) ← Gap.scan 0 fuel { broken } c
        scanQuotedWords quote fuel (gap.text.reverse ++ text) c

/-- Read a quoted scalar. -/
def scanQuoted (quote : Char) (c : Cursor) : Option (List Char × Cursor) :=
  scanQuotedWords quote (c.rest.length + 1) [] (c.skip 1)

/-! ## Blocks -/

/-- What is done with the line breaks at the end of a block. -/
inductive Chomping where
  /-- All are dropped. -/
  | strip
  /-- One is kept. -/
  | clip
  /-- All are kept. -/
  | keep
  deriving DecidableEq, Repr

/-- Read the mark of how line breaks are kept, if there is one. -/
def scanChomping (c : Cursor) : Option Chomping × Cursor :=
  if c.sees '+' then (some .keep, c.skip 1)
  else if c.sees '-' then (some .strip, c.skip 1)
  else (none, c)

/-- Read the number of columns by which a block is indented, if it is given.  It must not be
zero. -/
def scanIncrement (c : Cursor) : Option (Option Nat × Cursor) :=
  match c.next? with
  | some char =>
    if char = '0' then none
    else if char.isDigit then some (some (Text.digitValue char), c.skip 1)
    else some (none, c)
  | none => some (none, c)

/-- Read the marks after the one that starts a block, up to the end of the line. -/
def scanBlockHeader (c : Cursor) : Option (Chomping × Option Nat × Cursor) := do
  let (chomping, c) := scanChomping c
  let (increment, c) ← scanIncrement c
  let (late, c) := if chomping.isNone && increment.isSome then scanChomping c else (chomping, c)
  let c := (c.skipWhile isGap).skipComment
  if c.atLineEnd then some (late.getD .clip, increment, c.takeBreak.2) else none

/-- Pass over empty lines: the line breaks, and the greatest column that was met.  Without a given
indentation all spaces are passed over. -/
def scanEmptyLines (indent : Option Nat) :
    Nat → List Char → Nat → Cursor → Option (List Char × Nat × Cursor)
  | 0, breaks, most, c => some (breaks, most, c)
  | fuel + 1, breaks, most, c =>
    let spaces := (c.rest.takeWhile (· = ' ')).length
    let c := c.skip (match indent with
      | some n => min spaces (n - c.column)
      | none => spaces)
    let most := max most c.column
    if c.sees '\t' && indent.all (c.column < ·) then none
    else if c.atBreak then
      let (chars, c) := c.takeBreak
      scanEmptyLines indent fuel (breaks ++ chars) most c
    else some (breaks, most, c)

/-- The text of a block so far. -/
structure Block where
  /-- The text, last character first. -/
  text : List Char := []
  /-- The line break after the last line. -/
  leading : List Char := []
  /-- The line breaks after that. -/
  trailing : List Char := []
  /-- Whether the last line starts with a space or a tab. -/
  spaced : Bool := false

namespace Block

/-- The block with another line.  In a folded block, a line break between two lines that do not
start with a space or a tab becomes a space, or nothing if empty lines follow it. -/
def addLine (folded : Bool) (block : Block) (line leading trailing : List Char) : Block :=
  let spaced := line.head?.any isGap
  let joint :=
    if folded && block.leading.head? = some '\n' && !block.spaced && !spaced then
      if block.trailing.isEmpty then [' '] else []
    else block.leading
  { text := (joint ++ block.trailing ++ line).reverse ++ block.text, leading, trailing, spaced }

/-- The text with as many line breaks at its end as are to be kept. -/
def finish (block : Block) : Chomping → List Char
  | .strip => block.text.reverse
  | .clip => block.text.reverse ++ block.leading
  | .keep => block.text.reverse ++ block.leading ++ block.trailing

end Block

/-- Read the lines of a block that are indented by the given number of columns. -/
def scanBlockLines (folded : Bool) (indent : Nat) : Nat → Block → Cursor → Option (Block × Cursor)
  | 0, block, c => some (block, c)
  | fuel + 1, block, c =>
    if c.column = indent && !c.atEnd then do
      let (line, c) := c.takeWhile fun char => !isBreak char
      let (leading, c) := c.takeBreak
      let (trailing, _, c) ← scanEmptyLines (some indent) (fuel + 1) [] 0 c
      scanBlockLines folded indent fuel (block.addLine folded line leading trailing) c
    else some (block, c)

/-- Read a block scalar inside of something that is indented by `outer` columns, or not at all. -/
def scanBlock (folded : Bool) (outer : Option Nat) (c : Cursor) : Option (List Char × Cursor) := do
  let (chomping, increment, c) ← scanBlockHeader (c.skip 1)
  let given := increment.map fun n => outer.getD 0 + n
  let (trailing, most, c) ← scanEmptyLines given (c.rest.length + 1) [] 0 c
  let least := match outer with
    | some n => n + 1
    | none => 1
  let indent := given.getD (max most (max least 1))
  let (block, c) ← scanBlockLines folded indent (c.rest.length + 1) { trailing } c
  return (block.finish chomping, c)

end Yaml
end Uplink
