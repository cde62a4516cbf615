import Uplink.Text.Utf8
import Uplink.Yaml.Scalar
import Uplink.Yaml.Token

/-!
# From characters to tokens

Indentation becomes tokens: a deeper column opens a sequence or a mapping, and a column to the left
closes it.  That a node is a key is known only at the colon after it; the place of every node that
may be a key is therefore remembered, and the token for the key is put there afterwards.  Such a
node must not be longer than one line, nor than 1024 characters.
-/

namespace Uplink
namespace Yaml

/-- The place of a node that may be a key. -/
structure Candidate where
  /-- How many tokens come before the node. -/
  place : Nat
  /-- Whether the node can be nothing else. -/
  required : Bool
  /-- Where the node starts. -/
  start : Cursor
  deriving Inhabited

/-- What was read so far. -/
structure Scanner where
  /-- What is read next. -/
  cursor : Cursor
  /-- How many brackets are open. -/
  flow : Nat := 0
  /-- The column of the innermost sequence or mapping in lines, and those of the outer ones. -/
  columns : List Nat := []
  /-- Whether a key may start here. -/
  keyAllowed : Bool := true
  /-- The latest candidate inside each open bracket, innermost first, and outside of all. -/
  candidates : List (Option Candidate) := [none]
  /-- The tokens, last first. -/
  tokens : List Token := []
  deriving Inhabited

namespace Scanner

/-- Whether a bracket is open. -/
def inFlow (s : Scanner) : Bool :=
  0 < s.flow

/-- Pass over some characters. -/
def skip (s : Scanner) (count : Nat) : Scanner :=
  { s with cursor := s.cursor.skip count }

/-- Add a token. -/
def push (s : Scanner) (token : Token) : Scanner :=
  { s with tokens := token :: s.tokens }

/-- Put a token after the first `place` tokens. -/
def insert (s : Scanner) (place : Nat) (token : Token) : Scanner :=
  let (later, earlier) := s.tokens.splitAt (s.tokens.length - place)
  { s with tokens := later ++ token :: earlier }

/-- Say whether a key may start next. -/
def allowKey (s : Scanner) (keyAllowed : Bool) : Scanner :=
  { s with keyAllowed }

/-! ## Candidates for keys -/

/-- Give a candidate up, which must not be required. -/
def giveUp? : Option Candidate → Option (Option Candidate)
  | none => some none
  | some candidate => if candidate.required then none else some none

/-- Give up the candidates that are in another line, or too long. -/
def expire (s : Scanner) : Option Scanner := do
  let candidates ← s.candidates.mapM fun candidate =>
    if candidate.any fun k =>
        k.start.line < s.cursor.line || k.start.index + 1024 < s.cursor.index then
      giveUp? candidate
    else some candidate
  return { s with candidates }

/-- The latest candidate inside the innermost bracket. -/
def candidate (s : Scanner) : Option Candidate :=
  s.candidates.head?.join

/-- The scanner with another latest candidate. -/
def setCandidate (s : Scanner) (candidate : Option Candidate) : Scanner :=
  { s with candidates := candidate :: s.candidates.tail }

/-- Give up the latest candidate. -/
def dropCandidate (s : Scanner) : Option Scanner :=
  (giveUp? s.candidate).map s.setCandidate

/-- Whether the innermost sequence or mapping in lines stands in the given column. -/
def isAtColumn (s : Scanner) (column : Nat) : Bool :=
  s.columns.head? = some column

/-- Remember the node that starts here, if it may be a key. -/
def saveCandidate (s : Scanner) : Option Scanner :=
  if s.keyAllowed then do
    let s ← s.dropCandidate
    return s.setCandidate (some {
      place := s.tokens.length
      required := !s.inFlow && s.isAtColumn s.cursor.column
      start := s.cursor })
  else some s

/-! ## Indentation -/

/-- Open a sequence or mapping in lines, if the column is deeper than those that are open. -/
def indent (s : Scanner) (column place : Nat) (token : Token) : Scanner :=
  if !s.inFlow && s.columns.head?.all (· < column) then
    { s with columns := column :: s.columns }.insert place token
  else s

/-- Close what is open in deeper columns than the given one. -/
def closeDeeper (column : Nat) : List Nat → List Token → List Nat × List Token
  | [], tokens => ([], tokens)
  | open_ :: outer, tokens =>
    if column < open_ then closeDeeper column outer (.blockEnd :: tokens)
    else (open_ :: outer, tokens)

/-- Close what is open in deeper columns than the present one. -/
def unindent (s : Scanner) : Scanner :=
  if s.inFlow then s
  else
    let (columns, tokens) := closeDeeper s.cursor.column s.columns s.tokens
    { s with columns, tokens }

/-- Close what is open in any column. -/
def unindentAll (s : Scanner) : Scanner :=
  if s.inFlow then s
  else { s with columns := [], tokens := s.columns.map (fun _ => .blockEnd) ++ s.tokens }

/-! ## White space -/

/-- Pass over spaces, comments and line breaks.  A tab may stand where no key may start. -/
def skipSpace : Nat → Scanner → Scanner
  | 0, s => s
  | fuel + 1, s =>
    let tabs := s.inFlow || !s.keyAllowed
    let c := (s.cursor.skipWhile fun char => char = ' ' || (tabs && char = '\t')).skipComment
    if c.atBreak then
      skipSpace fuel { s with cursor := c.takeBreak.2, keyAllowed := s.keyAllowed || !s.inFlow }
    else { s with cursor := c }

/-! ## Directives -/

/-- Pass over spaces and tabs. -/
def skipGap (c : Cursor) : Cursor :=
  c.skipWhile isGap

/-- Read a number of at most nine digits. -/
def scanNumber (c : Cursor) : Option (Nat × Cursor) :=
  let (digits, c) := c.takeWhile Char.isDigit
  if digits.length ≤ 9 then (Text.natural? 10 digits).map fun n => (n, c) else none

/-- Read a version. -/
def scanVersion (c : Cursor) : Option (Token × Cursor) := do
  let (major, c) ← scanNumber (skipGap c)
  if c.sees '.' then
    let (minor, c) ← scanNumber (c.skip 1)
    return (.version major minor, c)
  else none

/-- Read the handle of a tag: an exclamation mark, or a word between two of them.  If the second
one is missing, the word is read nevertheless; only a directive requires it. -/
def scanHandle (inDirective : Bool) (c : Cursor) : Option (List Char × Cursor) :=
  if c.sees '!' then
    let (word, c) := (c.skip 1).takeWhile isWord
    if c.sees '!' then some (('!' :: word) ++ ['!'], c.skip 1)
    else if inDirective && !word.isEmpty then none
    else some ('!' :: word, c)
  else none

/-- Whether a character may stand in the second part of a tag.  Brackets and commas may not
everywhere. -/
def isUriChar (everywhere : Bool) (char : Char) : Bool :=
  isWord char || ";/?:@&=+$.%!~*'()".toList.contains char ||
    (everywhere && ",[]".toList.contains char)

/-- The bytes of an address, with those written as a percent sign and two digits. -/
def uriBytes : List Char → Option (List UInt8)
  | '%' :: a :: b :: rest => do
    let n ← Text.natural? 16 [a, b]
    let bytes ← uriBytes rest
    return UInt8.ofNat n :: bytes
  | '%' :: _ => none
  | char :: rest => (uriBytes rest).map (Text.utf8 (String.singleton char) ++ ·)
  | [] => some []

/-- Read the second part of a tag, which follows `lead`. -/
def scanUri (everywhere : Bool) (lead : List Char) (c : Cursor) : Option (String × Cursor) := do
  let (chars, c) := c.takeWhile (isUriChar everywhere)
  if lead.isEmpty && chars.isEmpty then none
  else
    let bytes ← uriBytes chars
    let text ← Text.ofUtf8? bytes
    return (String.ofList lead ++ text, c)

/-- Read what a handle of tags stands for. -/
def scanHandleMeaning (c : Cursor) : Option (Token × Cursor) := do
  let (handle, c) ← scanHandle true (skipGap c)
  if !c.atGap then none
  else
    let (meaning, c) ← scanUri true [] (skipGap c)
    if c.atClose then return (.handle (String.ofList handle) meaning, c) else none

/-- Read a directive after its mark. -/
def scanDirective (c : Cursor) : Option (Token × Cursor) := do
  let (name, c) := c.takeWhile isWord
  let (token, c) ←
    if name = "YAML".toList && c.atClose then scanVersion c
    else if name = "TAG".toList && c.atClose then scanHandleMeaning c
    else none
  let c := (skipGap c).skipComment
  if c.atLineEnd then some (token, c.takeBreak.2) else none

/-! ## Names and tags -/

/-- Read the name of an anchor after its mark. -/
def scanName (c : Cursor) : Option (String × Cursor) :=
  let (name, c) := c.takeWhile isWord
  if name.isEmpty then none
  else if c.atClose || c.next?.any ("?:,]\x7d%@".toList ++ [Char.ofNat 0x60]).contains then
    some (String.ofList name, c)
  else none

/-- Read a tag whose second part is written in full. -/
def scanFullTag (c : Cursor) : Option (Tag × Cursor) := do
  let (suffix, c) ← scanUri true [] (c.skip 2)
  if c.sees '>' then return (⟨"", suffix⟩, c.skip 1) else none

/-- Read a tag with a handle. -/
def scanShortTag (c : Cursor) : Option (Tag × Cursor) := do
  let (handle, c) ← scanHandle false c
  if 1 < handle.length && handle.getLast? = some '!' then
    let (suffix, c) ← scanUri false [] c
    return (⟨String.ofList handle, suffix⟩, c)
  else
    let word := handle.drop 1
    let (more, c) := c.takeWhile (isUriChar false)
    let text ← (uriBytes more).bind Text.ofUtf8?
    let suffix := String.ofList word ++ text
    return (if suffix.isEmpty then ⟨"", "!"⟩ else ⟨"!", suffix⟩, c)

/-- Read a tag. -/
def scanTag (inFlow : Bool) (c : Cursor) : Option (Tag × Cursor) := do
  let (tag, c) ← if (c.skip 1).sees '<' then scanFullTag c else scanShortTag c
  if c.atClose || (inFlow && c.sees ',') then return (tag, c) else none

/-! ## Tokens -/

/-- Start on a token that no key can contain and before which everything is closed. -/
def atMargin (s : Scanner) : Option Scanner :=
  (s.unindentAll.dropCandidate).map fun s => s.allowKey false

/-- Read a directive. -/
def fetchDirective (s : Scanner) : Option Scanner := do
  let s ← s.atMargin
  let (token, cursor) ← scanDirective (s.cursor.skip 1)
  return { s with cursor }.push token

/-- Read the mark before or after a document. -/
def fetchDocumentMark (s : Scanner) (token : Token) : Option Scanner := do
  let s ← s.atMargin
  return (s.skip 3).push token

/-- Read an opening bracket. -/
def fetchOpen (s : Scanner) (token : Token) : Option Scanner := do
  let s ← s.saveCandidate
  return ({ s with
    flow := s.flow + 1, candidates := none :: s.candidates, keyAllowed := true }.skip 1).push token

/-- Read a closing bracket. -/
def fetchClose (s : Scanner) (token : Token) : Option Scanner := do
  let s ← s.dropCandidate
  let s := if s.inFlow then { s with flow := s.flow - 1, candidates := s.candidates.tail } else s
  return ((s.allowKey false).skip 1).push token

/-- Read a comma. -/
def fetchComma (s : Scanner) : Option Scanner := do
  let s ← s.dropCandidate
  return ((s.allowKey true).skip 1).push .comma

/-- Open a sequence or mapping in lines in the present column, if something may start here. -/
def indentHere (s : Scanner) (token : Token) : Option Scanner :=
  if s.inFlow then some s
  else if s.keyAllowed then some (s.indent s.cursor.column s.tokens.length token)
  else none

/-- Read the mark of an item. -/
def fetchItem (s : Scanner) : Option Scanner := do
  let s ← s.indentHere .blockSequence
  let s ← s.dropCandidate
  return ((s.allowKey true).skip 1).push .item

/-- Read the mark of a key. -/
def fetchKey (s : Scanner) : Option Scanner := do
  let s ← s.indentHere .blockMapping
  let s ← s.dropCandidate
  return ((s.allowKey !s.inFlow).skip 1).push .key

/-- Read the mark of a value.  What is before it is a key, if it may be one. -/
def fetchValue (s : Scanner) : Option Scanner := do
  let s ← match s.candidate with
    | some k =>
      some ((((s.setCandidate none).insert k.place .key).indent k.start.column k.place
        .blockMapping).allowKey false)
    | none => (s.indentHere .blockMapping).map fun s => s.allowKey !s.inFlow
  return (s.skip 1).push .value

/-- Read a token that may be a key or the start of one. -/
def fetchNode (s : Scanner) (scan : Cursor → Option (Token × Cursor)) : Option Scanner := do
  let s ← s.saveCandidate
  let (token, cursor) ← scan s.cursor
  return { s with cursor, keyAllowed := false }.push token

/-- Read a block scalar. -/
def fetchBlock (s : Scanner) (folded : Bool) : Option Scanner := do
  let s ← s.dropCandidate
  let (text, cursor) ← scanBlock folded s.columns.head? s.cursor
  return { s with cursor, keyAllowed := true }.push
    (.scalar (String.ofList text) (if folded then .folded else .literal))

/-- Read a plain scalar.  After it a key may start if it ends in another line than its last word. -/
def fetchPlain (s : Scanner) : Option Scanner := do
  let s ← s.saveCandidate
  let least := match s.columns.head? with
    | some column => column + 1
    | none => 0
  let (text, broken, cursor) ← scanPlain s.inFlow least s.cursor
  return { s with cursor, keyAllowed := broken }.push (.scalar (String.ofList text) .plain)

/-- Whether a plain scalar may start with a character that is followed by another one. -/
def startsPlain (inFlow : Bool) (char : Char) (next : Option Char) : Bool :=
  if char = '-' then !next.any isGap
  else if char = '?' || char = ':' then !inFlow && !closes next
  else !closes (some char) && !(",[]\x7b\x7d#&*!|>'\"%@".toList ++ [Char.ofNat 0x60]).contains char

/-- Read the token that starts with a character. -/
def fetch (s : Scanner) (char : Char) : Option Scanner :=
  let c := s.cursor
  let next := (c.rest.drop 1).head?
  if c.column = 0 && char = '%' then s.fetchDirective
  else if c.atMark ['-', '-', '-'] then s.fetchDocumentMark .documentStart
  else if c.atMark ['.', '.', '.'] then s.fetchDocumentMark .documentEnd
  else if char = '[' then s.fetchOpen .openSequence
  else if char = '\x7b' then s.fetchOpen .openMapping
  else if char = ']' then s.fetchClose .closeSequence
  else if char = '\x7d' then s.fetchClose .closeMapping
  else if char = ',' then s.fetchComma
  else if char = '-' && closes next then s.fetchItem
  else if char = '?' && (s.inFlow || closes next) then s.fetchKey
  else if char = ':' && (s.inFlow || closes next) then s.fetchValue
  else if char = '*' then
    s.fetchNode fun c => (scanName (c.skip 1)).map fun (name, c) => (.alias name, c)
  else if char = '&' then
    s.fetchNode fun c => (scanName (c.skip 1)).map fun (name, c) => (.anchor name, c)
  else if char = '!' then
    s.fetchNode fun c => (scanTag s.inFlow c).map fun (tag, c) => (.tag tag, c)
  else if char = '|' && !s.inFlow then s.fetchBlock false
  else if char = '>' && !s.inFlow then s.fetchBlock true
  else if char = '\'' || char = '"' then
    s.fetchNode fun c =>
      (scanQuoted char c).map fun (text, c) => (.scalar (String.ofList text) .quoted, c)
  else if startsPlain s.inFlow char next then s.fetchPlain
  else none

/-- Close everything at the end. -/
def finish (s : Scanner) : Option (List Token) :=
  (s.unindentAll.dropCandidate).map fun s => s.tokens.reverse

/-- Read all tokens. -/
def run : Nat → Scanner → Option (List Token)
  | 0, s => s.finish
  | fuel + 1, s =>
    match (s.skipSpace (fuel + 1)).expire with
    | none => none
    | some s =>
      match s.cursor.next? with
      | none => s.finish
      | some char => (s.unindent.fetch char).bind (run fuel)

end Scanner

/-- The tokens of a text.  A mark of the byte order at its start is passed over. -/
def tokens? (text : String) : Option (List Token) :=
  let chars := match text.toList with
    | '\ufeff' :: rest => rest
    | chars => chars
  if chars.all isAllowed then Scanner.run (chars.length + 1) { cursor := { rest := chars } }
  else none

end Yaml
end Uplink
