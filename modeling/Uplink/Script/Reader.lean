import Uplink.Script.Syntax

/-!
# Except String (scripts × List Char)

Every function reads a part of a script from a list of characters, and yields it with the characters
after it, or a message about what is wrong.  Every call is paid for with a unit of fuel; the length
of a script is fuel enough for each of its levels.
-/

namespace Uplink
namespace Script

/-- The mark around the source of a command in the older way of writing. -/
def backquote : Char := Char.ofNat 0x60

/-- Whether a character ends a word. -/
def isDelimiter (c : Char) : Bool :=
  [' ', '\t', '\n', ';', '&', '|', '<', '>', '(', ')'].contains c

/-- Whether a character may stand in the name of a parameter. -/
def isNameChar (c : Char) : Bool :=
  c.isAlphanum || c = '_'

/-- Whether a text is the name of a parameter. -/
def isName (cs : List Char) : Bool :=
  cs.all isNameChar && cs.head?.any fun c => !c.isDigit

/-- The bytes of a character. -/
def charBytes (c : Char) : Bytes :=
  Text.utf8 (String.singleton c)

/-- Pass over blanks, comments and line breaks that are escaped. -/
def skipBlanks : List Char → List Char
  | '\\' :: '\n' :: rest => skipBlanks rest
  | c :: rest =>
    if c = ' ' || c = '\t' then skipBlanks rest
    else if c = '#' then (c :: rest).dropWhile (· != '\n')
    else c :: rest
  | [] => []

/-- The message about an unexpected end. -/
def endUnexpected (expected : String) : String :=
  "Syntax error: end of file unexpected" ++
    if expected.isEmpty then "" else " (expecting \"" ++ expected ++ "\")"

/-- The message about an unexpected word. -/
def wordUnexpected (word expected : String) : String :=
  "Syntax error: " ++ (if word.length = 1 || word = "&&" || word = "||" || word = ";;" ||
      ["then", "fi", "do", "done", "else", "elif", "\x7d"].contains word
    then "\"" ++ word ++ "\"" else "word") ++ " unexpected" ++
    if expected.isEmpty then "" else " (expecting \"" ++ expected ++ "\")"

/-- The message about a missing quote. -/
def quoteMissing : String := "Syntax error: Unterminated quoted string"

/-- The message about a sum that is not closed. -/
def sumUnclosed : String := "Syntax error: Missing '))'"

/-- The message about a parameter in braces that are not closed. -/
def parameterUnclosed : String := "Syntax error: Missing '\x7d'"

/-! ## Words -/

/-- Read up to the bracket that closes `depth` brackets, passing over quotes. -/
def untilClosed : Nat → Nat → List Char → List Char → Except String (List Char × List Char)
  | 0, _, _, _ => .error (endUnexpected ")")
  | fuel + 1, depth, found, cs =>
    match cs with
    | [] => .error (endUnexpected ")")
    | '\\' :: c :: rest => untilClosed fuel depth (c :: '\\' :: found) rest
    | '\'' :: rest =>
      let inner := rest.takeWhile (· != '\'')
      match rest.drop inner.length with
      | [] => .error quoteMissing
      | quote :: rest => untilClosed fuel depth (quote :: inner.reverse ++ '\'' :: found) rest
    | '"' :: rest =>
      let inner := rest.takeWhile (· != '"')
      match rest.drop inner.length with
      | [] => .error quoteMissing
      | quote :: rest => untilClosed fuel depth (quote :: inner.reverse ++ '"' :: found) rest
    | '(' :: rest => untilClosed fuel (depth + 1) ('(' :: found) rest
    | ')' :: rest =>
      if depth = 0 then .ok (found.reverse, rest)
      else untilClosed fuel (depth - 1) (')' :: found) rest
    | c :: rest => untilClosed fuel depth (c :: found) rest

/-- Read up to the next mark of the older way of writing commands. -/
def untilBackquote : List Char → List Char → Except String (List Char × List Char)
  | found, '\\' :: c :: rest =>
    if c = backquote || c = '\\' || c = '$' then untilBackquote (c :: found) rest
    else untilBackquote (c :: '\\' :: found) rest
  | found, c :: rest =>
    if c = backquote then .ok (found.reverse, rest) else untilBackquote (c :: found) rest
  | _, [] => .error "Syntax error: EOF in backquote substitution"

/-- Whether a character is the name of a special parameter. -/
def isSpecial (c : Char) : Bool :=
  c.isDigit || ['$', '?', '#', '!', '@', '*', '-'].contains c

mutual

/-- Read what follows a dollar sign. -/
def readDollar (quoted : Bool) : Nat → List Char → Except String (Piece × List Char)
  | 0, _ => .error (endUnexpected "")
  | fuel + 1, cs =>
    match cs with
    | '(' :: '(' :: rest => do
      let (source, rest) ← (untilClosed (rest.length + 1) 0 [] rest).mapError fun _ => sumUnclosed
      match rest with
      | ')' :: rest =>
        let (parts, _) ← readQuoted none fuel [] source
        return (.sum parts, rest)
      | _ => throw sumUnclosed
    | '(' :: rest => do
      let (source, rest) ← untilClosed (rest.length + 1) 0 [] rest
      return (.output source quoted, rest)
    | '\x7b' :: '#' :: rest =>
      let name := rest.takeWhile isNameChar
      match rest.drop name.length with
      | '\x7d' :: rest => .ok (.parameter (String.ofList name) quoted .length [], rest)
      | [] => .error parameterUnclosed
      | _ => .error "Bad substitution"
    | '\x7b' :: rest =>
      let name := if rest.head?.any isNameChar then rest.takeWhile isNameChar else rest.take 1
      let more := rest.drop name.length
      let withOther := fun (otherwise : Otherwise) (rest : List Char) => do
        let (other, rest) ← readQuoted (some '\x7d') fuel [] rest
        return (Piece.parameter (String.ofList name) quoted otherwise other, rest)
      match more with
      | '\x7d' :: rest => .ok (.parameter (String.ofList name) quoted .nothing [], rest)
      | ':' :: '-' :: rest => withOther (.unset true) rest
      | '-' :: rest => withOther (.unset false) rest
      | ':' :: '+' :: rest => withOther (.set true) rest
      | '+' :: rest => withOther (.set false) rest
      | [] => .error parameterUnclosed
      | _ => .error "Bad substitution"
    | c :: rest =>
      if isNameChar c && !c.isDigit then
        let name := (c :: rest).takeWhile isNameChar
        .ok (.parameter (String.ofList name) quoted .nothing [], (c :: rest).drop name.length)
      else if isSpecial c then .ok (.parameter (String.singleton c) quoted .nothing [], rest)
      else .ok (.text [0x24], c :: rest)
    | [] => .ok (.text [0x24], [])

/-- Read text with expansions up to a closing mark, or else to the end. -/
def readQuoted (close : Option Char) :
    Nat → List Piece → List Char → Except String (List Piece × List Char)
  | 0, _, _ => .error quoteMissing
  | fuel + 1, found, cs =>
    match cs with
    | [] => if close.isNone then .ok (found.reverse, []) else .error quoteMissing
    | '\\' :: '\n' :: rest => readQuoted close fuel found rest
    | '\\' :: c :: rest =>
      if ['$', '"', '\\', backquote].contains c || (close = some '\x7d' && c = '\x7d') then
        readQuoted close fuel (.text (charBytes c) :: found) rest
      else readQuoted close fuel (.text (0x5c :: charBytes c) :: found) rest
    | '$' :: rest => do
      let (piece, rest) ← readDollar true fuel rest
      readQuoted close fuel (piece :: found) rest
    | c :: rest =>
      if close = some c then .ok (found.reverse, rest)
      else if c = backquote then do
        let (source, rest) ← untilBackquote [] rest
        readQuoted close fuel (.output source true :: found) rest
      else readQuoted close fuel (.text (charBytes c) :: found) rest

end

/-- Read a word, which ends before a delimiter. -/
def readWord : Nat → List Piece → List Char → Except String (Word × List Char)
  | 0, _, _ => .error (endUnexpected "")
  | fuel + 1, found, cs =>
    match cs with
    | '\\' :: '\n' :: rest => readWord fuel found rest
    | '\\' :: c :: rest => readWord fuel (.text (charBytes c) :: found) rest
    | '\'' :: rest =>
      let inner := rest.takeWhile (· != '\'')
      match rest.drop inner.length with
      | [] => .error quoteMissing
      | _ :: rest => readWord fuel (.text (Text.utf8 (String.ofList inner)) :: found) rest
    | '"' :: rest => do
      let (inner, rest) ← readQuoted (some '"') fuel [] rest
      readWord fuel (inner.reverse ++ .text [] :: found) rest
    | '$' :: rest => do
      let (piece, rest) ← readDollar false fuel rest
      readWord fuel (piece :: found) rest
    | c :: rest =>
      if isDelimiter c then .ok (found.reverse, c :: rest)
      else if c = backquote then do
        let (source, rest) ← untilBackquote [] rest
        readWord fuel (.output source false :: found) rest
      else readWord fuel (.text (charBytes c) :: found) rest
    | [] => .ok (found.reverse, [])

/-! ## Redirections -/

/-- Read a redirection after its descriptor, if there is one. -/
def readRedirect? (descriptor : Option Nat) (cs : List Char) :
    Except String (Option (Redirect × List Char)) :=
  let path := fun (rest : List Char) (fallback : Nat) (target : Word → Target) => do
    let rest := skipBlanks rest
    let (word, rest) ← readWord (rest.length + 1) [] rest
    if word.isEmpty then throw (endUnexpected "")
    else return some (⟨descriptor.getD fallback, target word⟩, rest)
  let copy := fun (rest : List Char) (fallback : Nat) =>
    match rest with
    | '-' :: rest => .ok (some (⟨descriptor.getD fallback, .closed⟩, rest))
    | c :: rest =>
      if c.isDigit then .ok (some (⟨descriptor.getD fallback, .same (c.toNat - '0'.toNat)⟩, rest))
      else .error "Syntax error: Bad fd number"
    | [] => .error "Syntax error: Bad fd number"
  match cs with
  | '>' :: '&' :: rest => copy rest 1
  | '<' :: '&' :: rest => copy rest 0
  | '>' :: '>' :: rest => path rest 1 (.file · true)
  | '>' :: '|' :: rest => path rest 1 (.file · false)
  | '>' :: rest => path rest 1 (.file · false)
  | '<' :: rest => path rest 0 .source
  | _ => .ok none

/-- Read a redirection, if there is one. -/
def redirect? (cs : List Char) : Except String (Option (Redirect × List Char)) :=
  match cs with
  | digit :: c :: rest =>
    if digit.isDigit && (c = '<' || c = '>') then
      readRedirect? (some (digit.toNat - '0'.toNat)) (c :: rest)
    else readRedirect? none cs
  | _ => readRedirect? none cs

/-- Read redirections. -/
def readRedirects : Nat → List Redirect → List Char → Except String (List Redirect × List Char)
  | 0, found, cs => .ok (found.reverse, cs)
  | fuel + 1, found, cs => do
    let cs := skipBlanks cs
    match ← redirect? cs with
    | some (redirect, rest) => readRedirects fuel (redirect :: found) rest
    | none => return (found.reverse, cs)

/-! ## Commands -/

/-- The reserved word that stands next, if any. -/
def reserved (cs : List Char) : String :=
  let word := cs.takeWhile fun c => !isDelimiter c
  String.ofList word

/-- The word or the mark that stands next. -/
def nextWord (cs : List Char) : String :=
  if (reserved cs).isEmpty then String.ofList (cs.take 1) else reserved cs

/-- Pass over a reserved word. -/
def expectWord (word : String) (cs : List Char) : Except String (List Char) :=
  let cs := skipBlanks cs
  if reserved cs = word then .ok (cs.drop word.length)
  else if cs.isEmpty then .error (endUnexpected word)
  else .error (wordUnexpected (nextWord cs) word)

/-- The words that end a list of commands. -/
def closers : List String :=
  ["then", "else", "elif", "fi", "do", "done", "\x7d"]

/-- Read the assignments, words and redirections of a call. -/
def readCall : Nat → List (String × Word) → List Word → List Redirect → List Char →
    Except String (Command × List Char)
  | 0, _, _, _, _ => .error (endUnexpected "")
  | fuel + 1, assignments, words, redirects, cs => do
    let cs := skipBlanks cs
    match ← redirect? cs with
    | some (redirect, rest) => readCall fuel assignments words (redirect :: redirects) rest
    | none =>
      let name := cs.takeWhile isNameChar
      let more := cs.drop name.length
      if words.isEmpty && isName name && more.head? = some '=' then
        let (word, rest) ← readWord (cs.length + 1) [] (more.drop 1)
        readCall fuel ((String.ofList name, word) :: assignments) words redirects rest
      else if cs.isEmpty || cs.head?.any isDelimiter then
        return (.call assignments.reverse words.reverse redirects.reverse, cs)
      else
        let (word, rest) ← readWord (cs.length + 1) [] cs
        readCall fuel assignments (word :: words) redirects rest

/-- Read words up to the end of a line or a semicolon. -/
def readWords : Nat → List Word → List Char → Except String (List Word × List Char)
  | 0, found, cs => .ok (found.reverse, cs)
  | fuel + 1, found, cs => do
    let cs := skipBlanks cs
    if cs.isEmpty || cs.head?.any isDelimiter then return (found.reverse, cs)
    else
      let (word, rest) ← readWord (cs.length + 1) [] cs
      readWords fuel (word :: found) rest

/-- Pass over blanks, comments and line ends. -/
def skipLines : Nat → List Char → List Char
  | 0, cs => cs
  | fuel + 1, cs =>
    match skipBlanks cs with
    | '\n' :: rest => skipLines fuel rest
    | cs => cs

/-- Pass over what separates the words of a loop from its body. -/
def skipSeparator (cs : List Char) : List Char :=
  match skipBlanks cs with
  | ';' :: rest => skipLines rest.length rest
  | cs => skipLines cs.length cs

mutual

/-- Read a list of commands, which ends before a closing word or bracket. -/
def readList : Nat → List Char → Except String (Command × List Char)
  | 0, _ => .error (endUnexpected "")
  | fuel + 1, cs => do
    let cs := skipLines cs.length cs
    if cs.isEmpty || cs.head? = some ')' || closers.contains (reserved cs) then
      return (.nothing, cs)
    else
      let (first, rest) ← readChain fuel cs
      match skipBlanks rest with
      | ';' :: ';' :: _ => throw (wordUnexpected ";;" "")
      | ';' :: rest =>
        let (second, rest) ← readList fuel rest
        return (.both first second, rest)
      | '&' :: rest =>
        let (second, rest) ← readList fuel rest
        return (.both (.group first true []) second, rest)
      | '\n' :: rest =>
        let (second, rest) ← readList fuel rest
        return (.both first second, rest)
      | rest => return (first, rest)

/-- Read commands that depend on the success of the one before. -/
def readChain : Nat → List Char → Except String (Command × List Char)
  | 0, _ => .error (endUnexpected "")
  | fuel + 1, cs => do
    let (first, rest) ← readPipeline fuel cs
    readLinks fuel first rest

/-- Read the commands after the first one that depend on it. -/
def readLinks : Nat → Command → List Char → Except String (Command × List Char)
  | 0, first, cs => .ok (first, cs)
  | fuel + 1, first, cs =>
    let link := fun (success : Bool) (rest : List Char) => do
      let (second, rest) ← readPipeline fuel (skipLines rest.length rest)
      readLinks fuel (.onlyIf success first second) rest
    match skipBlanks cs with
    | '&' :: '&' :: rest => link true rest
    | '|' :: '|' :: rest => link false rest
    | cs => .ok (first, cs)

/-- Read commands that are joined by their output and input. -/
def readPipeline : Nat → List Char → Except String (Command × List Char)
  | 0, _ => .error (endUnexpected "")
  | fuel + 1, cs => do
    let cs := skipBlanks cs
    if reserved cs = "!" then
      let (body, rest) ← readPipeline fuel (cs.drop 1)
      return (.contrary body, rest)
    else
      let (first, rest) ← readCommand fuel cs
      match skipBlanks rest with
      | '|' :: '|' :: rest => return (first, '|' :: '|' :: rest)
      | '|' :: rest =>
        let (second, rest) ← readPipeline fuel (skipLines rest.length rest)
        return (.pipe first second, rest)
      | rest => return (first, rest)

/-- Read the rest of a choice, after its first word. -/
def readChoice : Nat → List Char → Except String (Command × List Char)
  | 0, _ => .error (endUnexpected "")
  | fuel + 1, cs => do
    let (condition, rest) ← readList fuel cs
    let rest ← expectWord "then" rest
    let (yes, rest) ← readList fuel rest
    match reserved rest with
    | "elif" =>
      let (no, rest) ← readChoice fuel (rest.drop 4)
      return (.choice condition yes no, rest)
    | "else" =>
      let (no, rest) ← readList fuel (rest.drop 4)
      let rest ← expectWord "fi" rest
      return (.choice condition yes no, rest)
    | _ =>
      let rest ← expectWord "fi" rest
      return (.choice condition yes .nothing, rest)

/-- Read the body of a loop. -/
def readBody : Nat → List Char → Except String (Command × List Char)
  | 0, _ => .error (endUnexpected "")
  | fuel + 1, cs => do
    let rest ← expectWord "do" cs
    let (body, rest) ← readList fuel rest
    let rest ← expectWord "done" rest
    return (body, rest)

/-- Read a command that is put together from others, without redirections. -/
def readCompound : Nat → List Char → Except String (Option (Command × Bool × List Char))
  | 0, _ => .error (endUnexpected "")
  | fuel + 1, cs =>
    match cs with
    | '(' :: rest => do
      let (body, rest) ← readList fuel rest
      match rest with
      | ')' :: rest => return some (body, true, rest)
      | [] => throw (endUnexpected ")")
      | _ => throw (wordUnexpected (reserved rest) ")")
    | _ =>
      match reserved cs with
      | "\x7b" => do
        let (body, rest) ← readList fuel (cs.drop 1)
        let rest ← expectWord "\x7d" rest
        return some (body, false, rest)
      | "if" => do
        let (body, rest) ← readChoice fuel (cs.drop 2)
        return some (body, false, rest)
      | "while" => do
        let (condition, rest) ← readList fuel (cs.drop 5)
        let (body, rest) ← readBody fuel rest
        return some (.loop true condition body, false, rest)
      | "until" => do
        let (condition, rest) ← readList fuel (cs.drop 5)
        let (body, rest) ← readBody fuel rest
        return some (.loop false condition body, false, rest)
      | "for" => do
        let cs := skipBlanks (cs.drop 3)
        let name := cs.takeWhile isNameChar
        if !isName name then throw "Syntax error: Bad for loop variable"
        let rest ← expectWord "in" (cs.drop name.length)
        let (words, rest) ← readWords rest.length [] rest
        if rest.isEmpty then throw (endUnexpected "")
        let (body, rest) ← readBody fuel (skipSeparator rest)
        return some (.each (String.ofList name) words body, false, rest)
      | _ => .ok none

/-- Read a command. -/
def readCommand : Nat → List Char → Except String (Command × List Char)
  | 0, _ => .error (endUnexpected "")
  | fuel + 1, cs => do
    match ← readCompound fuel cs with
    | some (body, own, rest) =>
      let (redirects, rest) ← readRedirects rest.length [] rest
      return (.group body own redirects, rest)
    | none =>
      if cs.isEmpty then throw (endUnexpected "")
      else if cs.head?.any fun c => c ≠ '<' && c ≠ '>' && isDelimiter c then
        let twice := cs.head? = (cs.drop 1).head?
        throw (wordUnexpected (String.ofList (cs.take (if twice then 2 else 1))) "")
      else if closers.contains (reserved cs) then throw (wordUnexpected (reserved cs) "")
      else readCall (cs.length + 1) [] [] [] cs

end

/-- Read a whole script. -/
def read (source : List Char) : Except String Command := do
  let (command, rest) ← readList (8 * source.length + 8) source
  if rest.isEmpty then return command
  else throw (wordUnexpected (nextWord rest) "")

end Script
end Uplink
