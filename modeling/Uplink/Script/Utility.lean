import Uplink.Keyed
import Uplink.Script.Syntax
import Uplink.Text.Numeral

/-!
# Utilities

The commands that a script calls by name and that only read their words and their input.  Each
yields what it writes and how it ends.  Bytes are read as characters with the same numbers.
-/

namespace Uplink
namespace Script

/-- Bytes as characters with the same numbers. -/
def charsOf (bytes : Bytes) : List Char :=
  bytes.map fun b => Char.ofNat b.toNat

/-- Characters below 256 as bytes with the same numbers. -/
def bytesOf (chars : List Char) : Bytes :=
  chars.map fun c => UInt8.ofNat c.toNat

/-- A text as bytes. -/
def textBytes (text : String) : Bytes :=
  Text.utf8 text

/-- A number as bytes. -/
def numberBytes (n : Int) : Bytes :=
  textBytes (toString n)

/-- What a utility does. -/
structure Effect where
  /-- What is written. -/
  out : Bytes := []
  /-- What is written about failures. -/
  err : Bytes := []
  /-- How it ends; zero is success. -/
  status : Nat := 0
  /-- The input that is left. -/
  input : Bytes := []
  deriving Repr

namespace Effect

/-- A failure with a message. -/
def failure (status : Nat) (message : String) : Effect :=
  { err := textBytes (message ++ "\n"), status }

/-- Success or not. -/
def ofBool (success : Bool) : Effect :=
  { status := if success then 0 else 1 }

end Effect

/-! ## Writing -/

/-- The character that a letter stands for after a backslash. -/
def escapeLetter? : Char → Option Char
  | 'a' => some '\x07'
  | 'b' => some '\x08'
  | 'f' => some '\x0c'
  | 'n' => some '\n'
  | 'r' => some '\r'
  | 't' => some '\t'
  | 'v' => some '\x0b'
  | '\\' => some '\\'
  | _ => none

/-- The character with the number that at most `count` octal digits denote, and the rest. -/
def octal (count : Nat) (cs : List Char) : Char × List Char :=
  let digits := (cs.take count).takeWhile fun c => '0' ≤ c && c ≤ '7'
  (Char.ofNat (Text.ofDigits 8 digits % 256), cs.drop digits.length)

/-- Text with its escapes, as it is echoed: octal numbers have a zero before them, and one escape
ends the text.  The flag tells whether the text was ended. -/
def echoText : Nat → List Char → List Char × Bool
  | 0, _ => ([], false)
  | fuel + 1, cs =>
    match cs with
    | '\\' :: 'c' :: _ => ([], true)
    | '\\' :: '0' :: rest =>
      let (c, rest) := octal 3 rest
      let (more, ended) := echoText fuel rest
      (c :: more, ended)
    | '\\' :: letter :: rest =>
      match escapeLetter? letter with
      | some c =>
        let (more, ended) := echoText fuel rest
        (c :: more, ended)
      | none =>
        let (more, ended) := echoText fuel (letter :: rest)
        ('\\' :: more, ended)
    | c :: rest =>
      let (more, ended) := echoText fuel rest
      (c :: more, ended)
    | [] => ([], false)

/-- Write words. -/
def echo (words : List Bytes) : Effect :=
  let quiet := words.head? = some (textBytes "-n")
  let words := if quiet then words.drop 1 else words
  let line := charsOf ([0x20].intercalate words)
  let (text, ended) := echoText (line.length + 1) line
  { out := bytesOf text ++ if quiet || ended then [] else [0x0a] }

/-- How a value is written in a format. -/
structure Layout where
  /-- The flags. -/
  flags : List Char := []
  /-- The least number of characters. -/
  width : Nat := 0
  /-- The precision. -/
  precision : Option Nat := none

namespace Layout

/-- Fill up to the width. -/
def pad (layout : Layout) (sign body : List Char) : List Char :=
  let missing := layout.width - (sign.length + body.length)
  if layout.flags.contains '-' then sign ++ body ++ List.replicate missing ' '
  else if layout.flags.contains '0' && layout.precision.isNone then
    sign ++ List.replicate missing '0' ++ body
  else List.replicate missing ' ' ++ sign ++ body

/-- A text. -/
def text (layout : Layout) (cs : List Char) : List Char :=
  { layout with flags := layout.flags.filter (· != '0') }.pad []
    (match layout.precision with
      | some n => cs.take n
      | none => cs)

/-- A number in a base. -/
def number (layout : Layout) (base : Nat) (upper : Bool) (n : Int) : List Char :=
  let digits := Nat.toDigits base n.natAbs
  let digits := if upper then digits.map Char.toUpper else digits
  let digits := List.replicate (layout.precision.getD 1 - digits.length) '0' ++ digits
  let mark :=
    if !layout.flags.contains '#' || n = 0 then []
    else if base = 16 then ['0', if upper then 'X' else 'x']
    else if base = 8 then ['0']
    else []
  let sign := if n < 0 then ['-']
    else if base = 10 && layout.flags.contains '+' then ['+']
    else if base = 10 && layout.flags.contains ' ' then [' ']
    else []
  layout.pad (sign ++ mark) digits

end Layout

/-- The number that a word denotes, with the sign and the base that it is written in; absent if the
word is something else. -/
def numeral? (cs : List Char) : Option Int :=
  let (negative, cs) := match cs.dropWhile (· = ' ') with
    | '-' :: rest => (true, rest)
    | '+' :: rest => (false, rest)
    | cs => (false, cs)
  let magnitude := match cs with
    | '0' :: 'x' :: rest => Text.natural? 16 rest
    | '0' :: 'X' :: rest => Text.natural? 16 rest
    | '0' :: rest => if rest.isEmpty then some 0 else Text.natural? 8 rest
    | cs => Text.natural? 10 cs
  magnitude.map fun n => if negative then -(n : Int) else n

/-- What a formatted print has written, with the words that are left. -/
structure Printing where
  /-- What is written, in order. -/
  out : List Char := []
  /-- The messages about words that are not numbers. -/
  err : String := ""
  /-- The words that are left. -/
  words : List Bytes
  /-- Whether an escape ended the printing. -/
  ended : Bool := false

namespace Printing

/-- Write some characters. -/
def write (p : Printing) (cs : List Char) : Printing :=
  { p with out := p.out ++ cs }

/-- Take the next word. -/
def next (p : Printing) : List Char × Printing :=
  (charsOf (p.words.head?.getD []), { p with words := p.words.tail })

/-- Take the next word as a number. -/
def nextNumber (p : Printing) : Int × Printing :=
  let given := p.words.head?.isSome
  let (word, p) := p.next
  if !given then (0, p)
  else
    match word with
    | '\'' :: c :: _ => (c.toNat, p)
    | '"' :: c :: _ => (c.toNat, p)
    | _ =>
      match numeral? word with
      | some n => (n, p)
      | none =>
        let digits := word.takeWhile Char.isDigit
        let cause := if digits.isEmpty then "expected numeric value" else "not completely converted"
        let line := "sh: 1: printf: " ++ Text.lossy (bytesOf word) ++ ": " ++ cause ++ "\n"
        (Text.ofDigits 10 digits, { p with err := p.err ++ line })

/-- A number without sign in 64 bits. -/
def unsignedOf (n : Int) : Int :=
  n % UInt64.size

/-- Write the next word as a letter says. -/
def convert (p : Printing) (layout : Layout) (letter : Char) : Printing :=
  let number := fun (base : Nat) (upper signed : Bool) =>
    let (n, p) := p.nextNumber
    p.write (layout.number base upper (if signed then n else unsignedOf n))
  match letter with
  | 's' =>
    let (word, p) := p.next
    p.write (layout.text word)
  | 'b' =>
    let (word, p) := p.next
    let (text, ended) := echoText (word.length + 1) word
    { p.write (layout.text text) with ended }
  | 'c' =>
    let (word, p) := p.next
    p.write (layout.text (word.take 1))
  | 'd' => number 10 false true
  | 'i' => number 10 false true
  | 'u' => number 10 false false
  | 'o' => number 8 false false
  | 'x' => number 16 false false
  | 'X' => number 16 true false
  | _ => p

/-- Write according to a format, once. -/
def run : Nat → List Char → Printing → Printing
  | 0, _, p => p
  | fuel + 1, format, p =>
    if p.ended then p
    else
      match format with
      | [] => p
      | '%' :: '%' :: rest => run fuel rest (p.write ['%'])
      | '%' :: rest =>
        let flags := rest.takeWhile ['-', '+', ' ', '0', '#'].contains
        let rest := rest.drop flags.length
        let (width, rest, p) := match rest with
          | '*' :: rest =>
            let (n, p) := p.nextNumber
            (n, rest, p)
          | _ =>
            let digits := rest.takeWhile Char.isDigit
            ((Text.ofDigits 10 digits : Int), rest.drop digits.length, p)
        let (precision, rest) := match rest with
          | '.' :: rest =>
            let digits := rest.takeWhile Char.isDigit
            (some (Text.ofDigits 10 digits), rest.drop digits.length)
          | _ => (none, rest)
        let flags := if width < 0 then '-' :: flags else flags
        match rest with
        | letter :: rest =>
          run fuel rest (p.convert { flags, width := width.natAbs, precision } letter)
        | [] => p
      | '\\' :: 'e' :: rest => run fuel rest (p.write ['\x1b'])
      | '\\' :: letter :: rest =>
        if '0' ≤ letter && letter ≤ '7' then
          let (c, rest) := octal 3 (letter :: rest)
          run fuel rest (p.write [c])
        else
          match escapeLetter? letter with
          | some c => run fuel rest (p.write [c])
          | none => run fuel rest (p.write ['\\', letter])
      | c :: rest => run fuel rest (p.write [c])

/-- Write according to a format, again and again while words are left. -/
def repeated (format : List Char) : Nat → Printing → Printing
  | 0, p => p
  | fuel + 1, p =>
    let after := run (format.length + 1) format p
    if after.ended || after.words.isEmpty || after.words.length = p.words.length then after
    else repeated format fuel after

end Printing

/-- Write words according to a format. -/
def printf (words : List Bytes) : Effect :=
  match if words.head? = some (textBytes "--") then words.tail else words with
  | [] => .failure 2 "sh: 1: printf: usage: printf format [arg ...]"
  | format :: words =>
    let p := Printing.repeated (charsOf format) (words.length + 1) { words }
    { out := bytesOf p.out, err := textBytes p.err, status := if p.err.isEmpty then 0 else 1 }

/-! ## Conditions -/

/-- Whether a path leads to something that every host has. -/
def isCommonPath (path : Bytes) : Bool :=
  ["/", "/dev", "/dev/null", "/tmp", "/etc", "/bin", "/usr", "/proc", "."].contains
    (Text.lossy path)

/-- Compare two words as numbers. -/
def compare? (relation : String) (a b : Int) : Option Bool :=
  match relation with
  | "-eq" => some (a = b)
  | "-ne" => some (a ≠ b)
  | "-lt" => some (a < b)
  | "-le" => some (a ≤ b)
  | "-gt" => some (b < a)
  | "-ge" => some (b ≤ a)
  | _ => none

/-- Whether a condition of words holds. -/
def holds (files : Keyed Bytes) : List Bytes → Except String Bool
  | [] => .ok false
  | [word] => .ok !word.isEmpty
  | [mark, word] =>
    match Text.lossy mark with
    | "!" => .ok word.isEmpty
    | "-n" => .ok !word.isEmpty
    | "-z" => .ok word.isEmpty
    | "-d" => .ok (isCommonPath word && word ≠ textBytes "/dev/null")
    | "-e" | "-r" | "-w" => .ok (isCommonPath word || files.has (Text.lossy word))
    | "-f" => .ok (files.has (Text.lossy word))
    | "-s" => .ok ((files.find? (Text.lossy word)).any fun content => !content.isEmpty)
    | text => .error (text ++ ": unexpected operator")
  | [a, relation, b] =>
    match Text.lossy relation with
    | "=" => .ok (a = b)
    | "!=" => .ok (a ≠ b)
    | text =>
      if a = textBytes "!" then (holds files [relation, b]).map (!·)
      else
        match numeral? (charsOf a), numeral? (charsOf b) with
        | some n, some m =>
          match compare? text n m with
          | some result => .ok result
          | none => .error (text ++ ": unexpected operator")
        | none, _ => .error ("Illegal number: " ++ Text.lossy a)
        | _, none => .error ("Illegal number: " ++ Text.lossy b)
  | mark :: rest =>
    if mark = textBytes "!" then (holds files rest).map (!·)
    else .error (Text.lossy mark ++ ": unexpected operator")

/-- Whether a condition holds that is put together from others, with marks between them. -/
def holdsTogether (files : Keyed Bytes) (words : List Bytes) : Except String Bool :=
  let alternatives :=
    (words.splitOn (textBytes "-o")).map fun words => words.splitOn (textBytes "-a")
  if words.length ≤ 4 then holds files words
  else
    alternatives.foldlM
      (fun found conditions => do
        let all ← conditions.foldlM
          (fun all condition => (holds files condition).map (all && ·)) true
        return found || all)
      false

/-- Test a condition. -/
def test (name : String) (files : Keyed Bytes) (words : List Bytes) : Effect :=
  match holdsTogether files words with
  | .ok result => .ofBool result
  | .error message => .failure 2 ("sh: 1: " ++ name ++ ": " ++ message)

/-- Test a condition in brackets. -/
def testInBrackets (files : Keyed Bytes) (words : List Bytes) : Effect :=
  if words.getLast? = some (textBytes "]") then test "[" files words.dropLast
  else .failure 2 "sh: 1: [: missing ]"

/-! ## Filters -/

/-- The content of a file. -/
def contentOf? (files : Keyed Bytes) (path : Bytes) : Option Bytes :=
  if path = textBytes "/dev/null" then some [] else files.find? (Text.lossy path)

/-- Write files, or the input, one after another. -/
def cat (files : Keyed Bytes) (words : List Bytes) (input : Bytes) : Effect :=
  (if words.isEmpty then [textBytes "-"] else words).foldl
    (fun (effect : Effect) path =>
      if path = textBytes "-" then { effect with out := effect.out ++ effect.input, input := [] }
      else
        match contentOf? files path with
        | some content => { effect with out := effect.out ++ content }
        | none =>
          let line := "cat: " ++ Text.lossy path ++ ": No such file or directory\n"
          { effect with err := effect.err ++ textBytes line, status := 1 })
    { input }

/-- The lines of some bytes, each with its line feed. -/
def linesOf : Bytes → List Bytes
  | [] => []
  | b :: rest =>
    if b = 0x0a then [b] :: linesOf rest
    else
      match linesOf rest with
      | [] => [[b]]
      | line :: lines => (b :: line) :: lines

/-- Write the first lines or bytes of a file or of the input. -/
def head (files : Keyed Bytes) (words : List Bytes) (input : Bytes) : Effect :=
  let (byBytes, count, paths) := match words with
    | mark :: n :: rest =>
      let number := (Text.natural? 10 (charsOf n)).getD 0
      if mark = textBytes "-c" then (true, number, rest)
      else if mark = textBytes "-n" then (false, number, rest)
      else (false, 10, words)
    | _ => (false, 10, words)
  let content := match paths.head? with
    | some path =>
      if path = textBytes "/dev/zero" then some (List.replicate (if byBytes then count else 0) 0)
      else contentOf? files path
    | none => some input
  match content with
  | some content =>
    { out := if byBytes then content.take count else ((linesOf content).take count).flatten }
  | none => .failure 1 ("head: cannot open '" ++ Text.lossy (paths.head?.getD []) ++
      "' for reading: No such file or directory")

/-- Count the lines or the bytes of the input. -/
def count (words : List Bytes) (input : Bytes) : Effect :=
  let lines := input.countP (· = 0x0a)
  match words.map Text.lossy with
  | ["-c"] => { out := numberBytes input.length ++ [0x0a] }
  | ["-l"] => { out := numberBytes lines ++ [0x0a] }
  | _ => .failure 1 "wc: not supported"

/-- The characters that a word of `tr` names, with its escapes and ranges. -/
def setOf : Nat → List Char → List Char
  | 0, _ => []
  | fuel + 1, cs =>
    match cs with
    | '\\' :: letter :: rest =>
      if '0' ≤ letter && letter ≤ '7' then
        let (c, rest) := octal 3 (letter :: rest)
        c :: setOf fuel rest
      else (escapeLetter? letter).getD letter :: setOf fuel rest
    | low :: '-' :: high :: rest =>
      (List.range (high.toNat + 1 - low.toNat)).map (fun i => Char.ofNat (low.toNat + i)) ++
        setOf fuel rest
    | c :: rest => c :: setOf fuel rest
    | [] => []

/-- Write the input with other characters, or without some. -/
def translate (words : List Bytes) (input : Bytes) : Effect :=
  let set := fun (word : Bytes) => bytesOf (setOf (word.length + 1) (charsOf word))
  match words with
  | [first, second] =>
    if first = textBytes "-d" then { out := input.filter fun b => !(set second).contains b }
    else
      { out := input.map fun b =>
          if (set first).contains b then
            ((set second)[(set first).idxOf b]?).getD ((set second).getLast?.getD b)
          else b }
  | _ => .failure 1 "tr: missing operand\nTry 'tr --help' for more information."

/-- Wait for a time, which has passed at once. -/
def sleep (words : List Bytes) : Effect :=
  match words with
  | [] => .failure 1 "sleep: missing operand\nTry 'sleep --help' for more information."
  | _ =>
    match words.find? fun word => (Text.decimal? (charsOf word)).isNone &&
        (Text.decimal? (charsOf word).dropLast).isNone with
    | some word => .failure 1 ("sleep: invalid time interval ‘" ++ Text.lossy word ++
        "’\nTry 'sleep --help' for more information.")
    | none => {}

/-- List files, of which only those that every host has are known to exist. -/
def list (files : Keyed Bytes) (words : List Bytes) : Effect :=
  let known := fun (path : Bytes) => isCommonPath path || files.has (Text.lossy path)
  let missing := words.filter fun path => !known path
  let shown := words.filter fun path => files.has (Text.lossy path) || path = textBytes "/dev/null"
  { out := shown.flatMap (· ++ [0x0a])
    err := missing.flatMap fun path =>
      textBytes ("ls: cannot access '" ++ Text.lossy path ++ "': No such file or directory\n")
    status := if missing.isEmpty then 0 else 2 }

/-- Write numbers in a row. -/
def sequence (words : List Bytes) : Effect :=
  let numbers := words.map fun word => (numeral? (charsOf word)).getD 0
  let range := fun (low step high : Int) =>
    let steps := if step = 0 || high < low then 0 else ((high - low) / step).toNat + 1
    let lines := (List.range steps).map fun (i : Nat) => numberBytes (low + i * step) ++ [0x0a]
    { out := lines.flatten : Effect }
  match numbers with
  | [high] => range 1 1 high
  | [low, high] => range low 1 high
  | [low, step, high] => range low step high
  | _ => .failure 1 "seq: missing operand"

/-- The utility with the given name. -/
def utility? (files : Keyed Bytes) (name : String) : Option (List Bytes → Bytes → Effect) :=
  match name with
  | "true" | ":" => some fun _ input => { input }
  | "false" => some fun _ input => { status := 1, input }
  | "echo" => some fun words input => { echo words with input }
  | "printf" => some fun words input => { printf words with input }
  | "test" => some fun words input => { test "test" files words with input }
  | "[" => some fun words input => { testInBrackets files words with input }
  | "cat" => some (cat files)
  | "ls" => some fun words input => { list files words with input }
  | "head" => some (head files)
  | "wc" => some count
  | "seq" => some fun words input => { sequence words with input }
  | "sleep" => some fun words input => { sleep words with input }
  | "tr" => some translate
  | _ => none

end Script
end Uplink
