import Uplink.Script.Reader
import Uplink.Script.Sum
import Uplink.Shell

/-!
# Running scripts

A script runs in a world of parameters, files and outputs.  Every descriptor leads to an output, to
a file or nowhere.  A script may end itself, or be ended by a signal that it sends to itself; then
nothing more is run.

Every step is paid for with a unit of fuel; a script that runs out of it ends where it is.
-/

namespace Uplink
namespace Script

/-- Where a descriptor leads. -/
inductive Sink where
  /-- To the output with a number. -/
  | output (index : Nat)
  /-- To the end of a file. -/
  | file (path : String)
  /-- Nowhere. -/
  | nowhere
  deriving DecidableEq, Repr

/-- Where the descriptors lead. -/
abbrev Sinks := List (Nat × Sink)

/-- Why nothing more is run. -/
inductive Ending where
  /-- The script ended itself. -/
  | exited
  /-- A signal ended it. -/
  | killed
  deriving DecidableEq, Repr

/-- What a script works on. -/
structure World where
  /-- The values of the parameters. -/
  bindings : Keyed Bytes := []
  /-- How the last command ended; zero is success. -/
  status : Nat := 0
  /-- The input. -/
  input : Bytes := []
  /-- The outputs by their numbers: what is written, what is written about failures, and others. -/
  outputs : List Bytes := [[], []]
  /-- The files that were written. -/
  files : Keyed Bytes := []
  /-- Why nothing more is run, if so. -/
  ending : Option Ending := none
  deriving Repr

namespace World

/-- The number of the script's process. -/
def process : Nat := 4242

/-- Write to a sink. -/
def write (w : World) (sink : Sink) (bytes : Bytes) : World :=
  match sink with
  | .output index => { w with outputs := w.outputs.modify index (· ++ bytes) }
  | .file path => { w with files := w.files.insert path ((w.files.find? path).getD [] ++ bytes) }
  | .nowhere => w

/-- Write to a descriptor. -/
def writeTo (w : World) (sinks : Sinks) (descriptor : Nat) (bytes : Bytes) : World :=
  w.write ((sinks.lookup descriptor).getD .nowhere) bytes

/-- The world after a command ended. -/
def ended (w : World) (status : Nat) : World :=
  { w with status }

/-- The world after the script ended itself. -/
def exited (w : World) (status : Nat) : World :=
  { w with status, ending := some .exited }

/-- The world after a command failed with a message. -/
def failed (w : World) (sinks : Sinks) (status : Nat) (message : String) : World :=
  (w.writeTo sinks 2 (textBytes ("sh: 1: " ++ message ++ "\n"))).ended status

/-- The world after a script failed with a message and ended. -/
def broken (w : World) (sinks : Sinks) (status : Nat) (message : String) : World :=
  (w.failed sinks status message).exited status

/-- Take a part of a script as one that runs by itself: its parameters are its own, and it alone
ends. -/
def leave (before after : World) : World :=
  { after with
    bindings := before.bindings
    ending := if after.ending = some .exited then none else after.ending }

/-- The value of a parameter, if it has one. -/
def value? (w : World) (name : String) : Option Bytes :=
  match name with
  | "?" => some (numberBytes w.status)
  | "$" => some (numberBytes process)
  | "#" => some (numberBytes 0)
  | "0" => some (textBytes "sh")
  | _ => w.bindings.find? name

/-- Give a value to a parameter. -/
def assign (w : World) (name : String) (value : Bytes) : World :=
  { w with bindings := w.bindings.insert name value }

end World

/-! ## Words -/

/-- The fields that words are split into, last first, and whether the last one is complete. -/
structure Fields where
  /-- The fields, last first. -/
  done : List Bytes := []
  /-- The field that is not complete. -/
  current : Option Bytes := none

namespace Fields

/-- Add what is not split. -/
def join (fields : Fields) (bytes : Bytes) : Fields :=
  { fields with current := some (fields.current.getD [] ++ bytes) }

/-- End the field that is not complete. -/
def close (fields : Fields) : Fields :=
  { done := fields.current.toList ++ fields.done }

/-- Add what is split at blanks. -/
def split (fields : Fields) (bytes : Bytes) : Fields :=
  bytes.foldl
    (fun fields b =>
      if b = 0x20 || b = 0x09 || b = 0x0a then fields.close else fields.join [b]) fields

end Fields

/-- Bytes without the line feeds at their end. -/
def withoutLastLines (bytes : Bytes) : Bytes :=
  (bytes.reverse.dropWhile (· = 0x0a)).reverse

/-! ## Signals and endings -/

/-- The number that a word of `exit` denotes. -/
def exitStatus? (word : Bytes) : Option Nat :=
  (Text.natural? 10 (charsOf word)).bind fun n => if n < 1 <<< 31 then some (n % 256) else none

/-- Signals that do not end a process. -/
def harmlessSignals : List String :=
  ["0", "17", "18", "23", "28", "CHLD", "CONT", "URG", "WINCH"]

/-- Send a signal to processes. Only the script's own process is known. -/
def kill (sinks : Sinks) (w : World) (words : List Bytes) : World :=
  let (signal, targets) := match words.map Text.lossy with
    | "-s" :: signal :: rest => (signal, rest)
    | word :: rest =>
      if word.startsWith "-" then (String.ofList (word.toList.drop 1), rest)
      else ("TERM", word :: rest)
    | [] => ("", [])
  if targets = [toString World.process] then
    if harmlessSignals.contains signal then w.ended 0 else { w with ending := some .killed }
  else w.failed sinks 1 "kill: No such process"

/-! ## Commands -/

/-- Open what is written, if it can be written. -/
def openFile (sinks : Sinks) (w : World) (path : String) (append : Bool) :
    Except String (Sink × World) :=
  if path = "/dev/null" then .ok (.nowhere, w)
  else if path = "/dev/stdout" then .ok ((sinks.lookup 1).getD .nowhere, w)
  else if path = "/dev/stderr" then .ok ((sinks.lookup 2).getD .nowhere, w)
  else if path.startsWith "/tmp/" || !path.contains '/' then
    .ok (.file path,
      if append && w.files.has path then w else { w with files := w.files.insert path [] })
  else .error ("cannot create " ++ path ++ ": Directory nonexistent")

mutual

/-- The value of a part of a word, and whether it is split. -/
def expandPiece : Nat → Sinks → Piece → World → (Bytes × Bool) × World
  | 0, _, _, w => (([], false), w)
  | fuel + 1, sinks, piece, w =>
    match piece with
    | .text bytes => ((bytes, false), w)
    | .parameter name quoted otherwise other =>
      let value := w.value? name
      let isSet := fun (emptyCounts : Bool) =>
        if emptyCounts then value.any fun bytes => !bytes.isEmpty else value.isSome
      let instead := fun (_ : Unit) =>
        let (bytes, w) := expandWhole fuel sinks other w
        ((bytes, !quoted), w)
      match otherwise with
      | .nothing => ((value.getD [], !quoted), w)
      | .length => ((numberBytes (charsOf (value.getD [])).length, !quoted), w)
      | .unset emptyCounts =>
        if isSet emptyCounts then ((value.getD [], !quoted), w) else instead ()
      | .set emptyCounts => if isSet emptyCounts then instead () else (([], !quoted), w)
    | .output source quoted =>
      let index := w.outputs.length
      let after := runSource fuel ((1, .output index) :: sinks) source
        { w with outputs := w.outputs ++ [[]] }
      let bytes := withoutLastLines ((after.outputs[index]?).getD [])
      ((bytes, !quoted), w.leave { after with outputs := after.outputs.take index })
    | .sum parts =>
      let (bytes, w) := expandWhole fuel sinks parts w
      match Sum.eval w.bindings (charsOf bytes) with
      | some n => ((numberBytes n, false), w)
      | none =>
        (([], false), w.broken sinks 2 (Sum.complaint (charsOf bytes)))

/-- The value of a word that is not split. -/
def expandWhole : Nat → Sinks → Word → World → Bytes × World
  | 0, _, _, w => ([], w)
  | _ + 1, _, [], w => ([], w)
  | fuel + 1, sinks, piece :: rest, w =>
    let ((bytes, _), w) := expandPiece fuel sinks piece w
    let (more, w) := expandWhole fuel sinks rest w
    (bytes ++ more, w)

/-- Add a word to the fields. -/
def expandWord : Nat → Sinks → Word → Fields → World → Fields × World
  | 0, _, _, fields, w => (fields, w)
  | _ + 1, _, [], fields, w => (fields, w)
  | fuel + 1, sinks, piece :: rest, fields, w =>
    let ((bytes, splits), w) := expandPiece fuel sinks piece w
    expandWord fuel sinks rest (if splits then fields.split bytes else fields.join bytes) w

/-- The fields of words. -/
def expandWords : Nat → Sinks → List Word → Fields → World → List Bytes × World
  | 0, _, _, fields, w => (fields.done.reverse, w)
  | _ + 1, _, [], fields, w => (fields.done.reverse, w)
  | fuel + 1, sinks, word :: rest, fields, w =>
    let (fields, w) := expandWord fuel sinks word fields w
    expandWords fuel sinks rest fields.close w

/-- Let descriptors lead where redirections say. -/
def redirect : Nat → Sinks → List Redirect → World → Except String (Sinks × World)
  | 0, sinks, _, w => .ok (sinks, w)
  | _ + 1, sinks, [], w => .ok (sinks, w)
  | fuel + 1, sinks, entry :: rest, w =>
    match entry.target with
    | .closed => redirect fuel ((entry.descriptor, .nowhere) :: sinks) rest w
    | .same other =>
      redirect fuel ((entry.descriptor, (sinks.lookup other).getD .nowhere) :: sinks) rest w
    | .source path =>
      let (path, w) := expandWhole fuel sinks path w
      match contentOf? w.files path with
      | some input => redirect fuel sinks rest { w with input }
      | none => .error ("cannot open " ++ Text.lossy path ++ ": No such file")
    | .file path append =>
      let (path, w) := expandWhole fuel sinks path w
      match openFile sinks w (Text.lossy path) append with
      | .ok (sink, w) => redirect fuel ((entry.descriptor, sink) :: sinks) rest w
      | .error message => .error message

/-- Give values to parameters. -/
def assignAll : Nat → Sinks → List (String × Word) → World → World
  | 0, _, _, w => w
  | _ + 1, _, [], w => w
  | fuel + 1, sinks, (name, word) :: rest, w =>
    let (value, w) := expandWhole fuel sinks word w
    assignAll fuel sinks rest (w.assign name value)

/-- Run a call by its name. -/
def invoke : Nat → Sinks → Bytes → List Bytes → World → World
  | 0, _, _, _, w => w
  | fuel + 1, sinks, name, words, w =>
    match Text.lossy name with
    | "exit" =>
      match words with
      | [] => w.exited w.status
      | word :: _ =>
        match exitStatus? word with
        | some n => w.exited n
        | none => w.broken sinks 2 ("exit: Illegal number: " ++ Text.lossy word)
    | "kill" => kill sinks w words
    | "eval" => runSource fuel sinks (Text.lossy ([0x20].intercalate words)).toList w
    | "exec" =>
      match words with
      | [] => w.ended 0
      | name :: words =>
        let w := invoke fuel sinks name words w
        w.exited w.status
    | "sh" =>
      match words with
      | [mark, source] =>
        if mark = textBytes "-c" then
          let inside := { w with bindings := [], status := 0 }
          let after := runSource fuel sinks (Text.lossy source).toList inside
          if after.ending = some .killed then
            let w := w.leave { after with ending := none }
            (w.writeTo sinks 2 (textBytes "Killed\n")).ended 137
          else w.leave after
        else w.failed sinks 2 ("0: cannot open " ++ Text.lossy mark ++ ": No such file")
      | _ => w.ended 0
    | "wait" => w.ended 0
    | "return" =>
      match words.head?.bind exitStatus? with
      | some n => w.exited n
      | none => w.exited w.status
    | "rm" =>
      let files := w.files.filter fun entry => !words.contains (textBytes entry.1)
      { w with files, status := 0 }
    | "cd" =>
      match words with
      | [path] =>
        if isCommonPath path then w.ended 0
        else w.failed sinks 2 ("cd: can't cd to " ++ Text.lossy path)
      | _ => w.ended 0
    | "unset" =>
      { w with
        bindings := w.bindings.filter fun entry => !words.contains (textBytes entry.1)
        status := 0 }
    | "export" =>
      (words.foldl (fun (w : World) word =>
        let cs := word.takeWhile (· ≠ 0x3d)
        if cs.length < word.length then w.assign (Text.lossy cs) (word.drop (cs.length + 1)) else w)
        w).ended 0
    | "read" =>
      let line := w.input.takeWhile (· ≠ 0x0a)
      let complete := line.length < w.input.length
      let w := { w with input := w.input.drop (line.length + 1) }
      ((match (words.filter (· ≠ textBytes "-r")).head? with
        | some name => w.assign (Text.lossy name) line
        | none => w)).ended (if complete then 0 else 1)
    | text =>
      match utility? w.files text with
      | some utility =>
        let effect := utility words w.input
        let w := { w with input := effect.input }
        ((w.writeTo sinks 1 effect.out).writeTo sinks 2 effect.err).ended effect.status
      | none =>
        if isCommonPath name && text.startsWith "/" then
          w.failed sinks 126 (text ++ ": Permission denied")
        else w.failed sinks 127 (text ++ ": not found")

/-- Run a command. -/
def run : Nat → Sinks → Command → World → World
  | 0, _, _, w => w
  | fuel + 1, sinks, command, w =>
    if w.ending.isSome then w
    else
      match command with
      | .nothing => w
      | .call assignments words redirects =>
        let (fields, w) := expandWords fuel sinks words {} w
        let input := w.input
        match redirect fuel sinks redirects w with
        | .error message => w.failed sinks 2 message
        | .ok (inner, w) =>
          if w.ending.isSome then w
          else
            match fields with
            | [] =>
              let calls := assignments.any fun entry => entry.2.any fun
                | .output .. => true
                | _ => false
              let w := assignAll fuel sinks assignments w
              { w with input, status := if calls then w.status else 0 }
            | name :: rest =>
              let after := invoke fuel inner name rest w
              if redirects.any fun entry => entry.descriptor = 0 then { after with input }
              else after
      | .group body own redirects =>
        match redirect fuel sinks redirects w with
        | .error message => w.failed sinks 2 message
        | .ok (inner, inside) =>
          let after := run fuel inner body inside
          let after := if own then w.leave after else after
          if redirects.any fun entry => entry.descriptor = 0 then { after with input := w.input }
          else after
      | .both first second => run fuel sinks second (run fuel sinks first w)
      | .onlyIf success first second =>
        let w := run fuel sinks first w
        if (w.status = 0) = success then run fuel sinks second w else w
      | .contrary body =>
        let w := run fuel sinks body w
        if w.ending.isSome then w else w.ended (if w.status = 0 then 1 else 0)
      | .pipe first second =>
        let index := w.outputs.length
        let before := { w with outputs := w.outputs ++ [[]] }
        let between := w.leave (run fuel ((1, .output index) :: sinks) first before)
        let input := (between.outputs[index]?).getD []
        let after := run fuel sinks second
          { between with outputs := between.outputs.take index, input }
        { w.leave after with input := w.input }
      | .choice condition yes no =>
        let w := run fuel sinks condition w
        if w.ending.isSome then w
        else if w.status = 0 then run fuel sinks yes w
        else run fuel sinks no (w.ended 0)
      | .loop success condition body =>
        let tested := run fuel sinks condition w
        if tested.ending.isSome then tested
        else if (tested.status = 0) = success then
          run fuel sinks (.loop success condition body) (run fuel sinks body tested)
        else tested.ended 0
      | .each name words body =>
        let (fields, w) := expandWords fuel sinks words {} w
        runEach fuel sinks name body fields (w.ended 0)

/-- Run a command for each of some values. -/
def runEach : Nat → Sinks → String → Command → List Bytes → World → World
  | 0, _, _, _, _, w => w
  | _ + 1, _, _, _, [], w => w
  | fuel + 1, sinks, name, body, value :: rest, w =>
    if w.ending.isSome then w
    else runEach fuel sinks name body rest (run fuel sinks body (w.assign name value))

/-- Read and run a script. -/
def runSource : Nat → Sinks → List Char → World → World
  | 0, _, _, w => w
  | fuel + 1, sinks, source, w =>
    match read source with
    | .ok command => run fuel sinks command w
    | .error message => w.broken sinks 2 message

end

/-- How many steps a script may take. -/
def patience : Nat := 1000000

/-- Run a command.  A command cannot hold a character with the number zero. -/
def exec (command : String) : Except Failure CommandOutput :=
  if command.toList.contains '\x00' then .error (.io ("exec " ++ command) none)
  else
    let w := runSource patience [(1, .output 0), (2, .output 1)] command.toList {}
    .ok {
      code := if w.ending = some .killed then -1 else w.status
      output := String.join (w.outputs.map Text.lossy) }

end Script
end Uplink
