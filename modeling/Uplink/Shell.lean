import Uplink.Failure
import Uplink.Keyed

/-!
# Commands

A shell runs commands.  A command ends with a code and an output, or cannot be run at all.  The
output of the last successful run of a command can be kept under a name, so that the command need
not be run again.
-/

namespace Uplink

/-- How a command ended. -/
structure CommandOutput where
  /-- The code, zero for success. -/
  code : Int
  /-- Everything that was written. -/
  output : String
  deriving DecidableEq, Repr

/-- How a command ends that nothing is known about: it cannot be run. -/
def noResponse (command : String) : Except Failure CommandOutput :=
  .error (.io command (some "no response"))

/-- A shell, with how it answers at present and the commands it was asked to run. -/
structure Shell where
  /-- How each command ends, if it is run now. -/
  answer : String → Except Failure CommandOutput := noResponse
  /-- The commands so far, last first. -/
  executed : List String := []

namespace Shell

instance : Inhabited Shell where
  default := {}

/-- Run a command. -/
def exec (shell : Shell) (command : String) : Except Failure CommandOutput × Shell :=
  (shell.answer command, { shell with executed := command :: shell.executed })

/-- Set how a command ends. -/
def respond (shell : Shell) (command : String) (output : CommandOutput) : Shell :=
  { shell with answer := fun other => if other = command then .ok output else shell.answer other }

/-- Make a command impossible to run. -/
def forget (shell : Shell) (command : String) : Shell :=
  { shell with
    answer := fun other => if other = command then noResponse other else shell.answer other }

/-- Take the commands so far, in their order. -/
def drain (shell : Shell) : List String × Shell :=
  (shell.executed.reverse, { shell with executed := [] })

end Shell

/-- The outputs of the last successful runs. -/
structure OutputCache where
  /-- Each output under its name. -/
  outputs : Keyed String := []
  deriving DecidableEq, Repr, Inhabited

namespace OutputCache

/-- Keep the output of a run that succeeded. -/
def keep (cache : OutputCache) (key command : String) :
    Except Failure CommandOutput → Except Failure String × OutputCache
  | .ok result =>
    if result.code = 0 then (.ok result.output, ⟨cache.outputs.insert key result.output⟩)
    else (.error (.shell command result.code result.output), cache)
  | .error failure => (.error failure, cache)

/-- The output of a command: the one that is kept, unless there is none or it is to be made anew. -/
def get (cache : OutputCache) (shell : Shell) (key command : String) (anew : Bool) :
    Except Failure String × OutputCache × Shell :=
  let cache : OutputCache := if anew then ⟨cache.outputs.erase key⟩ else cache
  match cache.outputs.find? key with
  | some output => (.ok output, cache, shell)
  | none =>
    let (result, shell) := shell.exec command
    let (result, cache) := cache.keep key command result
    (result, cache, shell)

end OutputCache
end Uplink
