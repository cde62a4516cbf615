import Uplink.Retry
import Uplink.Store
import Uplink.Template

/-!
# The gate before the configuration

A checkpoint looks at a hash again and again, until every required key is there and the fields can
be converted.  Then it hands the fields over, once, and looks no more.  Between two looks it waits
for the retry interval, or for a request to look at once; one request is kept while nobody waits for
it.

A checkpoint tells its listener about every look.  Where nobody listens, it stops at the first look
that did not succeed.

Here the store answers at once, so that a look is one step, and whoever stops the checkpoint waits until
its task has ended.  `Checkpoint.Vigil` has a task for every start, with a call and its answer as two
steps, and a task that is stopped goes on until it has its turn.
-/

namespace Uplink

namespace Checkpoint

/-- The name of the component. -/
def component : String := "checkpoint"

/-- What the listener is told. -/
inductive Event where
  /-- A look did not succeed; another one is scheduled. -/
  | retry
  /-- The fields of the configuration. -/
  | ready (fields : List (String × Json))

/-- What ends a wait. -/
inductive Wake where
  /-- A request to look at once. -/
  | request
  /-- The end of the interval. -/
  | timer
  deriving DecidableEq, Repr

/-- What a started checkpoint does. -/
inductive Stage where
  /-- It is about to look at the hash. -/
  | looking
  /-- It waits until a time, and may have been asked not to wait any longer. -/
  | waiting (wake : Nat) (asked : Bool)
  deriving DecidableEq, Repr

/-- What is settled when a checkpoint is made. -/
structure Terms where
  /-- The key of the hash. -/
  key : String := Store.configKey
  /-- How the fields are taken from the hash. -/
  template : Template := {}
  /-- The keys that the hash must have. -/
  required : List String := []
  /-- The time between two looks, in milliseconds. -/
  retry : Nat := ({} : RetryPolicy).interval.toNat

/-- The fields of a hash, if it is complete. -/
def Terms.inspect (terms : Terms) (hash : Keyed String) :
    Except Failure (Option (List (String × Json))) :=
  if terms.required.all fun key => hash.has key then (terms.template.toConfig hash).map some
  else .ok none

/-- What the listener is told about an answer of the store. -/
def Terms.verdict (terms : Terms) (answer : Except Failure (Keyed String)) : Event :=
  match answer.bind terms.inspect with
  | .ok (some fields) => .ready fields
  | _ => .retry

end Checkpoint

open Checkpoint in
/-- A checkpoint over a hash of the store. -/
structure Checkpoint extends Terms where
  /-- The time. -/
  now : Nat := 0
  /-- Whether it can be stopped, and not started. -/
  started : Bool := false
  /-- Whether the fields were handed over since the last start, and it was not stopped since. -/
  ready : Bool := false
  /-- Whether a request is kept. -/
  permit : Bool := false
  /-- What it does, as long as it does something. -/
  stage : Option Stage := none
  /-- Whether anybody listens to the last start. -/
  heard : Bool := false
  /-- What the listener was told since it last looked, last first. -/
  events : List Event := []

namespace Checkpoint

/-- The checkpoint that requires what a template requires. -/
def ofTemplate (key : String) (template : Template) (retry : Nat) : Checkpoint :=
  { key, template, required := template.requirements, retry }

/-- Start to look. There is a new listener, and nothing is left of what the former one was told. -/
def start (c : Checkpoint) : Except Failure Unit × Checkpoint :=
  if c.started then (.error (.alreadyStarted component), c)
  else
    (.ok (), { c with
      started := true
      ready := false
      stage := some .looking
      heard := true
      events := [] })

/-- The request that is still kept when a wait is given up. -/
def keptPermit (c : Checkpoint) : Bool :=
  match c.stage with
  | some (.waiting _ asked) => c.permit || asked
  | _ => c.permit

/-- Stop looking, and wait until the task has ended. -/
def stop (c : Checkpoint) : Except Failure Unit × Checkpoint :=
  if c.started then
    (.ok (), { c with started := false, ready := false, permit := c.keptPermit, stage := none })
  else (.error (.notStarted component), c)

/-- Request a look. A wait takes the first request; another one is kept. -/
def requestCheck (c : Checkpoint) : Checkpoint :=
  match c.stage with
  | some (.waiting wake false) => { c with stage := some (.waiting wake true) }
  | _ => { c with permit := true }

/-- Nobody listens any longer. -/
def deafen (c : Checkpoint) : Checkpoint :=
  { c with heard := false, events := [] }

/-- What the listener was told since it last looked, and whether it will not be told anything
more. -/
def observe (c : Checkpoint) : List Event × Bool :=
  (c.events.reverse, c.heard && c.stage.isNone)

/-- The checkpoint after the listener looked. -/
def observed (c : Checkpoint) : Checkpoint :=
  { c with events := [] }

/-! ## Looking -/

/-- Hand the fields over. -/
def succeed (c : Checkpoint) (fields : List (String × Json)) : Checkpoint :=
  { c with
    ready := true
    stage := none
    events := if c.heard then .ready fields :: c.events else c.events }

/-- Wait before the next look, unless nobody listens.  A request that was kept goes to the wait. -/
def postpone (c : Checkpoint) : Checkpoint :=
  if c.heard then
    { c with
      events := .retry :: c.events
      permit := false
      stage := some (.waiting (c.now + c.retry) c.permit) }
  else { c with stage := none }

/-- Look at the hash once. The store answers at once. -/
def look (store : Store) (c : Checkpoint) : Store × Checkpoint :=
  let (answer, store) := store.readHash c.key
  match c.verdict answer with
  | .ready fields => (store, c.succeed fields)
  | .retry => (store, c.postpone)

/-- End a wait in one of the ways that are possible.  At the end of the interval a request is kept
for the next wait. -/
def awake? (c : Checkpoint) (wake : Wake) : Option Checkpoint :=
  match c.stage, wake with
  | some (.waiting _ true), .request => some { c with stage := some .looking }
  | some (.waiting time asked), .timer =>
    if time ≤ c.now then some { c with stage := some .looking, permit := c.permit || asked }
    else none
  | _, _ => none

/-- The next move, of those possible at a moment the one that needs no more time. -/
def move? (store : Store) (c : Checkpoint) : Option (Store × Checkpoint) :=
  match c.stage with
  | some .looking => some (look store c)
  | _ => ((c.awake? .request).or (c.awake? .timer)).map fun c => (store, c)

end Checkpoint
end Uplink
