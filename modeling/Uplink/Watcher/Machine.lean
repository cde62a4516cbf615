import Uplink.Failure
import Uplink.Feed
import Uplink.Watcher.Resource
import Uplink.Watcher.State

/-!
# Watchers

A watcher owns one resource and keeps acquiring, driving and releasing it until it is stopped.
Each start begins a run with a number of its own.  A run that was stopped while it held the
resource still releases it; a later run waits for that.

A watcher moves by itself as long as `move?` gives a move.  The moves of one moment are few: see
`rank`.  A move is told by an `Event`, so that what happened can be stated.

By convention a stop that can be seen goes first.  A run looks for a stop and for the end of what it
waits for at the same time, and where both are there it may go by either; here it goes by the stop, so
that a stopped run gives up, leaves or releases at its next move.  A run that goes by the other one
first, and so attempts, acquires or works once more after the stop, has no say about the state any
longer (`setState`), though it may still publish a note.  Such late steps are steps of `Route.Watch`.
-/

namespace Uplink
namespace Watcher

/-- Why the resource is released. -/
inductive Ending where
  /-- The run was stopped. -/
  | interrupted
  | finished
  | failed
  deriving DecidableEq, Repr

/-- How far the run that holds the resource is. -/
inductive Stage where
  | acquiring
  | driving
  | releasing (ending : Ending)
  /-- It waits before it tries again. -/
  | pausing (wake : Nat)
  deriving DecidableEq, Repr

/-- The run whose turn it is. -/
structure Holder (α : Type) where
  run : Nat
  args : α
  stage : Stage
  deriving Repr

/-- What happens in a move. -/
inductive Event where
  /-- A run that was stopped gives up waiting for its turn. -/
  | gaveUp (run : Nat)
  /-- A run starts to acquire the resource. -/
  | attempted (run : Nat)
  | acquired (run : Nat)
  /-- The resource could not be acquired. -/
  | refused (run : Nat)
  /-- The drive ends, and the release starts. -/
  | ended (run : Nat) (ending : Ending)
  | released (run : Nat) (ending : Ending)
  /-- A run that was stopped ends while it holds nothing. -/
  | left (run : Nat)
  | worked (run : Nat)
  deriving DecidableEq, Repr

/-- Whether a pause begins with a move. -/
def Event.beginsPause : Event → Bool
  | refused _ => true
  | released _ ending => ending ≠ .interrupted
  | _ => false

end Watcher

open Watcher in
/-- A watcher over a resource with states `σ` that is acquired with arguments `α`. -/
structure Watcher (σ α : Type) where
  name : String
  /-- How long the watcher waits before it tries again, in milliseconds. -/
  retry : Nat
  resource : σ
  now : Nat := 0
  /-- The state that observers see. -/
  state : State := .idle
  /-- Whether the state was set since the observer last looked. -/
  changed : Bool := false
  /-- How many runs were started. -/
  starts : Nat := 0
  /-- The run that was started last, unless it was stopped. -/
  live : Option Nat := none
  holder : Option (Holder α) := none
  /-- The runs that wait for their turn, with their arguments. -/
  waiting : List (Nat × α) := []
  /-- Whether a check is requested. -/
  permit : Bool := false
  notes : Feed Note := {}

namespace Watcher

variable {σ α : Type}

/-- Whether the watcher can be stopped, and not started. -/
def started (w : Watcher σ α) : Bool :=
  w.state.isStarted

def ready (w : Watcher σ α) : Bool :=
  w.state = .ready

/-- Whether a run was stopped. -/
def isCancelled (w : Watcher σ α) (run : Nat) : Bool :=
  w.live ≠ some run

/-- Begin a run. -/
def start (w : Watcher σ α) (args : α) : Except Failure Unit × Watcher σ α :=
  if w.started then (.error (.alreadyStarted w.name), w)
  else
    (.ok (), { w with
      state := .starting
      changed := true
      starts := w.starts + 1
      live := some w.starts
      waiting := w.waiting ++ [(w.starts, args)] })

/-- Stop the run that was started last. -/
def stop (w : Watcher σ α) : Except Failure Unit × Watcher σ α :=
  if w.started then (.ok (), { w with state := .stopped, changed := true, live := none })
  else (.error (.notStarted w.name), w)

/-- Request a check; one request is kept until it is answered. -/
def requestCheck (w : Watcher σ α) : Watcher σ α :=
  { w with permit := true }

def note (w : Watcher σ α) (n : Note) : Watcher σ α :=
  { w with notes := w.notes.publish n }

/-- Set the state on behalf of a run.  A run that was stopped has no say. -/
def setState (w : Watcher σ α) (run : Nat) (state : State) : Watcher σ α :=
  if w.isCancelled run || w.state = .stopped || w.state = state then w
  else { w with state, changed := true }

/-- Say on behalf of a run whether the watcher is ready. -/
def setReady (w : Watcher σ α) (run : Nat) (ready : Bool) : Watcher σ α :=
  w.setState run (if ready then .ready else .retrying)

def withResource (w : Watcher σ α) (resource : σ) : Watcher σ α :=
  { w with resource }

/-- Show a deed of the resource to the outside. -/
def display (w : Watcher σ α) (run : Nat) (deed : Deed) : Watcher σ α :=
  let w := { w with permit := w.permit && !deed.usesPermit, notes := w.notes.publishAll deed.notes }
  match deed.ready with
  | some ready => w.setReady run ready
  | none => w

/-- Let a run take another stage. -/
def toStage (w : Watcher σ α) (holder : Holder α) (stage : Stage) : Watcher σ α :=
  { w with holder := some { holder with stage } }

/-- The time after a pause. -/
def wakeTime (w : Watcher σ α) : Nat :=
  w.now + w.retry

/-- Start on a task. -/
def enter (r : Resource σ α) (w : Watcher σ α) (holder : Holder α) (task : Task) (stage : Stage) :
    Watcher σ α :=
  { w with
    resource := r.enter task holder.run holder.args w.now w.resource
    holder := some { holder with stage } }

/-- Do something about a task: work on it, or go on as told when it comes to its end. -/
def pursue (r : Resource σ α) (w : Watcher σ α) (holder : Holder α) (task : Task)
    (go : Watcher σ α → Bool → Event × Watcher σ α) : Option (Event × Watcher σ α) :=
  match r.act task holder.args w.now w.permit w.resource with
  | .wait _ => none
  | .work next deed => some (.worked holder.run, (w.withResource next).display holder.run deed)
  | .finish next success => some (go (w.withResource next) success)

/-- Go on after the acquisition. -/
def afterAcquire (r : Resource σ α) (holder : Holder α) (w : Watcher σ α) (success : Bool) :
    Event × Watcher σ α :=
  if success then
    let w := if r.readyOnAcquire then (w.setReady holder.run true).note .ready else w
    (.acquired holder.run, enter r w holder .drive .driving)
  else
    let w := (w.setState holder.run .retrying).note .retry
    (.refused holder.run, w.toStage holder (.pausing w.wakeTime))

/-- Go on after the drive. -/
def afterDrive (r : Resource σ α) (holder : Holder α) (w : Watcher σ α) (ending : Ending) :
    Event × Watcher σ α :=
  (.ended holder.run ending, enter r w holder .release (.releasing ending))

/-- Go on after the release. -/
def afterRelease (holder : Holder α) (ending : Ending) (w : Watcher σ α) : Event × Watcher σ α :=
  (.released holder.run ending,
    match ending with
    | .interrupted => { w with holder := none }
    | .finished => (w.setReady holder.run false).toStage holder (.pausing w.wakeTime)
    | .failed => ((w.note .error).setReady holder.run false).toStage holder (.pausing w.wakeTime))

/-- The next move of the run whose turn it is. -/
def holderMove? (r : Resource σ α) (w : Watcher σ α) (holder : Holder α) :
    Option (Event × Watcher σ α) :=
  match holder.stage with
  | .acquiring =>
    if w.isCancelled holder.run then some (.left holder.run, { w with holder := none })
    else pursue r w holder .acquire (afterAcquire r holder)
  | .driving =>
    if w.isCancelled holder.run then some (afterDrive r holder w .interrupted)
    else
      pursue r w holder .drive fun w success =>
        afterDrive r holder w (if success then .finished else .failed)
  | .releasing ending => pursue r w holder .release fun w _ => afterRelease holder ending w
  | .pausing wake =>
    if w.isCancelled holder.run then some (.left holder.run, { w with holder := none })
    else if wake ≤ w.now then some (.attempted holder.run, enter r w holder .acquire .acquiring)
    else none

/-- The next move.  A run that was stopped does not wait any longer, and a run has its turn when no
other has. -/
def move? (r : Resource σ α) (w : Watcher σ α) : Option (Event × Watcher σ α) :=
  match w.waiting with
  | (run, args) :: rest =>
    if w.isCancelled run then some (.gaveUp run, { w with waiting := rest })
    else
      match w.holder with
      | none =>
        some (.attempted run,
          enter r { w with waiting := rest } ⟨run, args, .acquiring⟩ .acquire .acquiring)
      | some holder => holderMove? r w holder
  | [] =>
    match w.holder with
    | none => none
    | some holder => holderMove? r w holder

/-- The time of the next move, if it is a matter of time. -/
def due? (r : Resource σ α) (w : Watcher σ α) : Option Nat :=
  let waits := fun (holder : Holder α) (task : Task) =>
    match r.act task holder.args w.now w.permit w.resource with
    | .wait due => due
    | _ => some w.now
  match w.holder with
  | none => none
  | some holder =>
    match holder.stage with
    | .acquiring => waits holder .acquire
    | .driving => waits holder .drive
    | .releasing _ => waits holder .release
    | .pausing wake => some wake

end Watcher
end Uplink
