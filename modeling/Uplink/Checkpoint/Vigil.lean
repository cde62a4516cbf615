import Uplink.Checkpoint

/-!
# The tasks of a checkpoint

Every start makes a task of its own, and a stop only tells it to end.  Until it has its next turn the
task is there like any other; and at that turn it is left to chance whether it ends or goes on, for it
takes any of the things that it waits for.  So there may be several tasks, of which one is not stopped.

The tasks share the store, the flag and the requests.  Those who wait stand in line, and a request goes
to the first of them who was not asked yet; if there is none, one request is kept for whoever waits
next.  A task that was asked, and ends or goes on for another reason, passes the request on.

`Checkpoint` has one task at most: there the store answers at once, and a task that is stopped ends
before anything else happens.
-/

namespace Uplink
namespace Checkpoint

/-- What a task does. -/
inductive Phase where
  /-- It is about to ask the store. -/
  | looking
  /-- The store was asked, and this is its answer, which the task has not seen yet. -/
  | called (answer : Except Failure (Keyed String))
  /-- It waits until a time, and may have been asked not to wait any longer. -/
  | waiting (wake : Nat) (asked : Bool)
  /-- It has ended, and its listener is told no more. -/
  | finished

/-- The task of a start. -/
structure Task where
  /-- How many starts there were before. -/
  number : Nat
  /-- Whether it was told to end. -/
  stopped : Bool := false
  /-- What it does. -/
  phase : Phase := .looking
  /-- Whether anybody listens. -/
  heard : Bool := true
  /-- What the listener was told, last first. -/
  events : List Event := []

namespace Task

/-- Whether the task has ended. -/
def ended (t : Task) : Bool :=
  match t.phase with
  | .finished => true
  | _ => false

/-- Whether the task waits and was not asked yet. -/
def idle (t : Task) : Bool :=
  match t.phase with
  | .waiting _ asked => !asked
  | _ => false

/-- Whether the task waits and was asked. -/
def asked (t : Task) : Bool :=
  match t.phase with
  | .waiting _ asked => asked
  | _ => false

/-- Ask a task not to wait any longer. -/
def ask (t : Task) : Task :=
  match t.phase with
  | .waiting wake _ => { t with phase := .waiting wake true }
  | _ => t

/-- Tell the listener. -/
def tell (t : Task) (event : Event) : Task :=
  if t.heard then { t with events := event :: t.events } else t

/-- What the listener was told, and whether it will not be told anything more. -/
def observe (t : Task) : List Event × Bool :=
  (t.events.reverse, t.heard && t.ended)

end Task

/-- A checkpoint with the tasks of its starts.  Those who wait stand in line in the order of the
list. -/
structure Vigil extends Terms where
  /-- The store. -/
  store : Store := {}
  /-- The time. -/
  now : Nat := 0
  /-- Whether it can be stopped, and not started. -/
  started : Bool := false
  /-- Whether the fields were handed over and it was neither started nor stopped since. -/
  ready : Bool := false
  /-- Whether a request is kept. -/
  permit : Bool := false
  /-- How often it was started. -/
  starts : Nat := 0
  /-- The tasks. -/
  tasks : List Task := []

namespace Vigil

/-! ## Requests -/

/-- Ask the first in line. -/
def askFirst? : List Task → Option (List Task)
  | [] => none
  | t :: rest => if t.idle then some (t.ask :: rest) else (askFirst? rest).map (t :: ·)

/-- Ask the first in line, or keep the request. -/
def notify (v : Vigil) : Vigil :=
  match askFirst? v.tasks with
  | some tasks => { v with tasks }
  | none => { v with permit := true }

/-- Pass on a request that was not used, if there is one. -/
def pass (v : Vigil) (asked : Bool) : Vigil :=
  if asked then v.notify else v

/-! ## Calls of the owner -/

/-- Start a task. -/
def start (v : Vigil) : Except Failure Unit × Vigil :=
  if v.started then (.error (.alreadyStarted component), v)
  else
    (.ok (), { v with
      started := true
      ready := false
      starts := v.starts + 1
      tasks := v.tasks ++ [{ number := v.starts }] })

/-- Tell the task to end. -/
def stop (v : Vigil) : Except Failure Unit × Vigil :=
  if v.started then
    (.ok (), { v with
      started := false
      ready := false
      tasks := v.tasks.map fun t => { t with stopped := true } })
  else (.error (.notStarted component), v)

/-- Nobody listens to a start any longer. -/
def deafen (v : Vigil) (number : Nat) : Vigil :=
  { v with tasks := v.tasks.map fun t =>
      if t.number = number then { t with heard := false, events := [] } else t }

/-! ## Turns of a task

In each of these the tasks are those before the one whose turn it is, that one, and those after it. -/

section

variable (v : Vigil) (before : List Task) (t : Task) (after : List Task)

/-- What the store answers when it is asked. -/
def answer : Except Failure (Keyed String) :=
  (v.store.readHash v.key).1

/-- The task asks the store. -/
def call : Vigil :=
  { v with
    store := (v.store.readHash v.key).2
    tasks := before ++ { t with phase := .called v.answer } :: after }

/-- The task tells its listener about an answer.  Then it ends, or it goes to the end of the line, and
takes a request that was kept. -/
def conclude (event : Event) : Vigil :=
  match event with
  | .ready _ => { v with
      ready := true
      tasks := before ++ { t.tell event with phase := .finished } :: after }
  | .retry =>
    if t.heard then
      { v with
        permit := false
        tasks := before ++ after ++
          [{ t.tell event with phase := .waiting (v.now + v.retry) v.permit }] }
    else { v with tasks := before ++ { t with phase := .finished } :: after }

/-- The task waits no longer.  At the end of the interval it has not used a request. -/
def wake (wake : Wake) : Vigil :=
  pass { v with tasks := before ++ { t with phase := .looking } :: after }
    (t.asked && wake = .timer)

/-- The task ends without having used a request. -/
def leave : Vigil :=
  pass { v with tasks := before ++ { t with phase := .finished } :: after } t.asked

end

/-! ## Runs -/

/-- What happens: calls of the owner with their success, turns of the task of a start, and changes
around them.  A turn that concludes shows what the listener is told. -/
inductive Act where
  | start (success : Bool)
  | stop (success : Bool)
  | requestCheck
  | deafen (number : Nat)
  | call (number : Nat)
  | conclude (number : Nat) (event : Event)
  | wake (number : Nat) (wake : Wake)
  | leave (number : Nat)
  | time (moment : Nat)
  | surroundings

/-- One thing that may happen to a checkpoint and its tasks. -/
inductive Step : Vigil → Act → Vigil → Prop where
  | start (v : Vigil) : Step v (.start v.start.1.isOk) v.start.2
  | stop (v : Vigil) : Step v (.stop v.stop.1.isOk) v.stop.2
  | requestCheck (v : Vigil) : Step v .requestCheck v.notify
  | deafen (v : Vigil) (number : Nat) : Step v (.deafen number) (v.deafen number)
  | call {v : Vigil} {before : List Task} {t : Task} {after : List Task} :
      v.tasks = before ++ t :: after → t.phase = .looking →
      Step v (.call t.number) (v.call before t after)
  | conclude {v : Vigil} {before : List Task} {t : Task} {after : List Task}
      {answer : Except Failure (Keyed String)} :
      v.tasks = before ++ t :: after → t.phase = .called answer →
      Step v (.conclude t.number (v.verdict answer)) (v.conclude before t after (v.verdict answer))
  | request {v : Vigil} {before : List Task} {t : Task} {after : List Task} {wake : Nat} :
      v.tasks = before ++ t :: after → t.phase = .waiting wake true →
      Step v (.wake t.number .request) (v.wake before t after .request)
  | timer {v : Vigil} {before : List Task} {t : Task} {after : List Task} {wake : Nat} {asked : Bool} :
      v.tasks = before ++ t :: after → t.phase = .waiting wake asked → wake ≤ v.now →
      Step v (.wake t.number .timer) (v.wake before t after .timer)
  | leave {v : Vigil} {before : List Task} {t : Task} {after : List Task} :
      v.tasks = before ++ t :: after → t.stopped = true → t.ended = false →
      Step v (.leave t.number) (v.leave before t after)
  | time {v : Vigil} {moment : Nat} : v.now ≤ moment → Step v (.time moment) { v with now := moment }
  | surroundings (v : Vigil) (store : Store) : Step v .surroundings { v with store }

end Vigil
end Checkpoint
end Uplink
