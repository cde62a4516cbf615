/-!
# The states of a watcher
-/

namespace Uplink
namespace Watcher

/-- How far a watcher is. -/
inductive State where
  /-- It has never been started. -/
  | idle
  /-- It has been started and has not acquired anything yet. -/
  | starting
  /-- It has nothing, or has lost it, and tries again. -/
  | retrying
  /-- It is ready. -/
  | ready
  /-- It has been stopped. -/
  | stopped
  deriving DecidableEq, Repr, Inhabited

namespace State

/-- All states, in the order of their declaration. -/
def all : List State :=
  [idle, starting, retrying, ready, stopped]

/-- The name of a state. -/
def name : State → String
  | idle => "idle"
  | starting => "starting"
  | retrying => "retrying"
  | ready => "ready"
  | stopped => "stopped"

/-- The state with the given name. -/
def ofName? (text : String) : Option State :=
  all.find? fun state => state.name = text

/-- Whether the watcher can be stopped, and not started. -/
def isStarted : State → Bool
  | idle | stopped => false
  | _ => true

end State
end Watcher
end Uplink
