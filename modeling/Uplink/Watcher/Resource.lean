import Uplink.Note

/-!
# Resources

A resource is acquired, driven and released again, each of which may take time and may go well or
not.  What a resource does is given step by step: at a moment of time it either waits, or works, or
comes to the end of its task.  A resource does only so much work at one moment; its `energy` bounds
how much.
-/

namespace Uplink
namespace Watcher

/-- What a resource is asked to do. -/
inductive Task where
  /-- Get hold of the resource. -/
  | acquire
  /-- Make use of it. -/
  | drive
  /-- Let it go. -/
  | release
  deriving DecidableEq, Repr

/-- What a piece of work shows to the outside. -/
structure Deed where
  /-- The notes that are published, in order. -/
  notes : List Note := []
  /-- Whether the resource is ready from now on, if that is said. -/
  ready : Option Bool := none
  /-- Whether the request to check is answered. -/
  usesPermit : Bool := false
  deriving DecidableEq, Repr

/-- What a resource in state `σ` does at a moment. -/
inductive Act (σ : Type) where
  /-- It waits: for the given time, or else for its surroundings. -/
  | wait (due : Option Nat)
  /-- It works. -/
  | work (next : σ) (deed : Deed)
  /-- It comes to the end of its task, well or not. -/
  | finish (next : σ) (success : Bool)

/-- A resource with states `σ` that is acquired with arguments `α`. -/
structure Resource (σ α : Type) where
  /-- Whether the watcher is ready as soon as the resource is acquired. -/
  readyOnAcquire : Bool
  /-- Start on a task: for the given run, with its arguments, at the given time. -/
  enter : Task → Nat → α → Nat → σ → σ
  /-- What is done about a task with given arguments, at a given time, with or without a request to
  check. -/
  act : Task → α → Nat → Bool → σ → Act σ
  /-- How much work may be left at a given time. -/
  energy : Task → Nat → σ → Nat
  /-- Work leaves less work. -/
  energy_lt : ∀ {task args now permit state next deed},
    act task args now permit state = .work next deed → energy task now next < energy task now state

end Watcher
end Uplink
