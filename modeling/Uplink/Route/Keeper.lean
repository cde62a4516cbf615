import Uplink.Route.Check
import Uplink.Watcher.Rest

/-!
# Keeping the route

The route is checked again and again, at a fixed interval.  The watcher is ready after a cycle that
found everything in place, and not ready after any other cycle.
-/

namespace Uplink
namespace Route

/-- The state of the route beside that of its watcher. -/
structure Keeper where
  /-- What the route is checked with. -/
  checker : Checker := {}
  /-- When the next cycle is due. -/
  nextCheck : Nat := 0
  deriving Inhabited

namespace Keeper

/-- Start on a task: the first cycle is due at once. -/
def enter (task : Watcher.Task) (_ : Nat) (_ : Config) (now : Nat) (keeper : Keeper) : Keeper :=
  match task with
  | .drive => { keeper with nextCheck := now }
  | _ => keeper

/-- Check when it is due. -/
def drive (keeper : Keeper) (config : Config) (now : Nat) : Watcher.Act Keeper :=
  if now < keeper.nextCheck then .wait (some keeper.nextCheck)
  else
    let (status, checker) := keeper.checker.check config
    .work { checker, nextCheck := now + max 1 config.interval.toNat }
      { notes := [status.note], ready := some (status = .ready) }

/-- What is done about a task. -/
def act (task : Watcher.Task) (config : Config) (now : Nat) (_ : Bool) (keeper : Keeper) :
    Watcher.Act Keeper :=
  match task with
  | .drive => keeper.drive config now
  | _ => .finish keeper true

/-- The route as a resource. -/
def resource : Watcher.Resource Keeper Config where
  readyOnAcquire := false
  enter := enter
  act := act
  energy _ now keeper := if now < keeper.nextCheck then 0 else 1
  energy_lt := by
    intro task config now permit keeper next deed h
    unfold act at h
    split at h
    · unfold drive at h
      split at h
      · cases h
      · rename_i hdue
        simp only [Watcher.Act.work.injEq] at h
        have hlater : now < next.nextCheck := by
          rw [← h.1]
          dsimp only
          omega
        simp [hdue, hlater]
    · cases h

end Keeper

/-- The route with its watcher. -/
abbrev Watched := Watcher Keeper Config

namespace Watched

/-- The watcher of a route before it is started. -/
def of (shell : Shell) (retry : Nat) : Watched :=
  { name := "pppd", retry, resource := { checker := { shell } } }

/-- The watcher with another checker. -/
def withChecker (w : Watched) (checker : Checker) : Watched :=
  w.withResource { w.resource with checker }

/-- Check beside the cycles of the watcher: the status is published, and readiness is left alone. -/
def check (w : Watched) (config : Config) : Status × Watched :=
  let (status, checker) := w.resource.checker.check config
  (status, (w.withChecker checker).note status.note)

/-- The output of a command, as it is kept or made anew. -/
def output (w : Watched) (key command : String) (anew : Bool) : Except Failure String × Watched :=
  let (result, checker) := w.resource.checker.output key command anew
  (result, w.withChecker checker)

/-- Change the shell. -/
def withShell (w : Watched) (shell : Shell) : Watched :=
  w.withChecker { w.resource.checker with shell }

end Watched
end Route
end Uplink
