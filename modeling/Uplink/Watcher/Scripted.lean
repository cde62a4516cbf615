import Uplink.Watcher.Rest

/-!
# A resource that follows a script

To watch a watcher at work, its resource can follow a script: one plan for each acquisition says how
long each task takes and how it ends.  The resource writes down what it is asked to do.
-/

namespace Uplink
namespace Watcher

/-- What a scripted resource does from one acquisition to its release.  Times are in
milliseconds. -/
structure Plan where
  /-- How long the acquisition takes. -/
  acquireDelay : Option Nat := none
  /-- Whether the acquisition succeeds. -/
  acquires : Bool := true
  /-- What is said about readiness, once for each request to check. -/
  checks : List Bool := []
  /-- How long the drive goes on after the checks. -/
  driveDelay : Option Nat := none
  /-- Whether the drive ends well; without it the drive never ends. -/
  driveEnds : Option Bool := none
  /-- How long the release takes. -/
  releaseDelay : Option Nat := none
  deriving DecidableEq, Repr, Inhabited

/-- The state of a scripted resource. -/
structure Script where
  /-- The plans; the last one is followed again and again. -/
  plans : List Plan := []
  /-- How many acquisitions were begun. -/
  begun : Nat := 0
  /-- The plan that is followed. -/
  plan : Plan := {}
  /-- The run that began the last acquisition. -/
  lastRun : Option Nat := none
  /-- The checks that are left. -/
  checks : List Bool := []
  /-- Until when the present task waits. -/
  wake : Nat := 0
  /-- What was written down, last first. -/
  log : List String := []
  deriving Repr, Inhabited

namespace Script

/-- The plan of an acquisition. -/
def planOf (script : Script) (index : Nat) : Plan :=
  match script.plans[index]? with
  | some plan => plan
  | none => script.plans.getLast?.getD {}

/-- The number of the acquisition that was begun last. -/
def index (script : Script) : Nat :=
  script.begun - 1

/-- Write something down. -/
def write (script : Script) (words : List String) : Script :=
  { script with log := " ".intercalate words :: script.log }

/-- The number of the acquisition as text. -/
def indexText (script : Script) : String :=
  toString script.index

/-- The time after a delay. -/
def after (now : Nat) (delay : Option Nat) : Nat :=
  now + delay.getD 0

/-- Start on a task. -/
def enter (task : Task) (run : Nat) (args : String) (now : Nat) (script : Script) : Script :=
  match task with
  | .acquire =>
    let plan := script.planOf script.begun
    { script with
      plan
      begun := script.begun + 1
      lastRun := some run
      wake := after now plan.acquireDelay }
      |>.write ["open", toString script.begun, args]
  | .drive =>
    { script with
      checks := script.plan.checks
      wake := after now script.plan.driveDelay }
      |>.write ["run", script.indexText, args]
  | .release =>
    let script := { script with wake := after now script.plan.releaseDelay }
    if script.plan.releaseDelay.isSome then script.write ["closing", script.indexText] else script

/-- Say whether the resource is ready. -/
def check (script : Script) (now : Nat) (flag : Bool) (rest : List Bool) : Act Script :=
  .work
    ({ script with checks := rest, wake := after now script.plan.driveDelay }
      |>.write ["check", script.indexText, toString flag])
    { notes := [if flag then .ready else .route], ready := some flag, usesPermit := true }

/-- What is done about a task. -/
def act (task : Task) (_ : String) (now : Nat) (permit : Bool) (script : Script) : Act Script :=
  match task with
  | .acquire =>
    if now < script.wake then .wait (some script.wake) else .finish script script.plan.acquires
  | .drive =>
    match script.checks with
    | flag :: rest => if permit then script.check now flag rest else .wait none
    | [] =>
      if now < script.wake then .wait (some script.wake)
      else
        match script.plan.driveEnds with
        | some success => .finish script success
        | none => .wait none
  | .release =>
    if now < script.wake then .wait (some script.wake)
    else .finish (script.write ["close", script.indexText]) true

/-- The scripted resource. -/
def resource (readyOnAcquire : Bool) : Resource Script String where
  readyOnAcquire := readyOnAcquire
  enter := enter
  act := act
  energy _ _ script := script.checks.length
  energy_lt := by
    intro task args now permit state next deed h
    unfold act at h
    split at h
    · split at h <;> cases h
    · split at h
      · rename_i flag rest hchecks
        split at h
        · simp only [check, Act.work.injEq] at h
          rw [← h.1, hchecks]
          simp [write]
        · cases h
      · split at h
        · cases h
        · split at h <;> cases h
    · split at h <;> cases h

end Script
end Watcher
end Uplink
