import Uplink.Route.Keeper

/-!
# A checker that is shared

A check runs one command after another, and the shell takes its time to answer each.  The cycles of
the watcher and the calls from outside share one checker, and whoever has it keeps it to the end.
`Keeper` makes a whole cycle at once, and `Watched.check` and `Watched.output` make a whole call at
once; here each command is a part by itself, and other things happen between a command and its answer.

A run that is stopped lets its cycle go where it is.  What was kept of the answers stays kept, and a
command that was sent to the shell is not called back.
-/

namespace Uplink
namespace Route

/-- What the shell answers to a command. -/
abbrev Answer : Type :=
  Except Failure CommandOutput

/-- What comes next, once some commands were answered. -/
inductive Next (ρ : Type) where
  /-- A command for its output, which is kept under a name. -/
  | look (key command : String)
  /-- A command for what it brings about. -/
  | mend (command : String)
  /-- The end, with what came of it. -/
  | done (result : ρ)

/-- The output of a command, if it succeeded. -/
def told (command : String) (answer : Answer) : Except Failure String :=
  (({} : OutputCache).keep "" command answer).1

/-! ## A check, part by part -/

/-- Bring about what is missing, whatever the shell answers. -/
def mending (command : String) (status : Status) : List Answer → Next Status
  | [] => .mend command
  | _ => .done status

/-- The part of a check that is about the route table, by the answers from there on. -/
def tableNext (config : Config) : List Answer → Next Status
  | [] => .look "route" tableCommand
  | table :: answers =>
    match told tableCommand table with
    | .ok table =>
      if hasRoute table config.subnet then .done .ready
      else mending config.addCommand .routeAdded answers
    | .error _ => .done .error

/-- A check, by the answers it has got so far. -/
def checkNext (config : Config) : List Answer → Next Status
  | [] => .look "pppstats" statsCommand
  | stats :: answers =>
    match told statsCommand stats with
    | .ok stats => if Text.contains stats statsMark then tableNext config answers else .done .error
    | .error (.shell _ _ told) =>
      if Text.contains told missingMark then mending dialCommand .dialing answers else .done .error
    | .error _ => .done .error

/-- A command for its output, as it is kept or made anew. -/
def outputNext (key command : String) (anew : Bool) (cache : OutputCache) :
    List Answer → Next (Except Failure String)
  | [] =>
    match if anew then none else cache.outputs.find? key with
    | some output => .done (.ok output)
    | none => .look key command
  | answer :: _ => .done (told command answer)

/-! ## The checker -/

/-- What is asked from outside. -/
inductive Call where
  /-- A check beside the cycles. -/
  | check (config : Config)
  /-- The output of a command. -/
  | output (key command : String) (anew : Bool)
  deriving DecidableEq

/-- What a call from outside ends with. -/
inductive Reply where
  /-- The status that was found. -/
  | checked (status : Status)
  /-- The output of the command. -/
  | fetched (output : Except Failure String)

/-- What is published when a call ends. -/
def Reply.notes : Reply → List Note
  | checked status => [status.note]
  | fetched _ => []

/-- Who has the checker. -/
inductive User where
  /-- A cycle of the watcher. -/
  | cycle
  /-- A call from outside. -/
  | outside (call : Call)
  deriving DecidableEq

/-- A use of the checker. -/
structure Use where
  /-- Who has it. -/
  user : User
  /-- The answers that were looked at, the first one first. -/
  answers : List Answer := []
  /-- The answer that came since. -/
  answer : Option Answer := none

/-- A checker with its use. -/
structure Station where
  /-- The outputs that are kept. -/
  cache : OutputCache := {}
  /-- The use that is made of the checker. -/
  use : Option Use := none
  /-- When the next cycle is due. -/
  nextCheck : Nat := 0

namespace Station

variable {ρ : Type}

/-- Go on after some answers: send the next command, or leave the checker. -/
def proceed (s : Station) (user : User) (next : OutputCache → List Answer → Next ρ)
    (answers : List Answer) : Option ρ × Station :=
  match next s.cache answers with
  | .look key _ =>
    (none, { s with cache := ⟨s.cache.outputs.erase key⟩, use := some { user, answers } })
  | .mend _ => (none, { s with use := some { user, answers } })
  | .done result => (some result, { s with use := none })

/-- Keep the answer to a command that was run for its output. -/
def keep (s : Station) (next : Next ρ) (answer : Answer) : Station :=
  match next with
  | .look key command => { s with cache := (s.cache.keep key command answer).2 }
  | _ => s

/-- Look at an answer, and go on. -/
def hear (s : Station) (user : User) (next : OutputCache → List Answer → Next ρ)
    (answers : List Answer) (answer : Answer) : Option ρ × Station :=
  (s.keep (next s.cache answers) answer).proceed user next (answers ++ [answer])

/-- The shell answers. -/
def answered (s : Station) (use : Use) (answer : Answer) : Station :=
  { s with use := some { use with answer := some answer } }

/-- Let the checker go. -/
def leave (s : Station) : Station :=
  { s with use := none }

/-! ## Calls from outside -/

/-- A call gets the checker. -/
def take (s : Station) : Call → Option Reply × Station
  | .check config =>
    (s.proceed (.outside (.check config)) (fun _ => checkNext config) []).map
      (Option.map .checked) id
  | .output key command anew =>
    (s.proceed (.outside (.output key command anew)) (outputNext key command anew) []).map
      (Option.map .fetched) id

/-- A call looks at an answer. -/
def resume (s : Station) (answers : List Answer) (answer : Answer) : Call → Option Reply × Station
  | .check config =>
    (s.hear (.outside (.check config)) (fun _ => checkNext config) answers answer).map
      (Option.map .checked) id
  | .output key command anew =>
    (s.hear (.outside (.output key command anew)) (outputNext key command anew) answers answer).map
      (Option.map .fetched) id

/-! ## Cycles -/

/-- What a part of a cycle comes to.  At the end of the cycle the status is published, and the next
cycle is put off. -/
def outcome (config : Config) (now : Nat) : Option Status × Station → Watcher.Act Station
  | (none, s) => .work s {}
  | (some status, s) =>
    .work { s with nextCheck := now + max 1 config.interval.toNat }
      { notes := [status.note], ready := some (status = .ready) }

/-- Check when it is due and the checker is free, and go on with each answer. -/
def drive (s : Station) (config : Config) (now : Nat) : Watcher.Act Station :=
  match s.use with
  | none =>
    if now < s.nextCheck then .wait (some s.nextCheck)
    else outcome config now (s.proceed .cycle (fun _ => checkNext config) [])
  | some ⟨.cycle, answers, some answer⟩ =>
    outcome config now (s.hear .cycle (fun _ => checkNext config) answers answer)
  | some ⟨.cycle, _, none⟩ => .wait none
  | some ⟨.outside _, _, _⟩ => .wait (if now < s.nextCheck then some s.nextCheck else none)

/-- Start on a task: the first cycle is due at once, and a cycle is let go with its run. -/
def enter (task : Watcher.Task) (_ : Nat) (_ : Config) (now : Nat) (s : Station) : Station :=
  match task, s.use with
  | .drive, _ => { s with nextCheck := now }
  | .release, some ⟨.cycle, _, _⟩ => s.leave
  | _, _ => s

/-- What is done about a task. -/
def act (task : Watcher.Task) (config : Config) (now : Nat) (_ : Bool) (s : Station) :
    Watcher.Act Station :=
  match task with
  | .drive => s.drive config now
  | _ => .finish s true

/-- How much there is to do at a moment. -/
def energy (now : Nat) (s : Station) : Nat :=
  match s.use with
  | none => if now < s.nextCheck then 0 else 1
  | some ⟨.cycle, _, some _⟩ => 1
  | _ => 0

section

variable {s next : Station} {user : User} {plan : OutputCache → List Answer → Next ρ}
  {answers : List Answer} {answer : Answer} {config : Config} {now : Nat} {deed : Watcher.Deed}

/-- Whoever has the checker keeps it for the next command, or is at the end and lets it go. -/
inductive Proceeded (nextCheck : Nat) (user : User) (answers : List Answer) (next : Next ρ) :
    Option ρ × Station → Prop where
  | goesOn {s : Station} : (∀ result, next ≠ .done result) → s.use = some { user, answers } →
      s.nextCheck = nextCheck → Proceeded nextCheck user answers next (none, s)
  | ends {result : ρ} {s : Station} : next = .done result → s.use = none →
      s.nextCheck = nextCheck → Proceeded nextCheck user answers next (some result, s)

theorem proceeded_proceed (s : Station) (user : User) (plan : OutputCache → List Answer → Next ρ)
    (answers : List Answer) :
    Proceeded s.nextCheck user answers (plan s.cache answers) (s.proceed user plan answers) := by
  unfold proceed
  cases hnext : plan s.cache answers with
  | look key command => exact .goesOn nofun rfl rfl
  | mend command => exact .goesOn nofun rfl rfl
  | done result => exact .ends rfl rfl rfl

theorem nextCheck_keep (s : Station) (next : Next ρ) (answer : Answer) :
    (s.keep next answer).nextCheck = s.nextCheck := by
  unfold keep
  split <;> rfl

theorem proceeded_hear (s : Station) (user : User) (plan : OutputCache → List Answer → Next ρ)
    (answers : List Answer) (answer : Answer) :
    Proceeded s.nextCheck user (answers ++ [answer])
      (plan (s.keep (plan s.cache answers) answer).cache (answers ++ [answer]))
      (s.hear user plan answers answer) := by
  rw [← nextCheck_keep s (plan s.cache answers) answer]
  exact proceeded_proceed _ user plan _

/-- A part of a cycle: its beginning, its going on, or its end. -/
inductive Part (config : Config) (now : Nat) (s next : Station) : Watcher.Deed → Prop where
  | begins : s.use = none → s.nextCheck ≤ now → next.use = some { user := .cycle } →
      next.nextCheck = s.nextCheck → Part config now s next {}
  | goesOn {answers : List Answer} {answer : Answer} :
      s.use = some ⟨.cycle, answers, some answer⟩ →
      (∀ status, checkNext config (answers ++ [answer]) ≠ .done status) →
      next.use = some { user := .cycle, answers := answers ++ [answer] } →
      next.nextCheck = s.nextCheck → Part config now s next {}
  | ends {answers : List Answer} {answer : Answer} {status : Status} :
      s.use = some ⟨.cycle, answers, some answer⟩ →
      checkNext config (answers ++ [answer]) = .done status → next.use = none →
      next.nextCheck = now + max 1 config.interval.toNat →
      Part config now s next { notes := [status.note], ready := some (status = .ready) }

/-- The work of a cycle is one of its parts. -/
theorem part_of_drive (h : s.drive config now = .work next deed) : Part config now s next deed := by
  unfold drive at h
  split at h
  · rename_i huse
    split at h
    · cases h
    · rename_i hdue
      cases h
      exact .begins huse (Nat.le_of_not_lt hdue) rfl rfl
  · rename_i answers answer huse
    generalize hheard : s.hear .cycle (fun _ => checkNext config) answers answer = heard at h
    have hproceeded := proceeded_hear s .cycle (fun _ => checkNext config) answers answer
    rw [hheard] at hproceeded
    cases hproceeded with
    | goesOn hnext huse' hcheck =>
        cases h
        exact .goesOn huse hnext huse' hcheck
    | ends hnext huse' _ =>
        cases h
        exact .ends huse hnext huse' rfl
  · cases h
  · cases h

/-- A part of a cycle takes energy, which only time gives back. -/
theorem energy_of_drive (h : s.drive config now = .work next deed) :
    energy now next < energy now s := by
  unfold energy
  cases part_of_drive h with
  | begins huse hdue huse' =>
      rw [huse, huse']
      simp [Nat.not_lt.mpr hdue]
  | goesOn huse _ huse' => simp [huse, huse']
  | ends huse _ huse' hcheck =>
      have hlater : now < next.nextCheck := by
        rw [hcheck]
        omega
      simp [huse, huse', hlater]

theorem energy_of_act {task : Watcher.Task} {permit : Bool}
    (h : act task config now permit s = .work next deed) : energy now next < energy now s := by
  cases task with
  | drive => exact energy_of_drive h
  | _ => cases h

end

/-- A checker that is shared, as a resource. -/
def resource : Watcher.Resource Station Config where
  readyOnAcquire := false
  enter := enter
  act := act
  energy _ := energy
  energy_lt := energy_of_act

end Station

/-- A route with its watcher, over a checker that is shared. -/
abbrev Watch := Watcher Station Config

namespace Watch

/-- Let a call go on, and publish what it ends with. -/
def reply (w : Watch) (outcome : Option Reply × Station) : Watch :=
  let w := w.withResource outcome.2
  { w with notes := w.notes.publishAll (outcome.1.toList.flatMap Reply.notes) }

end Watch
end Route
end Uplink
