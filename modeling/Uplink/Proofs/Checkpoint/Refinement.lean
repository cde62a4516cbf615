import Uplink.Proofs.Checkpoint.Requests

/-!
# A checkpoint by its tasks

`Checkpoint` has one stage where a vigil has tasks.  A look is there a call and its answer in one, and a
task that is stopped is gone.  So what happens to a checkpoint is a run of its tasks, in which the store
answers at once and a task that is stopped ends at once.  All that is proved of the tasks holds of such a
checkpoint, and so of what `settle` and `advance` do.
-/

namespace Uplink
namespace Checkpoint
namespace Vigil

/-- What a task does at a stage. -/
def phaseOf : Option Stage → Phase
  | none => .finished
  | some .looking => .looking
  | some (.waiting wake asked) => .waiting wake asked

/-- The last task does what the checkpoint does, and those before it have ended. -/
structure Leads (c : Checkpoint) (former : List Task) (t : Task) : Prop where
  former_ended : ∀ x ∈ former, x.ended = true
  former_lt : ∀ x ∈ former, x.number < t.number
  phase : t.phase = phaseOf c.stage
  current : c.stage ≠ none → t.stopped = false
  heard : t.heard = c.heard
  events : t.events = c.events

/-- The tasks of a vigil, where a checkpoint has its stage. -/
inductive Follows (c : Checkpoint) (starts : ℕ) (tasks : List Task) : Prop where
  | none (starts : starts = 0) (tasks : tasks = []) (stage : c.stage = none)
  | some {former : List Task} {t : Task} (leads : Leads c former t) (starts : starts = t.number + 1)
      (tasks : tasks = former ++ [t])

/-- A vigil shows a checkpoint and its store. -/
structure Mirrors (s : Scene) (v : Vigil) : Prop where
  terms : v.toTerms = s.checkpoint.toTerms
  store : v.store = s.store
  now : v.now = s.checkpoint.now
  started : v.started = s.checkpoint.started
  ready : v.ready = s.checkpoint.ready
  permit : v.permit = s.checkpoint.permit
  on : s.checkpoint.stage ≠ none → s.checkpoint.started = true
  tasks : Follows s.checkpoint v.starts v.tasks

/-- What happens to the tasks where a thing happens to the checkpoint. -/
inductive Shows (s : Scene) : Label → List Act → Prop where
  | start (success : Bool) : Shows s (.start success) [.start success]
  | stop (success : Bool) : Shows s (.stop success) [.stop success]
  | left (number : ℕ) : Shows s (.stop true) [.stop true, .leave number]
  | requestCheck : Shows s .requestCheck [.requestCheck]
  | deafen (number : ℕ) : Shows s .deafen [.deafen number]
  | look (number : ℕ) : Shows s .look [.call number, .conclude number s.yield]
  | wake (number : ℕ) (wake : Wake) : Shows s (.wake wake) [.wake number wake]
  | time (moment : ℕ) : Shows s (.time moment) [.time moment]
  | surroundings : Shows s .surroundings [.surroundings]

/-- A row of turns in which one thing happens to the checkpoint. -/
structure Part (m : Checkpoint.Moment) (row : List Moment) : Prop where
  shows : Shows m.scene m.label (row.map Moment.act)
  obedient : ∀ x ∈ row, x.Obedient
  prompt : m.Prompt → ∀ x ∈ row, x.Prompt

section

variable {s next first last : Scene} {label : Label} {v : Vigil} {c : Checkpoint}
  {former : List Task} {t : Task} {act : Act} {moments : List Checkpoint.Moment}

/-- A checkpoint that was never started has no tasks. -/
theorem exists_fresh_mirrors (h : Checkpoint.Fresh s.checkpoint) : ∃ v, Fresh v ∧ Mirrors s v := by
  refine ⟨{ s.checkpoint.toTerms with store := s.store, now := s.checkpoint.now },
    ⟨rfl, rfl, rfl, rfl, rfl⟩, ?_⟩
  exact ⟨rfl, rfl, rfl, h.started.symm, h.ready.symm, h.permit.symm, fun hstage => absurd h.stage hstage,
    .none rfl rfl h.stage⟩

/-! ## The line where one task goes on -/

theorem askFirst?_of_ended (h : ∀ x ∈ former, x.ended = true) :
    askFirst? (former ++ [t]) = if t.idle then some (former ++ [t.ask]) else none := by
  induction former with
  | nil => simp [askFirst?]
  | cons x rest ih =>
      obtain ⟨hx, hrest⟩ := List.forall_mem_cons.mp h
      have hidle : x.idle = false := by
        refine eq_false_of_ne_true fun hidle => ?_
        obtain ⟨wake, hphase⟩ := exists_of_idle hidle
        have hgoing : x.ended = false := by rw [Task.ended, hphase]
        cases hgoing.symm.trans hx
      rw [List.cons_append, askFirst?, hidle, ih hrest]
      cases t.idle <;> rfl

/-- A request goes to the last task, if that one waits, for all others have ended. -/
theorem notify_of_ended (h : ∀ x ∈ former, x.ended = true) (htasks : v.tasks = former ++ [t]) :
    v.notify = if t.idle then { v with tasks := former ++ [t.ask] } else { v with permit := true } := by
  rw [notify, htasks, askFirst?_of_ended h]
  cases t.idle <;> rfl

/-- A request that is passed on by a task that does not wait is kept. -/
theorem pass_of_ended (h : ∀ x ∈ former, x.ended = true) (htasks : v.tasks = former ++ [t])
    (hidle : t.idle = false) (asked : Bool) :
    v.pass asked = { v with permit := v.permit || asked } := by
  cases asked with
  | false => rw [pass, Bool.or_false]; rfl
  | true => rw [pass, if_pos rfl, notify_of_ended h htasks, hidle, Bool.or_true]; rfl

/-! ## What the tasks do in one step -/

/-- The task that goes on may be changed together with the checkpoint. -/
theorem Leads.change {c' : Checkpoint} (h : Leads c former t) (t' : Task)
    (hnumber : t'.number = t.number) (hphase : t'.phase = phaseOf c'.stage)
    (hcurrent : c'.stage ≠ none → t'.stopped = false) (hheard : t'.heard = c'.heard)
    (hevents : t'.events = c'.events) : Leads c' former t' where
  former_ended := h.former_ended
  former_lt x hx := hnumber ▸ h.former_lt x hx
  phase := hphase
  current := hcurrent
  heard := hheard
  events := hevents

/-- A stage is what the last task does. -/
theorem Mirrors.exists_leads (h : Mirrors s v) (hstage : s.checkpoint.stage ≠ none) :
    ∃ former t, v.starts = t.number + 1 ∧ v.tasks = former ++ [t] ∧ t.stopped = false ∧
      Leads s.checkpoint former t := by
  cases h.tasks with
  | none _ _ hnone => exact absurd hnone hstage
  | some hleads hstarts htasks => exact ⟨_, _, hstarts, htasks, hleads.current hstage, hleads⟩

/-- A turn of a task that was not stopped is no turn of one that was, for their numbers differ. -/
theorem obedient_of_last (hlt : ∀ x ∈ former, x.number < t.number) (htasks : v.tasks = former ++ [t])
    (hcurrent : t.stopped = false) (hturn : act.turnOf? = some t.number) :
    Moment.Obedient ⟨v, act⟩ := by
  intro x hx hstopped hxturn
  have hnumber : x.number = t.number := Option.some.inj (hxturn.symm.trans hturn)
  replace hx : x ∈ former ++ [t] := htasks ▸ hx
  rcases List.mem_append.mp hx with hx | hx
  · exact absurd hnumber (Nat.ne_of_lt (hlt x hx))
  · rw [List.mem_singleton.mp hx] at hstopped
    cases hcurrent.symm.trans hstopped

theorem obedient_of_not_move (h : act.isMove = false) : Moment.Obedient ⟨v, act⟩ := by
  intro x _ _ hturn
  cases (Act.turnOf?_eq_none h).symm.trans hturn

theorem obedient_of_leave {number : ℕ} : Moment.Obedient ⟨v, .leave number⟩ :=
  fun _ _ _ hturn => congrArg Act.leave (Option.some.inj hturn)

theorem prompt_of_not_time (h : ∀ moment, act ≠ .time moment) : Moment.Prompt ⟨v, act⟩ :=
  fun moment hact => absurd hact (h moment)

theorem Part.single {m : Checkpoint.Moment} {x : Moment} (hshows : Shows m.scene m.label [x.act])
    (hobedient : x.Obedient) (hprompt : m.Prompt → x.Prompt) : Part m [x] where
  shows := hshows
  obedient := List.forall_mem_singleton.mpr hobedient
  prompt h := List.forall_mem_singleton.mpr (hprompt h)

theorem Part.pair {m : Checkpoint.Moment} {x y : Moment}
    (hshows : Shows m.scene m.label [x.act, y.act]) (hx : x.Obedient ∧ x.Prompt)
    (hy : y.Obedient ∧ y.Prompt) : Part m [x, y] where
  shows := hshows
  obedient := List.forall_mem_cons.mpr ⟨hx.1, List.forall_mem_singleton.mpr hy.1⟩
  prompt _ := List.forall_mem_cons.mpr ⟨hx.2, List.forall_mem_singleton.mpr hy.2⟩

/-- At rest a checkpoint does nothing, or it waits and was not asked. -/
theorem stage_of_rest (h : move? s.store s.checkpoint = none) :
    s.checkpoint.stage = none ∨
      ∃ wake, s.checkpoint.stage = some (.waiting wake false) ∧ s.checkpoint.now < wake := by
  cases hstage : s.checkpoint.stage with
  | none => exact .inl rfl
  | some stage =>
      refine .inr ?_
      cases stage with
      | looking => simp [move?, hstage] at h
      | waiting wake asked =>
          have hdue : s.checkpoint.due? = some wake := by rw [due?, hstage]
          have hlt := lt_due_of_move?_eq_none h hdue
          cases asked with
          | false => exact ⟨wake, rfl, hlt⟩
          | true => simp [move?, awake?, hstage] at h

/-- Where it is prompt to let time pass over a checkpoint, it is so over its tasks. -/
theorem Mirrors.prompt_time (h : Mirrors s v) {moment : ℕ}
    (hprompt : Checkpoint.Moment.Prompt ⟨s, .time moment⟩) : Moment.Prompt ⟨v, .time moment⟩ := by
  rintro _ ⟨⟩
  obtain ⟨hrest, hdue⟩ := hprompt moment rfl
  cases h.tasks with
  | none _ htasks _ => simp [AtRest, htasks]
  | @some former t hleads _ htasks =>
      have hformer : ∀ x ∈ former, x.phase = .finished := by
        intro x hx
        have hended := hleads.former_ended x hx
        cases hphase : x.phase with
        | finished => rfl
        | looking | called | waiting => simp [Task.ended, hphase] at hended
      have hphase := hleads.phase
      rcases stage_of_rest hrest with hstage | ⟨wake, hstage, hlt⟩
      · rw [hstage, phaseOf] at hphase
        have hall : ∀ x ∈ v.tasks, x.phase = .finished := by
          rw [htasks, List.forall_mem_append, List.forall_mem_singleton]
          exact ⟨hformer, hphase⟩
        refine ⟨fun x hx => by rw [Task.rests, hall x hx], fun x hx wake asked hwait => ?_⟩
        cases (hall x hx).symm.trans hwait
      · have hle := hdue wake (by rw [due?, hstage])
        have hcurrent := hleads.current (hstage.trans_ne (Option.some_ne_none _))
        rw [hstage, phaseOf] at hphase
        rw [AtRest, htasks, List.forall_mem_append, List.forall_mem_append,
          List.forall_mem_singleton, List.forall_mem_singleton]
        refine ⟨⟨fun x hx => ?_, ?_⟩, fun x hx wake asked hwait => ?_, ?_⟩
        · rw [Task.rests, hformer x hx]
        · simp [Task.rests, hphase, hcurrent, h.now, hlt]
        · cases (hformer x hx).symm.trans hwait
        · intro due asked hwait
          cases hphase.symm.trans hwait
          exact hle

/-! ## Each step -/

theorem Mirrors.start (h : Mirrors s v) :
    v.start.1.isOk = s.checkpoint.start.1.isOk ∧
      Mirrors { s with checkpoint := s.checkpoint.start.2 } v.start.2 := by
  cases hstarted : s.checkpoint.started with
  | true =>
      rw [start_of_started (h.started.trans hstarted), Checkpoint.start_of_started hstarted]
      exact ⟨rfl, h⟩
  | false =>
      have hstage : s.checkpoint.stage = none := by
        by_contra hstage
        cases hstarted.symm.trans (h.on hstage)
      rw [start_of_not_started (h.started.trans hstarted), Checkpoint.start_of_not_started hstarted]
      refine ⟨rfl, h.terms, h.store, h.now, rfl, rfl, h.permit, fun _ => rfl, ?_⟩
      refine .some (t := { number := v.starts }) ⟨?_, ?_, rfl, fun _ => rfl, rfl, rfl⟩ rfl rfl
      · cases h.tasks with
        | none _ htasks _ => simp [htasks]
        | some hleads _ htasks =>
            rw [htasks, List.forall_mem_append, List.forall_mem_singleton]
            refine ⟨hleads.former_ended, ?_⟩
            rw [Task.ended, hleads.phase, hstage, phaseOf]
      · cases h.tasks with
        | none _ htasks _ => simp [htasks]
        | some hleads hstarts htasks =>
            rw [htasks, hstarts, List.forall_mem_append, List.forall_mem_singleton]
            exact ⟨fun x hx => Nat.lt_succ_of_lt (hleads.former_lt x hx), Nat.lt_succ_self _⟩

/-- The request goes to the task that goes on, where the checkpoint waits and was not asked. -/
theorem Leads.idle_eq_true_iff (h : Leads c former t) :
    t.idle = true ↔ ∃ wake, c.stage = some (.waiting wake false) := by
  rw [Task.idle, h.phase]
  rcases c.stage with - | - | ⟨wake, asked⟩
  · simp [phaseOf]
  · simp [phaseOf]
  · simp [phaseOf]

theorem requestCheck_of_idle {wake : ℕ} (h : c.stage = some (.waiting wake false)) :
    c.requestCheck = { c with stage := some (.waiting wake true) } := by
  rw [Checkpoint.requestCheck, h]

theorem requestCheck_of_not_idle (h : ∀ wake, c.stage ≠ some (.waiting wake false)) :
    c.requestCheck = { c with permit := true } := by
  unfold Checkpoint.requestCheck
  split
  · rename_i wake hstage
    exact absurd hstage (h wake)
  · rfl

theorem Mirrors.requestCheck (h : Mirrors s v) :
    Mirrors { s with checkpoint := s.checkpoint.requestCheck } v.notify := by
  cases h.tasks with
  | none hstarts htasks hstage =>
      rw [requestCheck_of_not_idle fun wake => hstage.trans_ne (Option.some_ne_none _).symm, notify, htasks]
      exact ⟨h.terms, h.store, h.now, h.started, h.ready, rfl, h.on, .none hstarts rfl hstage⟩
  | @some former t hleads hstarts htasks =>
      rw [notify_of_ended hleads.former_ended htasks]
      cases hidle : t.idle with
      | true =>
          obtain ⟨wake, hstage⟩ := hleads.idle_eq_true_iff.mp hidle
          have hphase : t.phase = .waiting wake false := by rw [hleads.phase, hstage, phaseOf]
          have hon : s.checkpoint.started = true := h.on (hstage.trans_ne (Option.some_ne_none _))
          have hcurrent := hleads.current (hstage.trans_ne (Option.some_ne_none _))
          rw [requestCheck_of_idle hstage, ask_of_waiting hphase]
          exact ⟨h.terms, h.store, h.now, h.started, h.ready, h.permit, fun _ => hon,
            .some (hleads.change { t with phase := .waiting wake true } rfl rfl
              (fun _ => hcurrent) hleads.heard hleads.events) hstarts rfl⟩
      | false =>
          have hnot : ∀ wake, s.checkpoint.stage ≠ some (.waiting wake false) := by
            intro wake hstage
            cases hidle.symm.trans (hleads.idle_eq_true_iff.mpr ⟨wake, hstage⟩)
          rw [requestCheck_of_not_idle hnot]
          exact ⟨h.terms, h.store, h.now, h.started, h.ready, rfl, h.on,
            .some (hleads.change _ rfl hleads.phase hleads.current hleads.heard hleads.events)
              hstarts htasks⟩

theorem Mirrors.deafen (h : Mirrors s v) :
    ∃ number, Mirrors { s with checkpoint := s.checkpoint.deafen } (v.deafen number) := by
  cases h.tasks with
  | none hstarts htasks hstage =>
      refine ⟨0, h.terms, h.store, h.now, h.started, h.ready, h.permit, h.on,
        .none hstarts ?_ hstage⟩
      rw [Vigil.deafen, htasks]
      rfl
  | @some former t hleads hstarts htasks =>
      refine ⟨t.number, h.terms, h.store, h.now, h.started, h.ready, h.permit, h.on,
        .some (hleads.change { t with heard := false, events := [] } rfl hleads.phase
          hleads.current rfl rfl) hstarts ?_⟩
      have hformer : (former.map fun x =>
          if x.number = t.number then { x with heard := false, events := [] } else x) = former := by
        refine (List.map_congr_left fun x hx => ?_).trans (List.map_id former)
        exact if_neg (Nat.ne_of_lt (hleads.former_lt x hx))
      simp [Vigil.deafen, htasks, hformer]

/-- All tasks are told to end, and the last one has ended. -/
theorem Leads.stopped (h : Leads c former t) (permit : Bool) :
    Leads { c with started := false, ready := false, permit, stage := none }
      (former.map fun x => { x with stopped := true })
      { t with stopped := true, phase := .finished } where
  former_ended := List.forall_mem_map.mpr h.former_ended
  former_lt := List.forall_mem_map.mpr h.former_lt
  phase := rfl
  current hstage := absurd rfl hstage
  heard := h.heard
  events := h.events

theorem Leads.ended_eq_false (h : Leads c former t) (hstage : c.stage ≠ none) : t.ended = false := by
  rw [Task.ended, h.phase]
  rcases hsome : c.stage with - | - | ⟨wake, asked⟩
  · exact absurd hsome hstage
  · rfl
  · rfl

/-- A request that was given to the task that goes on is kept when it ends. -/
theorem Leads.keptPermit_eq (h : Leads c former t) : c.keptPermit = (c.permit || t.asked) := by
  rw [keptPermit, Task.asked, h.phase]
  rcases c.stage with - | - | ⟨wake, asked⟩
  · rw [phaseOf, Bool.or_false]
  · rw [phaseOf, Bool.or_false]
  · rfl

theorem Mirrors.stop (h : Mirrors s v) :
    ∃ row v', Run v row v' ∧ Mirrors { s with checkpoint := s.checkpoint.stop.2 } v' ∧
      Part ⟨s, .stop s.checkpoint.stop.1.isOk⟩ row := by
  have hstep := Step.stop v
  cases hstarted : s.checkpoint.started with
  | false =>
      rw [stop_of_not_started (h.started.trans hstarted)] at hstep
      rw [Checkpoint.stop_of_not_started hstarted]
      exact ⟨_, v, .single hstep, h, .single (.stop false) (obedient_of_not_move rfl)
        fun _ => prompt_of_not_time nofun⟩
  | true =>
      rw [stop_of_started (h.started.trans hstarted)] at hstep
      rw [Checkpoint.stop_of_started hstarted]
      by_cases hstage : s.checkpoint.stage = none
      · refine ⟨_, _, .single hstep, ?_, .single (.stop true) (obedient_of_not_move rfl)
          fun _ => prompt_of_not_time nofun⟩
        refine ⟨h.terms, h.store, h.now, rfl, rfl, ?_, fun hsome => absurd rfl hsome, ?_⟩
        · rw [keptPermit, hstage]
          exact h.permit
        · cases h.tasks with
          | none hstarts htasks _ => exact .none hstarts (by simp [htasks]) rfl
          | @some former t hleads hstarts htasks =>
              have hphase : t.phase = .finished := by rw [hleads.phase, hstage, phaseOf]
              refine .some (hleads.stopped _) hstarts ?_
              rw [htasks, List.map_append, List.map_singleton, ← hphase]
      · obtain ⟨former, t, hstarts, htasks, -, hleads⟩ := h.exists_leads hstage
        have hended := hleads.ended_eq_false hstage
        rw [htasks, List.map_append, List.map_singleton] at hstep
        have hkept := hleads.stopped s.checkpoint.keptPermit
        have hleave := Step.leave (v := { v with
          started := false, ready := false,
          tasks := (former.map fun x => { x with stopped := true }) ++ [{ t with stopped := true }] })
          (t := { t with stopped := true }) rfl rfl hended
        refine ⟨_, _, (Run.single hstep).trans (Run.single hleave), ?_, .pair (.left t.number)
          ⟨obedient_of_not_move rfl, prompt_of_not_time nofun⟩
          ⟨obedient_of_leave, prompt_of_not_time nofun⟩⟩
        rw [Vigil.leave, pass_of_ended hkept.former_ended rfl rfl]
        refine ⟨h.terms, h.store, h.now, rfl, rfl, ?_, fun hsome => absurd rfl hsome,
          .some hkept hstarts rfl⟩
        rw [hleads.keptPermit_eq, ← h.permit]
        rfl

theorem conclude_retry (v : Vigil) (former : List Task) (hheard : t.heard = true) :
    (v.call former t []).conclude former { t with phase := .called v.answer } [] .retry =
      { v with
        store := (v.store.readHash v.key).2, permit := false,
        tasks := former ++ [{ t with
          phase := .waiting (v.now + v.retry) v.permit, events := .retry :: t.events }] } := by
  rw [Vigil.conclude, if_pos hheard, Task.tell, if_pos hheard, List.append_nil]
  rfl

theorem conclude_ready (v : Vigil) (former : List Task) (t : Task) (fields : List (String × Json)) :
    (v.call former t []).conclude former { t with phase := .called v.answer } [] (.ready fields) =
      { v with
        store := (v.store.readHash v.key).2, ready := true,
        tasks := former ++ [{ t with
          phase := .finished, events := if t.heard then .ready fields :: t.events else t.events }] } := by
  cases hheard : t.heard <;> simp [Vigil.conclude, Vigil.call, Task.tell, hheard]

/-- The task that goes on makes its call, and has the answer at once. -/
theorem Mirrors.look (h : Mirrors s v) (hstage : s.checkpoint.stage = some .looking) :
    ∃ row v', Run v row v' ∧
      Mirrors ⟨(look s.store s.checkpoint).1, (look s.store s.checkpoint).2⟩ v' ∧
        Part ⟨s, .look⟩ row := by
  obtain ⟨former, t, hstarts, htasks, hcurrent, hleads⟩ := h.exists_leads (hstage.trans_ne (Option.some_ne_none _))
  have hon : s.checkpoint.started = true := h.on (hstage.trans_ne (Option.some_ne_none _))
  have hphase : t.phase = .looking := by rw [hleads.phase, hstage, phaseOf]
  have hanswer : v.answer = s.answer := by rw [answer, Scene.answer, h.store, h.terms]
  have hverdict : v.verdict v.answer = s.yield := by rw [Scene.yield, hanswer, h.terms]
  have hstore : (v.store.readHash v.key).2 = (s.store.readHash s.checkpoint.key).2 := by
    rw [h.store, h.terms]
  have hcall : Step v (.call t.number) (v.call former t []) := .call htasks hphase
  have hconclude := Step.conclude (v := v.call former t [])
    (t := { t with phase := .called v.answer }) rfl rfl
  change Step _ (.conclude t.number (v.verdict v.answer))
    (Vigil.conclude _ _ _ _ (v.verdict v.answer)) at hconclude
  rw [hverdict] at hconclude
  refine ⟨_, _, (Run.single hcall).trans (Run.single hconclude), ?_, .pair (.look t.number)
    ⟨obedient_of_last hleads.former_lt htasks hcurrent rfl, prompt_of_not_time nofun⟩
    ⟨obedient_of_last (t := { t with phase := .called v.answer }) hleads.former_lt rfl hcurrent rfl,
      prompt_of_not_time nofun⟩⟩
  rcases yield_cases s with hyield | ⟨fields, hyield⟩
  · rw [hyield, look_of_retry hyield]
    by_cases hheard : s.checkpoint.heard = true
    · rw [conclude_retry v former (hleads.heard.trans hheard), postpone_of_heard hheard]
      refine ⟨h.terms, hstore, h.now, h.started, h.ready, rfl, fun _ => hon,
        .some (hleads.change { t with
          phase := .waiting (v.now + v.retry) v.permit, events := .retry :: t.events }
            rfl ?_ (fun _ => hcurrent) hleads.heard (congrArg _ hleads.events)) hstarts rfl⟩
      rw [h.now, h.terms, h.permit]
      rfl
    · rw [Vigil.conclude, if_neg (by rwa [hleads.heard]), postpone, if_neg hheard]
      exact ⟨h.terms, hstore, h.now, h.started, h.ready, h.permit, fun hsome => absurd rfl hsome,
        .some (hleads.change { t with phase := .finished } rfl rfl (fun _ => hcurrent)
          hleads.heard hleads.events) hstarts rfl⟩
  · rw [hyield, look_of_ready hyield, conclude_ready]
    refine ⟨h.terms, hstore, h.now, h.started, rfl, h.permit, fun hsome => absurd rfl hsome,
      .some (hleads.change { t with
        phase := .finished, events := if t.heard then .ready fields :: t.events else t.events }
          rfl rfl (fun _ => hcurrent) hleads.heard ?_) hstarts rfl⟩
    rw [hleads.heard, hleads.events]
    rfl

theorem Mirrors.wake {wake : Wake} {woken : Checkpoint} (h : Mirrors s v)
    (hwake : s.checkpoint.awake? wake = some woken) :
    ∃ row v', Run v row v' ∧ Mirrors { s with checkpoint := woken } v' ∧
      Part ⟨s, .wake wake⟩ row := by
  have hstage : s.checkpoint.stage ≠ none := by
    intro hstage
    unfold awake? at hwake
    rw [hstage] at hwake
    cases hwake
  obtain ⟨former, t, hstarts, htasks, hcurrent, hleads⟩ := h.exists_leads hstage
  have hphase := hleads.phase
  have hlooking : ∀ {c : Checkpoint}, c.stage = some .looking → c.heard = s.checkpoint.heard →
      c.events = s.checkpoint.events → Leads c former { t with phase := .looking } := by
    intro c hstage hheard hevents
    refine hleads.change _ rfl (by rw [hstage, phaseOf]) (fun _ => hcurrent) ?_ ?_
    · exact hleads.heard.trans hheard.symm
    · exact hleads.events.trans hevents.symm
  have hpart : Part ⟨s, .wake wake⟩ [⟨v, .wake t.number wake⟩] :=
    .single (.wake t.number wake) (obedient_of_last hleads.former_lt htasks hcurrent rfl)
      fun _ => prompt_of_not_time nofun
  have hon := h.on hstage
  cases wake with
  | request =>
      obtain ⟨wake, hwait, rfl⟩ := awake?_request hwake
      rw [hwait, phaseOf] at hphase
      refine ⟨_, _, Run.single (.request htasks hphase), ?_, hpart⟩
      rw [Vigil.wake, pass_of_ended hleads.former_ended rfl rfl]
      refine ⟨h.terms, h.store, h.now, h.started, h.ready, ?_, fun _ => hon,
        .some (hlooking rfl rfl rfl) hstarts rfl⟩
      simp [h.permit]
  | timer =>
      obtain ⟨wake, asked, hwait, hle, rfl⟩ := awake?_timer hwake
      rw [hwait, phaseOf] at hphase
      refine ⟨_, _, Run.single (.timer htasks hphase (h.now ▸ hle)), ?_, hpart⟩
      rw [Vigil.wake, pass_of_ended hleads.former_ended rfl rfl]
      refine ⟨h.terms, h.store, h.now, h.started, h.ready, ?_, fun _ => hon,
        .some (hlooking rfl rfl rfl) hstarts rfl⟩
      simp [h.permit, Task.asked, hphase]

/-- What happens to the checkpoint happens to its tasks. -/
theorem Mirrors.step (h : Mirrors s v) (hstep : Checkpoint.Step s label next) :
    ∃ row v', Run v row v' ∧ Mirrors next v' ∧ Part ⟨s, label⟩ row := by
  cases hstep with
  | start =>
      obtain ⟨hsuccess, hnext⟩ := h.start
      refine ⟨_, _, Run.single (.start v), hnext, .single ?_ (obedient_of_not_move rfl)
        fun _ => prompt_of_not_time nofun⟩
      rw [hsuccess]
      exact .start _
  | stop => exact h.stop
  | requestCheck =>
      exact ⟨_, _, Run.single (.requestCheck v), h.requestCheck,
        .single .requestCheck (obedient_of_not_move rfl) fun _ => prompt_of_not_time nofun⟩
  | deafen =>
      obtain ⟨number, hnext⟩ := h.deafen
      exact ⟨_, _, Run.single (.deafen v number), hnext,
        .single (.deafen number) (obedient_of_not_move rfl) fun _ => prompt_of_not_time nofun⟩
  | look hstage => exact h.look hstage
  | wake hwake => exact h.wake hwake
  | time hle =>
      refine ⟨_, _, Run.single (.time (h.now.trans_le hle)),
        ⟨h.terms, h.store, rfl, h.started, h.ready, h.permit, h.on, ?_⟩,
        .single (.time _) (obedient_of_not_move rfl) h.prompt_time⟩
      cases h.tasks with
      | none hstarts htasks hstage => exact .none hstarts htasks hstage
      | some hleads hstarts htasks =>
          exact .some (hleads.change _ rfl hleads.phase hleads.current hleads.heard hleads.events)
            hstarts htasks
  | surroundings store =>
      exact ⟨_, _, Run.single (.surroundings v store),
        ⟨h.terms, rfl, h.now, h.started, h.ready, h.permit, h.on, h.tasks⟩,
        .single .surroundings (obedient_of_not_move rfl) fun _ => prompt_of_not_time nofun⟩

/-- A run of a checkpoint is a run of its tasks, with a part for each thing that happens. -/
theorem Mirrors.run (h : Mirrors first v) (hrun : Checkpoint.Run first moments last) :
    ∃ rows v', Run v rows.flatten v' ∧ Mirrors last v' ∧ List.Forall₂ Part moments rows := by
  induction hrun with
  | nil => exact ⟨[], v, .nil v, h, .nil⟩
  | snoc _ hstep ih =>
      obtain ⟨rows, middle, hrows, hmirrors, hparts⟩ := ih
      obtain ⟨row, v', hrow, hnext, hpart⟩ := hmirrors.step hstep
      refine ⟨rows ++ [row], v', ?_, hnext, List.rel_append hparts (.cons hpart .nil)⟩
      rw [List.flatten_concat]
      exact hrows.trans hrow

theorem forall_mem_of_parts {rows : List (List Moment)} (h : List.Forall₂ Part moments rows)
    (hprompt : ∀ m ∈ moments, m.Prompt) : ∀ x ∈ rows.flatten, x.Obedient ∧ x.Prompt := by
  induction h with
  | nil => simp
  | cons hpart _ ih =>
      rw [List.forall_mem_cons] at hprompt
      rw [List.flatten_cons, List.forall_mem_append]
      exact ⟨fun x hx => ⟨hpart.obedient x hx, hpart.prompt hprompt.1 x hx⟩, ih hprompt.2⟩

/-- What is done at one moment is done by the tasks. -/
theorem Mirrors.settle (h : Mirrors s v) :
    ∃ moments v', Run v moments v' ∧
      Mirrors ⟨(settle s.store s.checkpoint).1, (settle s.store s.checkpoint).2⟩ v' ∧
        ∀ x ∈ moments, x.Obedient ∧ x.Prompt := by
  obtain ⟨moments, hrun, hmoments⟩ := exists_run_settle s.store s.checkpoint
  obtain ⟨rows, v', hrows, hlast, hparts⟩ := h.run hrun
  exact ⟨_, v', hrows, hlast, forall_mem_of_parts hparts fun m hm => (hmoments m hm).2⟩

/-- What is done from one moment of rest to the next is done by the tasks. -/
theorem Mirrors.advance (h : Mirrors s v) (limit : ℕ) (hretry : 0 < s.checkpoint.retry)
    (hrest : move? s.store s.checkpoint = none) :
    ∃ moments v', Run v moments v' ∧
      Mirrors ⟨(advance limit s.store s.checkpoint).1, (advance limit s.store s.checkpoint).2⟩ v' ∧
        ∀ x ∈ moments, x.Obedient ∧ x.Prompt := by
  obtain ⟨moments, hrun, -, hprompt⟩ := exists_run_advance limit s.store s.checkpoint
  obtain ⟨rows, v', hrows, hlast, hparts⟩ := h.run hrun
  exact ⟨_, v', hrows, hlast, forall_mem_of_parts hparts (hprompt hretry hrest)⟩

end
end Vigil
end Checkpoint
end Uplink
