import Mathlib.Data.Nat.Notation
import Mathlib.Tactic.ByContra
import Uplink.Checkpoint.Rest

/-!
# Runs of a checkpoint

A checkpoint is started and stopped by its owner, is asked to look at once, and looks by itself into
a store that others use and that fails at times.  A look is one step here, and whoever stops the
checkpoint waits until its task has ended; what the tasks do before that is told of `Vigil`.

A look may come late.  Where none does, no time passes while there is a move to make, and no timer is
passed over.  Such runs are prompt, and the runs of `settle` and `advance` are of this kind.
-/

namespace Uplink
namespace Checkpoint

/-- A checkpoint and the store it looks into. -/
structure Scene where
  store : Store
  checkpoint : Checkpoint

/-- What happens: calls of the owner with their success, moves of the checkpoint, and changes around
it. -/
inductive Label where
  | start (success : Bool)
  | stop (success : Bool)
  | requestCheck
  | deafen
  | look
  | wake (wake : Wake)
  | time (moment : ℕ)
  | surroundings
  deriving DecidableEq

/-- What happens to a checkpoint without its owner and its listener, and without the surroundings. -/
def Label.IsOwn : Label → Prop
  | .requestCheck | .look | .wake _ | .time _ => True
  | _ => False

/-- One thing that may happen to a checkpoint. -/
inductive Step : Scene → Label → Scene → Prop where
  | start (s : Scene) :
      Step s (.start s.checkpoint.start.1.isOk) { s with checkpoint := s.checkpoint.start.2 }
  | stop (s : Scene) :
      Step s (.stop s.checkpoint.stop.1.isOk) { s with checkpoint := s.checkpoint.stop.2 }
  | requestCheck (s : Scene) :
      Step s .requestCheck { s with checkpoint := s.checkpoint.requestCheck }
  | deafen (s : Scene) : Step s .deafen { s with checkpoint := s.checkpoint.deafen }
  | look {s : Scene} : s.checkpoint.stage = some .looking →
      Step s .look ⟨(look s.store s.checkpoint).1, (look s.store s.checkpoint).2⟩
  | wake {s : Scene} {wake : Wake} {woken : Checkpoint} : s.checkpoint.awake? wake = some woken →
      Step s (.wake wake) { s with checkpoint := woken }
  | time {s : Scene} {moment : ℕ} : s.checkpoint.now ≤ moment →
      Step s (.time moment) { s with checkpoint := { s.checkpoint with now := moment } }
  | surroundings (s : Scene) (store : Store) : Step s .surroundings { s with store }

/-- A scene, and what happens next. -/
structure Moment where
  scene : Scene
  label : Label

/-- A row of things that happen to a checkpoint. -/
inductive Run : Scene → List Moment → Scene → Prop where
  | nil (s : Scene) : Run s [] s
  | snoc {first last next : Scene} {moments : List Moment} {label : Label} :
      Run first moments last → Step last label next → Run first (moments ++ [⟨last, label⟩]) next

/-- A checkpoint that was never started. -/
structure Fresh (c : Checkpoint) : Prop where
  started : c.started = false
  ready : c.ready = false
  permit : c.permit = false
  stage : c.stage = none
  events : c.events = []

/-- Time passes only at rest, and not beyond the end of a wait. -/
def Moment.Prompt (m : Moment) : Prop :=
  ∀ moment, m.label = .time moment →
    move? m.scene.store m.scene.checkpoint = none ∧
      ∀ due, m.scene.checkpoint.due? = some due → moment ≤ due

/-! ## What a look does -/

/-- What the store answers to a look. -/
def Scene.answer (s : Scene) : Except Failure (Keyed String) :=
  (s.store.readHash s.checkpoint.key).1

/-- What the listener is told about a look. -/
def Scene.yield (s : Scene) : Event :=
  s.checkpoint.verdict s.answer

/-- Only a hash with all required keys that can be converted is handed over, and it is handed over
as converted. -/
theorem verdict_eq_ready_iff {terms : Terms} {answer : Except Failure (Keyed String)}
    {fields : List (String × Json)} :
    terms.verdict answer = .ready fields ↔
      ∃ hash, answer = .ok hash ∧ (∀ key ∈ terms.required, hash.has key = true) ∧
        terms.template.toConfig hash = .ok fields := by
  cases answer with
  | error failure => simp [Terms.verdict, Except.bind]
  | ok hash =>
      by_cases hall : ∀ key ∈ terms.required, hash.has key = true
      · have hinspect : terms.inspect hash = (terms.template.toConfig hash).map some := by
          rw [Terms.inspect, if_pos (by simpa using hall)]
        cases hconfig : terms.template.toConfig hash with
        | error failure => simp [Terms.verdict, Except.bind, hinspect, hconfig, Except.map]
        | ok found =>
            have hverdict : terms.verdict (.ok hash) = .ready found := by
              simp [Terms.verdict, Except.bind, hinspect, hconfig, Except.map]
            rw [hverdict]
            constructor
            · rintro ⟨⟩
              exact ⟨hash, rfl, hall, hconfig⟩
            · rintro ⟨hash', ⟨⟩, -, hfields⟩
              cases hconfig.symm.trans hfields
              rfl
      · have hinspect : terms.inspect hash = .ok none := by
          rw [Terms.inspect, if_neg (by simpa using hall)]
        simp [Terms.verdict, Except.bind, hinspect, hall]

theorem look_eq (s : Scene) :
    look s.store s.checkpoint =
      ((s.store.readHash s.checkpoint.key).2,
        match s.yield with
        | .ready fields => s.checkpoint.succeed fields
        | .retry => s.checkpoint.postpone) := by
  unfold look Scene.yield Scene.answer
  dsimp only
  split <;> simp_all

theorem look_of_ready {s : Scene} {fields : List (String × Json)} (h : s.yield = .ready fields) :
    look s.store s.checkpoint =
      ((s.store.readHash s.checkpoint.key).2, s.checkpoint.succeed fields) := by
  rw [look_eq, h]

theorem look_of_retry {s : Scene} (h : s.yield = .retry) :
    look s.store s.checkpoint = ((s.store.readHash s.checkpoint.key).2, s.checkpoint.postpone) := by
  rw [look_eq, h]

theorem yield_cases (s : Scene) : s.yield = .retry ∨ ∃ fields, s.yield = .ready fields := by
  cases h : s.yield with
  | retry => exact .inl rfl
  | ready fields => exact .inr ⟨fields, rfl⟩

theorem postpone_of_heard {c : Checkpoint} (h : c.heard = true) :
    c.postpone =
      { c with
        events := .retry :: c.events
        permit := false
        stage := some (.waiting (c.now + c.retry) c.permit) } := by
  rw [postpone, if_pos h]

theorem start_of_started {c : Checkpoint} (h : c.started = true) :
    c.start = (.error (.alreadyStarted component), c) := by
  rw [start, if_pos h]

theorem start_of_not_started {c : Checkpoint} (h : c.started = false) :
    c.start = (.ok (), { c with
      started := true, ready := false, stage := some .looking, heard := true, events := [] }) := by
  rw [start, h]
  rfl

theorem stop_of_started {c : Checkpoint} (h : c.started = true) :
    c.stop = (.ok (), { c with
      started := false, ready := false, permit := c.keptPermit, stage := none }) := by
  rw [stop, if_pos h]

theorem stop_of_not_started {c : Checkpoint} (h : c.started = false) :
    c.stop = (.error (.notStarted component), c) := by
  rw [stop, h]
  rfl

/-- What is settled when a checkpoint is made. -/
structure SameTerms (c c' : Checkpoint) : Prop where
  key : c'.key = c.key
  template : c'.template = c.template
  required : c'.required = c.required
  retry : c'.retry = c.retry

theorem SameTerms.refl (c : Checkpoint) : SameTerms c c :=
  ⟨rfl, rfl, rfl, rfl⟩

theorem SameTerms.trans {a b c : Checkpoint} (h : SameTerms a b) (h' : SameTerms b c) :
    SameTerms a c where
  key := h'.key.trans h.key
  template := h'.template.trans h.template
  required := h'.required.trans h.required
  retry := h'.retry.trans h.retry

theorem sameTerms_start (c : Checkpoint) : SameTerms c c.start.2 := by
  unfold start
  split <;> exact ⟨rfl, rfl, rfl, rfl⟩

theorem sameTerms_stop (c : Checkpoint) : SameTerms c c.stop.2 := by
  unfold stop
  split <;> exact ⟨rfl, rfl, rfl, rfl⟩

theorem sameTerms_requestCheck (c : Checkpoint) : SameTerms c c.requestCheck := by
  unfold requestCheck
  split <;> exact ⟨rfl, rfl, rfl, rfl⟩

theorem sameTerms_look (store : Store) (c : Checkpoint) : SameTerms c (look store c).2 := by
  unfold look
  dsimp only
  split
  · exact ⟨rfl, rfl, rfl, rfl⟩
  · unfold postpone
    split <;> exact ⟨rfl, rfl, rfl, rfl⟩

theorem sameTerms_awake {c woken : Checkpoint} {wake : Wake} (h : c.awake? wake = some woken) :
    SameTerms c woken := by
  cases wake with
  | request =>
      obtain ⟨time, -, rfl⟩ := awake?_request h
      exact ⟨rfl, rfl, rfl, rfl⟩
  | timer =>
      obtain ⟨time, asked, -, -, rfl⟩ := awake?_timer h
      exact ⟨rfl, rfl, rfl, rfl⟩

section

variable {s next first middle last : Scene} {label : Label} {moments moments' : List Moment}

theorem Step.sameTerms (h : Step s label next) : SameTerms s.checkpoint next.checkpoint := by
  cases h with
  | start => exact sameTerms_start _
  | stop => exact sameTerms_stop _
  | requestCheck => exact sameTerms_requestCheck _
  | look _ => exact sameTerms_look _ _
  | wake hwake => exact sameTerms_awake hwake
  | deafen | time | surroundings => exact ⟨rfl, rfl, rfl, rfl⟩

theorem Run.sameTerms (h : Run first moments last) :
    SameTerms first.checkpoint last.checkpoint := by
  induction h with
  | nil => exact .refl _
  | snoc _ hstep ih => exact ih.trans hstep.sameTerms

/-! ## Runs in a row -/

theorem Run.trans (h : Run first moments middle) (h' : Run middle moments' last) :
    Run first (moments ++ moments') last := by
  induction h' with
  | nil => simpa using h
  | snoc _ hstep ih =>
      rw [← List.append_assoc]
      exact .snoc ih hstep

theorem Run.single (h : Step s label next) : Run s [⟨s, label⟩] next :=
  .snoc (.nil s) h

/-! ## Moments of rest -/

/-- The move that is chosen may be made. -/
theorem step_of_move? {store : Store} {c : Checkpoint} {next : Store × Checkpoint}
    (h : move? store c = some next) :
    ∃ label, (∀ moment, label ≠ .time moment) ∧ label.IsOwn ∧
      Step ⟨store, c⟩ label ⟨next.1, next.2⟩ := by
  unfold move? at h
  split at h
  · rename_i hstage
    cases h
    exact ⟨.look, nofun, trivial, .look hstage⟩
  · obtain ⟨woken, hor, rfl⟩ := Option.map_eq_some_iff.mp h
    rcases Option.or_eq_some_iff.mp hor with hrequest | ⟨-, htimer⟩
    · exact ⟨.wake .request, nofun, trivial, .wake hrequest⟩
    · exact ⟨.wake .timer, nofun, trivial, .wake htimer⟩

/-- Settling is a run of moves that takes no time. -/
theorem exists_run_settle (store : Store) (c : Checkpoint) :
    ∃ moments, Run ⟨store, c⟩ moments ⟨(settle store c).1, (settle store c).2⟩ ∧
      ∀ m ∈ moments, m.label.IsOwn ∧ m.Prompt := by
  have hone : ∀ {store : Store} {c : Checkpoint} {next : Store × Checkpoint},
      move? store c = some next →
        ∃ m : Moment, Run ⟨store, c⟩ [m] ⟨next.1, next.2⟩ ∧ m.label.IsOwn ∧ m.Prompt := by
    intro store c next h
    obtain ⟨label, htime, hown, hstep⟩ := step_of_move? h
    exact ⟨_, .single hstep, hown, fun moment hlabel => absurd hlabel (htime moment)⟩
  fun_induction settle store c with
  | case1 store c next h _ ih =>
      obtain ⟨m, hm, hprompt⟩ := hone h
      obtain ⟨moments, hrun, hmoments⟩ := ih
      refine ⟨m :: moments, hm.trans hrun, ?_⟩
      intro m' hm'
      rcases List.mem_cons.mp hm' with rfl | hm'
      · exact hprompt
      · exact hmoments m' hm'
  | case2 store c next h _ =>
      obtain ⟨m, hm, hprompt⟩ := hone h
      refine ⟨[m], hm, ?_⟩
      intro m' hm'
      rw [List.mem_singleton.mp hm']
      exact hprompt
  | case3 store c h => exact ⟨[], .nil _, by simp⟩

/-- At rest a wait is not over. -/
theorem lt_due_of_move?_eq_none {store : Store} {c : Checkpoint} (h : move? store c = none)
    {due : ℕ} (hdue : c.due? = some due) : c.now < due := by
  unfold move? at h
  unfold due? at hdue
  split at h
  · cases h
  · rename_i hlooking
    split at hdue
    · cases hdue
    · rename_i hstage
      exact absurd hstage hlooking
    · rename_i wake asked hstage
      cases hdue
      by_contra hle
      cases asked <;> simp_all [awake?]

/-- Letting time pass is a run of moves, and a prompt one from a moment of rest on. -/
theorem exists_run_advance (limit : ℕ) (store : Store) (c : Checkpoint) :
    ∃ moments, Run ⟨store, c⟩ moments ⟨(advance limit store c).1, (advance limit store c).2⟩ ∧
      (∀ m ∈ moments, m.label.IsOwn) ∧
      (0 < c.retry → move? store c = none → ∀ m ∈ moments, m.Prompt) := by
  fun_induction advance limit store c with
  | case1 store c moment h _ ih =>
      have htime : Step ⟨store, c⟩ (.time moment) ⟨store, { c with now := moment }⟩ :=
        .time (Nat.le_of_lt (nextMoment?_bounds h).1)
      obtain ⟨settling, hsettle, hsettling⟩ := exists_run_settle store { c with now := moment }
      obtain ⟨moments, hrun, hown, hlater⟩ := ih
      refine ⟨_, ((Run.single htime).trans hsettle).trans hrun, ?_, ?_⟩
      · intro m hm
        rcases List.mem_append.mp hm with hm | hm
        · rcases List.mem_append.mp hm with hm | hm
          · rw [List.mem_singleton.mp hm]
            trivial
          · exact (hsettling m hm).1
        · exact hown m hm
      · intro hretry hrest m hm
        obtain ⟨due, hdue, hmoment⟩ := Option.bind_eq_some_iff.mp h
        have hlt := lt_due_of_move?_eq_none hrest hdue
        have heq : moment = due := by
          dsimp only at hmoment
          split at hmoment
          · cases hmoment
            omega
          · cases hmoment
        have hprompt : Moment.Prompt ⟨⟨store, c⟩, .time moment⟩ := by
          rintro _ ⟨⟩
          refine ⟨hrest, fun later hlater => ?_⟩
          cases hdue.symm.trans hlater
          exact Nat.le_of_eq heq
        have hretry' : 0 < (passTo store c moment).2.retry := by
          rw [passTo, hsettle.sameTerms.retry]
          exact hretry
        rcases List.mem_append.mp hm with hm | hm
        · rcases List.mem_append.mp hm with hm | hm
          · rw [List.mem_singleton.mp hm]
            exact hprompt
          · exact (hsettling m hm).2
        · exact hlater hretry' (move?_settle store hretry) m hm
  | case2 store c h =>
      refine ⟨_, Run.single (.time (Nat.le_max_left c.now limit)), ?_, ?_⟩
      · intro m hm
        rw [List.mem_singleton.mp hm]
        trivial
      · intro _ hrest m hm
        rw [List.mem_singleton.mp hm]
        rintro _ ⟨⟩
        refine ⟨hrest, fun due hdue => ?_⟩
        have hlt := lt_due_of_move?_eq_none hrest hdue
        simp only [nextMoment?, hdue, Option.bind_some] at h
        split at h
        · cases h
        · omega

end
end Checkpoint
end Uplink
