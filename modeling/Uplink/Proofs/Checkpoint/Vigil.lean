import Mathlib.Data.List.Induction
import Mathlib.Data.List.Nodup
import Mathlib.Data.List.Perm.Basic
import Uplink.Checkpoint.Vigil
import Uplink.Proofs.Checkpoint.Run

/-!
# Runs of a checkpoint with its tasks

The owner starts and stops the checkpoint, requests come, every task has its turns, and others change
the store: all in any order, and a task that was stopped may have any number of turns before it ends.

Where a task stands in the list matters only for who is asked first.  What a step does is therefore said
here about the tasks in any order; of the line it is only said that a request goes to one who waits and
was not asked yet, if there is one.
-/

namespace Uplink
namespace Checkpoint

/-- The task has nothing to do at a time. -/
def Task.rests (now : ℕ) (t : Task) : Bool :=
  match t.phase with
  | .finished => true
  | .waiting wake asked => !asked && now < wake && !t.stopped
  | _ => false

section

variable (t : Task)

theorem Task.ask_number : t.ask.number = t.number := by
  unfold Task.ask
  split <;> rfl

theorem Task.ask_stopped : t.ask.stopped = t.stopped := by
  unfold Task.ask
  split <;> rfl

theorem Task.ask_heard : t.ask.heard = t.heard := by
  unfold Task.ask
  split <;> rfl

theorem Task.ask_ended : t.ask.ended = t.ended := by
  unfold Task.ask
  split
  · rename_i wake asked hphase
    simp [Task.ended, hphase]
  · rfl

end

theorem Task.ended_eq_false {t : Task} {phase : Phase} (h : t.phase = phase) (hne : phase ≠ .finished) :
    t.ended = false := by
  subst h
  unfold Task.ended
  split
  · rename_i hover
    exact absurd hover hne
  · rfl

namespace Vigil

namespace Act

/-- A start or a stop that succeeds. -/
def turns : Act → Bool
  | start success | stop success => success
  | _ => false

/-- A turn of a task. -/
def isMove : Act → Bool
  | call _ | conclude _ _ | wake _ _ | leave _ => true
  | _ => false

/-- The number of the task whose turn it is. -/
def turnOf? : Act → Option ℕ
  | call number | conclude number _ | wake number _ | leave number => some number
  | _ => none

theorem turnOf?_eq_none {act : Act} (h : act.isMove = false) : act.turnOf? = none := by
  cases act with
  | call | conclude | wake | leave => cases h
  | start | stop | requestCheck | deafen | time | surroundings => rfl

theorem exists_turn {act : Act} (h : act.isMove = true) : ∃ number, act.turnOf? = some number := by
  cases act with
  | call number | conclude number | wake number | leave number => exact ⟨number, rfl⟩
  | start | stop | requestCheck | deafen | time | surroundings => cases h

/-- Nobody listens to a start any longer. -/
def deafens : Act → Bool
  | deafen _ => true
  | _ => false

end Act

/-- A checkpoint with its tasks, and what happens next. -/
structure Moment where
  vigil : Vigil
  act : Act

/-- The time of a moment. -/
def Moment.now (m : Moment) : ℕ :=
  m.vigil.now

/-- A row of things that happen. -/
inductive Run : Vigil → List Moment → Vigil → Prop where
  | nil (v : Vigil) : Run v [] v
  | snoc {first last next : Vigil} {moments : List Moment} {act : Act} :
      Run first moments last → Step last act next → Run first (moments ++ [⟨last, act⟩]) next

/-- A checkpoint that was never started. -/
structure Fresh (v : Vigil) : Prop where
  started : v.started = false
  ready : v.ready = false
  permit : v.permit = false
  starts : v.starts = 0
  tasks : v.tasks = []

/-- No task has anything to do. -/
def AtRest (v : Vigil) : Prop :=
  ∀ t ∈ v.tasks, t.rests v.now = true

/-- Time passes only at rest, and not beyond the end of a wait. -/
def Moment.Prompt (m : Moment) : Prop :=
  ∀ moment, m.act = .time moment →
    AtRest m.vigil ∧
      ∀ t ∈ m.vigil.tasks, ∀ wake asked, t.phase = .waiting wake asked → moment ≤ wake

section

variable {v next first middle last : Vigil} {act : Act} {moments moments' : List Moment}

/-! ## Runs in a row -/

theorem Run.trans (h : Run first moments middle) (h' : Run middle moments' last) :
    Run first (moments ++ moments') last := by
  induction h' with
  | nil => simpa using h
  | snoc _ hstep ih =>
      rw [← List.append_assoc]
      exact .snoc ih hstep

theorem Run.single (h : Step v act next) : Run v [⟨v, act⟩] next :=
  .snoc (.nil v) h

theorem Run.of_concat {m : Moment} (h : Run first (moments ++ [m]) last) :
    Run first moments m.vigil ∧ Step m.vigil m.act last := by
  generalize hrow : moments ++ [m] = row at h
  cases h with
  | nil => simp at hrow
  | snoc hrun hstep =>
      obtain ⟨rfl, hm⟩ := List.append_inj' hrow rfl
      cases hm
      exact ⟨hrun, hstep⟩

/-- A run passes through a vigil between any two parts of it. -/
theorem Run.of_append (h : Run first (moments ++ moments') last) :
    ∃ middle, Run first moments middle ∧ Run middle moments' last := by
  induction moments' using List.reverseRecOn generalizing last with
  | nil => exact ⟨last, by simpa using h, .nil last⟩
  | append_singleton moments' m ih =>
      rw [← List.append_assoc] at h
      obtain ⟨hbefore, hstep⟩ := h.of_concat
      obtain ⟨middle, hfirst, hsecond⟩ := ih hbefore
      exact ⟨middle, hfirst, .snoc hsecond hstep⟩

theorem Run.of_cons {m : Moment} (h : Run first (m :: moments) last) :
    m.vigil = first ∧ ∃ next, Step first m.act next ∧ Run next moments last := by
  rw [← List.singleton_append] at h
  obtain ⟨next, hone, hrest⟩ := h.of_append
  rw [← List.nil_append [m]] at hone
  obtain ⟨hnil, hstep⟩ := hone.of_concat
  generalize hrow : ([] : List Moment) = row at hnil
  cases hnil with
  | nil => exact ⟨rfl, next, hstep, hrest⟩
  | snoc => simp at hrow

end

/-! ## What a request does -/

/-- What becomes of the tasks and of the kept request when a request is made or passed on, if it is. -/
inductive Passed (permit : Bool) (tasks : List Task) : Bool → Bool → List Task → Prop where
  | nothing {tasks' : List Task} : tasks'.Perm tasks → Passed permit tasks false permit tasks'
  | taken {t : Task} {rest tasks' : List Task} : tasks.Perm (t :: rest) → t.idle = true →
      tasks'.Perm (t.ask :: rest) → Passed permit tasks true permit tasks'
  | kept {tasks' : List Task} : (∀ t ∈ tasks, t.idle = false) → tasks'.Perm tasks →
      Passed permit tasks true true tasks'

theorem askFirst?_eq_some {tasks tasks' : List Task} (h : askFirst? tasks = some tasks') :
    ∃ before t after, tasks = before ++ t :: after ∧ t.idle = true ∧
      tasks' = before ++ t.ask :: after := by
  induction tasks generalizing tasks' with
  | nil => cases h
  | cons t rest ih =>
      rw [askFirst?] at h
      split at h
      · rename_i hidle
        cases h
        exact ⟨[], t, rest, rfl, hidle, rfl⟩
      · obtain ⟨asked, hasked, rfl⟩ := Option.map_eq_some_iff.mp h
        obtain ⟨before, x, after, rfl, hidle, rfl⟩ := ih hasked
        exact ⟨t :: before, x, after, rfl, hidle, rfl⟩

theorem askFirst?_eq_none {tasks : List Task} (h : askFirst? tasks = none) :
    ∀ t ∈ tasks, t.idle = false := by
  induction tasks with
  | nil => simp
  | cons t rest ih =>
      rw [askFirst?] at h
      split at h
      · cases h
      · rename_i hidle
        rw [Option.map_eq_none_iff] at h
        exact List.forall_mem_cons.mpr ⟨eq_false_of_ne_true hidle, ih h⟩

/-- A request changes nothing but the tasks and what is kept. -/
theorem exists_passed (v : Vigil) (asked : Bool) :
    ∃ permit tasks, v.pass asked = { v with permit, tasks } ∧
      Passed v.permit v.tasks asked permit tasks := by
  cases asked with
  | false => exact ⟨_, _, rfl, .nothing (.refl _)⟩
  | true =>
      cases hfirst : askFirst? v.tasks with
      | none =>
          refine ⟨true, v.tasks, ?_, .kept (askFirst?_eq_none hfirst) (.refl _)⟩
          simp [pass, notify, hfirst]
      | some tasks =>
          obtain ⟨before, t, after, htasks, hidle, rfl⟩ := askFirst?_eq_some hfirst
          refine ⟨v.permit, before ++ t.ask :: after, ?_, ?_⟩
          · simp [pass, notify, hfirst]
          · rw [htasks]
            exact .taken List.perm_middle hidle List.perm_middle

section

variable {permit permit' asked : Bool} {tasks tasks' : List Task} {P : Task → Prop}

/-- The order of the tasks does not matter. -/
theorem Passed.congr {tasks₀ : List Task} (h : Passed permit tasks asked permit' tasks')
    (hperm : tasks.Perm tasks₀) : Passed permit tasks₀ asked permit' tasks' := by
  cases h with
  | nothing hsame => exact .nothing (hsame.trans hperm)
  | taken htasks hidle htasks' => exact .taken (hperm.symm.trans htasks) hidle htasks'
  | kept hidle hsame =>
      exact .kept (fun t ht => hidle t (hperm.mem_iff.mpr ht)) (hsame.trans hperm)

/-- What holds of all tasks, and of a task that is asked if it held before, holds of all tasks. -/
theorem Passed.forall_mem (h : Passed permit tasks asked permit' tasks') (hall : ∀ t ∈ tasks, P t)
    (hask : ∀ t, t.idle = true → P t → P t.ask) : ∀ t ∈ tasks', P t := by
  intro x hx
  cases h with
  | nothing hperm | kept _ hperm => exact hall x (hperm.mem_iff.mp hx)
  | taken htasks hidle hperm =>
      rcases List.mem_cons.mp (hperm.mem_iff.mp hx) with rfl | hrest
      · exact hask _ hidle (hall _ (htasks.mem_iff.mpr List.mem_cons_self))
      · exact hall x (htasks.mem_iff.mpr (List.mem_cons_of_mem _ hrest))

end

/-! ## What a step does -/

/-- What a step does while the listeners stay: one case for each kind of turn, one for each call of the
owner that has an effect, and one for all that concerns no task. -/
inductive Change (v : Vigil) : Act → Vigil → Prop where
  | call {t : Task} {rest tasks : List Task} : v.tasks.Perm (t :: rest) → t.phase = .looking →
      tasks.Perm ({ t with phase := .called v.answer } :: rest) →
      Change v (.call t.number) { v with store := (v.store.readHash v.key).2, tasks }
  | ready {t : Task} {rest tasks : List Task} {answer : Except Failure (Keyed String)}
      {fields : List (String × Json)} : v.tasks.Perm (t :: rest) → t.phase = .called answer →
      v.verdict answer = .ready fields →
      tasks.Perm ({ t with phase := .finished, events := .ready fields :: t.events } :: rest) →
      Change v (.conclude t.number (.ready fields)) { v with ready := true, tasks }
  | retry {t : Task} {rest tasks : List Task} {answer : Except Failure (Keyed String)} :
      v.tasks.Perm (t :: rest) → t.phase = .called answer → v.verdict answer = .retry →
      tasks.Perm ({ t with
        phase := .waiting (v.now + v.retry) v.permit, events := .retry :: t.events } :: rest) →
      Change v (.conclude t.number .retry) { v with permit := false, tasks }
  | request {t : Task} {rest tasks : List Task} {wake : ℕ} : v.tasks.Perm (t :: rest) →
      t.phase = .waiting wake true → tasks.Perm ({ t with phase := .looking } :: rest) →
      Change v (.wake t.number .request) { v with tasks }
  | timer {t : Task} {rest tasks : List Task} {wake : ℕ} {asked permit : Bool} :
      v.tasks.Perm (t :: rest) → t.phase = .waiting wake asked → wake ≤ v.now →
      Passed v.permit ({ t with phase := .looking } :: rest) asked permit tasks →
      Change v (.wake t.number .timer) { v with permit, tasks }
  | leave {t : Task} {rest tasks : List Task} {permit : Bool} : v.tasks.Perm (t :: rest) →
      t.stopped = true → t.ended = false →
      Passed v.permit ({ t with phase := .finished } :: rest) t.asked permit tasks →
      Change v (.leave t.number) { v with permit, tasks }
  | requestCheck {tasks : List Task} {permit : Bool} : Passed v.permit v.tasks true permit tasks →
      Change v .requestCheck { v with permit, tasks }
  | start : v.started = false → Change v (.start true)
      { v with
        started := true, ready := false, starts := v.starts + 1,
        tasks := v.tasks ++ [{ number := v.starts }] }
  | stop : v.started = true → Change v (.stop true)
      { v with
        started := false, ready := false, tasks := v.tasks.map fun t => { t with stopped := true } }
  | time {moment : ℕ} : v.now ≤ moment → Change v (.time moment) { v with now := moment }
  | still {act : Act} {store : Store} : act.turns = false → act.isMove = false →
      act ≠ .requestCheck → (∀ moment, act ≠ .time moment) → Change v act { v with store }

section

variable {v next first last : Vigil} {act : Act} {moments : List Moment}

theorem start_of_started (h : v.started = true) :
    v.start = (.error (.alreadyStarted component), v) := by
  rw [start, if_pos h]

theorem start_of_not_started (h : v.started = false) :
    v.start = (.ok (), { v with
      started := true, ready := false, starts := v.starts + 1,
      tasks := v.tasks ++ [{ number := v.starts }] }) := by
  rw [start, h]
  rfl

theorem stop_of_started (h : v.started = true) :
    v.stop = (.ok (), { v with
      started := false, ready := false,
      tasks := v.tasks.map fun t => { t with stopped := true } }) := by
  rw [stop, if_pos h]

theorem stop_of_not_started (h : v.started = false) :
    v.stop = (.error (.notStarted component), v) := by
  rw [stop, h]
  rfl

theorem Step.change (h : Step v act next)
    (hheard : ∀ t ∈ v.tasks, t.heard = true) (hkept : act.deafens = false) :
    Change v act next := by
  have hperm : ∀ {before after : List Task} {t : Task}, v.tasks = before ++ t :: after →
      v.tasks.Perm (t :: (before ++ after)) := fun htasks => htasks ▸ List.perm_middle
  cases h with
  | start =>
      cases hstarted : v.started with
      | true =>
          rw [start_of_started hstarted]
          exact .still rfl rfl nofun nofun
      | false =>
          rw [start_of_not_started hstarted]
          exact .start hstarted
  | stop =>
      cases hstarted : v.started with
      | true =>
          rw [stop_of_started hstarted]
          exact .stop hstarted
      | false =>
          rw [stop_of_not_started hstarted]
          exact .still rfl rfl nofun nofun
  | requestCheck =>
      obtain ⟨permit, tasks, hpass, hpassed⟩ := exists_passed v true
      rw [show v.notify = v.pass true from rfl, hpass]
      exact .requestCheck hpassed
  | deafen => cases hkept
  | call htasks hphase => exact .call (hperm htasks) hphase List.perm_middle
  | @conclude before t after answer htasks hphase =>
      have hlistens := hheard t (by simp [htasks])
      cases hverdict : v.verdict answer with
      | ready fields =>
          refine .ready (hperm htasks) hphase hverdict ?_
          rw [Task.tell, if_pos hlistens]
          exact List.perm_middle
      | retry =>
          rw [Vigil.conclude, if_pos hlistens, Task.tell, if_pos hlistens]
          exact .retry (hperm htasks) hphase hverdict (List.perm_append_singleton _ _)
  | @request before t after wake htasks hphase =>
      have hpass : v.wake before t after .request =
          { v with tasks := before ++ { t with phase := .looking } :: after } := by
        simp [Vigil.wake, pass]
      rw [hpass]
      exact .request (hperm htasks) hphase List.perm_middle
  | @timer before t after wake asked htasks hphase hdue =>
      have hasked : (t.asked && decide (Wake.timer = .timer)) = asked := by
        simp [Task.asked, hphase]
      obtain ⟨permit, tasks, hpass, hpassed⟩ := exists_passed
        { v with tasks := before ++ { t with phase := .looking } :: after } asked
      rw [Vigil.wake, hasked, hpass]
      exact .timer (hperm htasks) hphase hdue (hpassed.congr List.perm_middle)
  | @leave before t after htasks hstopped hended =>
      obtain ⟨permit, tasks, hpass, hpassed⟩ := exists_passed
        { v with tasks := before ++ { t with phase := .finished } :: after } t.asked
      rw [Vigil.leave, hpass]
      exact .leave (hperm htasks) hstopped hended (hpassed.congr List.perm_middle)
  | time hle => exact .time hle
  | surroundings store => exact .still rfl rfl nofun nofun

/-- What is settled when a checkpoint is made stays. -/
theorem Change.terms (h : Change v act next) : next.toTerms = v.toTerms := by
  cases h <;> rfl

/-! ## What holds at all times -/

/-- What is true of a task: if it was not stopped, the checkpoint is started and it is the task of the
last start, which ended only if the checkpoint is ready; and somebody listens. -/
structure Fits (v : Vigil) (t : Task) : Prop where
  current : t.stopped = false → v.started = true ∧ t.number + 1 = v.starts
  handed : t.stopped = false → t.ended = true → v.ready = true
  heard : t.heard = true

/-- What holds at all times: there is one task for each start, and a started checkpoint has one that was
not stopped; and no request is kept while somebody waits who was not asked. -/
structure Sound (v : Vigil) : Prop where
  numbers : (v.tasks.map Task.number).Perm (List.range v.starts)
  fits : ∀ t ∈ v.tasks, Fits v t
  started : v.started = true → ∃ t ∈ v.tasks, t.stopped = false
  free : v.permit = true → ∀ t ∈ v.tasks, t.idle = false

theorem Sound.of_fresh (h : Fresh v) : Sound v where
  numbers := by simp [h.tasks, h.starts]
  fits := by simp [h.tasks]
  started := by simp [h.started]
  free := by simp [h.permit]

theorem Sound.all_heard (h : Sound v) : ∀ t ∈ v.tasks, t.heard = true :=
  fun t ht => (h.fits t ht).heard

/-- Two tasks of one number are the same. -/
theorem Sound.eq_of_number (h : Sound v) {t t' : Task} (ht : t ∈ v.tasks) (ht' : t' ∈ v.tasks)
    (hnumber : t.number = t'.number) : t = t' :=
  List.inj_on_of_nodup_map (h.numbers.nodup_iff.mpr List.nodup_range) ht ht' hnumber

theorem Sound.number_lt (h : Sound v) {t : Task} (ht : t ∈ v.tasks) : t.number < v.starts :=
  List.mem_range.mp (h.numbers.mem_iff.mp (List.mem_map_of_mem ht))

/-- One task at most was not stopped. -/
theorem Sound.eq_of_current (h : Sound v) {t t' : Task} (ht : t ∈ v.tasks) (ht' : t' ∈ v.tasks)
    (hcurrent : t.stopped = false) (hcurrent' : t'.stopped = false) : t = t' := by
  refine h.eq_of_number ht ht' ?_
  have hlast := ((h.fits t ht).current hcurrent).2
  have hlast' := ((h.fits t' ht').current hcurrent').2
  omega

theorem Fits.ask {t : Task} (h : Fits v t) : Fits v t.ask := by
  refine ⟨?_, ?_, ?_⟩
  · rw [Task.ask_stopped, Task.ask_number]
    exact h.current
  · rw [Task.ask_stopped, Task.ask_ended]
    exact h.handed
  · rw [Task.ask_heard]
    exact h.heard

theorem Fits.mono {t : Task} (h : Fits v t) (hstarts : next.starts = v.starts)
    (hstarted : next.started = v.started) (hready : v.ready = true → next.ready = true) :
    Fits next t where
  current hcurrent := by
    rw [hstarted, hstarts]
    exact h.current hcurrent
  handed hcurrent hended := hready (h.handed hcurrent hended)
  heard := h.heard

/-- What does not change about a task in a turn. -/
def badge (t : Task) : ℕ × Bool :=
  (t.number, t.stopped)

theorem badge_ask (t : Task) : badge t.ask = badge t := by
  rw [badge, Task.ask_number, Task.ask_stopped, badge]

theorem Passed.badges {permit permit' asked : Bool} {tasks tasks' : List Task}
    (h : Passed permit tasks asked permit' tasks') :
    (tasks'.map badge).Perm (tasks.map badge) := by
  cases h with
  | nothing hperm | kept _ hperm => exact hperm.map badge
  | taken htasks _ hperm =>
      refine (hperm.map badge).trans (.trans ?_ (htasks.map badge).symm)
      rw [List.map_cons, badge_ask, List.map_cons]

theorem numbers_of_badges {tasks tasks' : List Task}
    (h : (tasks'.map badge).Perm (tasks.map badge)) :
    (tasks'.map Task.number).Perm (tasks.map Task.number) := by
  have hnumbers := h.map Prod.fst
  rwa [List.map_map, List.map_map] at hnumbers

theorem exists_current_of_badges {tasks tasks' : List Task}
    (h : (tasks'.map badge).Perm (tasks.map badge)) (hcurrent : ∃ t ∈ tasks, t.stopped = false) :
    ∃ t ∈ tasks', t.stopped = false := by
  obtain ⟨t, ht, hcurrent⟩ := hcurrent
  obtain ⟨t', ht', hsame⟩ := List.mem_map.mp (h.mem_iff.mpr (List.mem_map_of_mem ht))
  exact ⟨t', ht', (congrArg Prod.snd hsame).trans hcurrent⟩

theorem Passed.free {permit permit' asked : Bool} {tasks tasks' : List Task}
    (h : Passed permit tasks asked permit' tasks')
    (hfree : permit = true → ∀ t ∈ tasks, t.idle = false) :
    permit' = true → ∀ t ∈ tasks', t.idle = false := by
  intro hpermit x hx
  cases h with
  | nothing hperm => exact hfree hpermit x (hperm.mem_iff.mp hx)
  | kept hidle hperm => exact hidle x (hperm.mem_iff.mp hx)
  | @taken t _ _ htasks hidle =>
      have hnot := hfree hpermit t (htasks.mem_iff.mpr List.mem_cons_self)
      exact absurd (hidle.symm.trans hnot) nofun

/-- A turn of a task, with a request that it may pass on, keeps what holds. -/
theorem Sound.turn {t t' : Task} {rest : List Task} {permit asked : Bool} (h : Sound v)
    (htasks : v.tasks.Perm (t :: rest))
    (hpassed : Passed permit (t' :: rest) asked next.permit next.tasks)
    (hpermit : permit = true → v.permit = true ∧ t'.idle = false)
    (hbadge : badge t' = badge t) (hfits : Fits next t') (hstarts : next.starts = v.starts)
    (hstarted : next.started = v.started) (hready : v.ready = true → next.ready = true) :
    Sound next := by
  have hbadges : (next.tasks.map badge).Perm (v.tasks.map badge) := by
    refine hpassed.badges.trans (.trans ?_ (htasks.map badge).symm)
    rw [List.map_cons, hbadge, List.map_cons]
  have hmem : ∀ x ∈ rest, x ∈ v.tasks :=
    fun x hx => htasks.mem_iff.mpr (List.mem_cons_of_mem _ hx)
  refine ⟨?_, ?_, ?_, ?_⟩
  · rw [hstarts]
    exact (numbers_of_badges hbadges).trans h.numbers
  · refine hpassed.forall_mem (List.forall_mem_cons.mpr ⟨hfits, ?_⟩) fun x _ hx => hx.ask
    exact fun x hx => (h.fits x (hmem x hx)).mono hstarts hstarted hready
  · intro hon
    exact exists_current_of_badges hbadges (h.started (hstarted ▸ hon))
  · refine hpassed.free fun hkept => List.forall_mem_cons.mpr ⟨(hpermit hkept).2, ?_⟩
    exact fun x hx => h.free (hpermit hkept).1 x (hmem x hx)

theorem Fits.turn {t : Task} (h : Fits v t) {phase : Phase} {events : List Event}
    (hphase : phase ≠ .finished) : Fits v { t with phase, events } where
  current := h.current
  handed _ hended := absurd ((Task.ended_eq_false rfl hphase).symm.trans hended) nofun
  heard := h.heard

theorem Sound.change (h : Sound v) (hchange : Change v act next) : Sound next := by
  have hmem : ∀ {t : Task} {rest : List Task}, v.tasks.Perm (t :: rest) → Fits v t :=
    fun htasks => h.fits _ (htasks.mem_iff.mpr List.mem_cons_self)
  cases hchange with
  | call htasks _ hperm =>
      exact h.turn htasks (.nothing hperm) (fun hpermit => ⟨hpermit, rfl⟩) rfl
        (((hmem htasks).turn (by simp)).mono rfl rfl id) rfl rfl id
  | ready htasks _ _ hperm =>
      have hfits := hmem htasks
      exact h.turn htasks (.nothing hperm) (fun hpermit => ⟨hpermit, rfl⟩) rfl
        ⟨hfits.current, fun _ _ => rfl, hfits.heard⟩ rfl rfl fun _ => rfl
  | retry htasks _ _ hperm =>
      exact h.turn htasks (.nothing hperm) nofun rfl
        (((hmem htasks).turn (by simp)).mono rfl rfl id) rfl rfl id
  | request htasks _ hperm =>
      exact h.turn htasks (.nothing hperm) (fun hpermit => ⟨hpermit, rfl⟩) rfl
        (((hmem htasks).turn (by simp)).mono rfl rfl id) rfl rfl id
  | timer htasks _ _ hpassed =>
      exact h.turn htasks hpassed (fun hpermit => ⟨hpermit, rfl⟩) rfl
        (((hmem htasks).turn (by simp)).mono rfl rfl id) rfl rfl id
  | leave htasks hstopped _ hpassed =>
      have hfits := hmem htasks
      exact h.turn htasks hpassed (fun hpermit => ⟨hpermit, rfl⟩) rfl
        ⟨hfits.current, fun hcurrent => absurd (hstopped.symm.trans hcurrent) nofun, hfits.heard⟩
        rfl rfl id
  | requestCheck hpassed =>
      refine ⟨(numbers_of_badges hpassed.badges).trans h.numbers, ?_, ?_, hpassed.free h.free⟩
      · refine hpassed.forall_mem (fun t ht => ?_) fun x _ hx => hx.ask
        exact (h.fits t ht).mono rfl rfl id
      · exact fun hon => exists_current_of_badges hpassed.badges (h.started hon)
  | start hstopped =>
      have hall : ∀ t ∈ v.tasks, t.stopped = true := by
        intro t ht
        by_contra hcurrent
        have hon := ((h.fits t ht).current (eq_false_of_ne_true hcurrent)).1
        exact absurd (hstopped.symm.trans hon) nofun
      refine ⟨?_, ?_, fun _ => ⟨_, List.mem_append_right _ (List.mem_singleton_self _), rfl⟩, ?_⟩
      · rw [List.map_append, List.map_singleton, List.range_succ]
        exact h.numbers.append_right _
      · refine List.forall_mem_append.mpr ⟨fun t ht => ?_, List.forall_mem_singleton.mpr ?_⟩
        · have hfits := h.fits t ht
          have hnot : t.stopped = false → False := fun hcurrent =>
            absurd ((hall t ht).symm.trans hcurrent) nofun
          exact ⟨fun hcurrent => (hnot hcurrent).elim, fun hcurrent => (hnot hcurrent).elim,
            hfits.heard⟩
        · exact ⟨fun _ => ⟨rfl, rfl⟩, nofun, rfl⟩
      · exact fun hpermit => List.forall_mem_append.mpr ⟨h.free hpermit, by simp [Task.idle]⟩
  | stop hstarted =>
      refine ⟨?_, ?_, nofun, ?_⟩
      · rw [List.map_map]
        exact h.numbers
      · refine List.forall_mem_map.mpr fun t ht => ?_
        exact ⟨nofun, nofun, (h.fits t ht).heard⟩
      · exact fun hpermit => List.forall_mem_map.mpr (h.free hpermit)
  | time | still => exact ⟨h.numbers, fun t ht => (h.fits t ht).mono rfl rfl id, h.started, h.free⟩

theorem Sound.step (h : Sound v) (hstep : Step v act next) (hkept : act.deafens = false) :
    Sound next :=
  h.change (hstep.change h.all_heard hkept)

theorem Run.sound (h : Run first moments last) (hfirst : Sound first)
    (hkept : ∀ m ∈ moments, m.act.deafens = false) : Sound last := by
  induction h with
  | nil => exact hfirst
  | snoc _ hstep ih =>
      rw [List.forall_mem_append, List.forall_mem_singleton] at hkept
      exact (ih hkept.1).step hstep hkept.2

theorem Run.terms (h : Run first moments last) (hfirst : Sound first)
    (hkept : ∀ m ∈ moments, m.act.deafens = false) : last.toTerms = first.toTerms := by
  induction h with
  | nil => rfl
  | snoc hrun hstep ih =>
      rw [List.forall_mem_append, List.forall_mem_singleton] at hkept
      exact (hstep.change (hrun.sound hfirst hkept.1).all_heard hkept.2).terms.trans (ih hkept.1)

/-! ## Turns -/

/-- The turns that a task may take. -/
inductive Turn (v : Vigil) (t : Task) : Act → Prop where
  | call : t.phase = .looking → Turn v t (.call t.number)
  | conclude {answer : Except Failure (Keyed String)} : t.phase = .called answer →
      Turn v t (.conclude t.number (v.verdict answer))
  | request {wake : ℕ} : t.phase = .waiting wake true → Turn v t (.wake t.number .request)
  | timer {wake : ℕ} {asked : Bool} : t.phase = .waiting wake asked → wake ≤ v.now →
      Turn v t (.wake t.number .timer)
  | leave : t.stopped = true → t.ended = false → Turn v t (.leave t.number)

theorem Step.turn {number : ℕ} (h : Step v act next) (hturn : act.turnOf? = some number) :
    ∃ t ∈ v.tasks, t.number = number ∧ Turn v t act := by
  have hmem : ∀ {before after : List Task} {t : Task}, v.tasks = before ++ t :: after →
      t ∈ v.tasks := fun htasks => htasks ▸ List.mem_append_right _ List.mem_cons_self
  cases h with
  | call htasks hphase => exact ⟨_, hmem htasks, Option.some.inj hturn, .call hphase⟩
  | conclude htasks hphase => exact ⟨_, hmem htasks, Option.some.inj hturn, .conclude hphase⟩
  | request htasks hphase => exact ⟨_, hmem htasks, Option.some.inj hturn, .request hphase⟩
  | timer htasks hphase hdue =>
      exact ⟨_, hmem htasks, Option.some.inj hturn, .timer hphase hdue⟩
  | leave htasks hstopped hended =>
      exact ⟨_, hmem htasks, Option.some.inj hturn, .leave hstopped hended⟩
  | start | stop | requestCheck | deafen | time | surroundings => cases hturn

/-- In a turn of the number of a task it is this task that moves. -/
theorem Step.turn_of_mem {t : Task} (h : Step v act next) (hsound : Sound v) (ht : t ∈ v.tasks)
    (hturn : act.turnOf? = some t.number) : Turn v t act := by
  obtain ⟨x, hx, hnumber, hmoves⟩ := h.turn hturn
  rwa [hsound.eq_of_number hx ht hnumber] at hmoves

theorem Turn.ended_eq_false {t : Task} (h : Turn v t act) : t.ended = false := by
  cases h with
  | call hphase | conclude hphase | request hphase | timer hphase =>
      exact Task.ended_eq_false hphase nofun
  | leave _ hended => exact hended

theorem Turn.exists_step {t : Task} (h : Turn v t act) (ht : t ∈ v.tasks) :
    ∃ next, Step v act next := by
  obtain ⟨before, after, htasks⟩ := List.append_of_mem ht
  cases h with
  | call hphase => exact ⟨_, .call htasks hphase⟩
  | conclude hphase => exact ⟨_, .conclude htasks hphase⟩
  | request hphase => exact ⟨_, .request htasks hphase⟩
  | timer hphase hdue => exact ⟨_, .timer htasks hphase hdue⟩
  | leave hstopped hended => exact ⟨_, .leave htasks hstopped hended⟩

/-- A task has nothing to do where it has no turn. -/
theorem rests_iff {t : Task} : t.rests v.now = true ↔ ∀ act, ¬ Turn v t act := by
  constructor
  · intro hrests act hturn
    cases hturn with
    | call hphase | conclude hphase | request hphase => simp [Task.rests, hphase] at hrests
    | timer hphase hdue =>
        simp only [Task.rests, hphase, Bool.and_eq_true, decide_eq_true_eq] at hrests
        exact absurd hrests.1.2 (Nat.not_lt.mpr hdue)
    | leave hstopped hended =>
        cases hphase : t.phase with
        | finished => simp [Task.ended, hphase] at hended
        | looking | called | waiting => simp [Task.rests, hphase, hstopped] at hrests
  · intro hnone
    cases hphase : t.phase with
    | looking => exact absurd (.call hphase) (hnone _)
    | called answer => exact absurd (.conclude hphase) (hnone _)
    | finished => rw [Task.rests, hphase]
    | waiting wake asked =>
        have hasked : asked = false := by
          refine eq_false_of_ne_true fun hasked => ?_
          rw [hasked] at hphase
          exact hnone _ (.request hphase)
        have hdue : v.now < wake := Nat.lt_of_not_le fun hdue => hnone _ (.timer hphase hdue)
        have hcurrent : t.stopped = false := by
          refine eq_false_of_ne_true fun hstopped => hnone _ (.leave hstopped ?_)
          exact Task.ended_eq_false hphase nofun
        simp [Task.rests, hphase, hasked, hdue, hcurrent]

/-- At rest no task has a turn. -/
theorem atRest_iff : AtRest v ↔ ∀ act next, act.isMove = true → ¬ Step v act next := by
  constructor
  · intro hrest act next hmove hstep
    obtain ⟨number, hturn⟩ := Act.exists_turn hmove
    obtain ⟨t, ht, -, hmoves⟩ := hstep.turn hturn
    exact rests_iff.mp (hrest t ht) act hmoves
  · intro hnone t ht
    refine rests_iff.mpr fun act hturn => ?_
    obtain ⟨next, hstep⟩ := hturn.exists_step ht
    refine hnone act next ?_ hstep
    cases hturn <;> rfl

/-! ## What becomes of one task -/

/-- What becomes of a task in a step: it has its turn, or it is asked, or told to end, or nothing at
all. -/
inductive Became (v : Vigil) (act : Act) (t : Task) : Task → Prop where
  | same : act.turnOf? ≠ some t.number → Became v act t t
  | asked : act.turnOf? ≠ some t.number → t.idle = true → Became v act t t.ask
  | stopped : act = .stop true → Became v act t { t with stopped := true }
  | called : act = .call t.number → t.phase = .looking →
      Became v act t { t with phase := .called v.answer }
  | ready {answer : Except Failure (Keyed String)} {fields : List (String × Json)} :
      act = .conclude t.number (.ready fields) → t.phase = .called answer →
      v.verdict answer = .ready fields →
      Became v act t { t with phase := .finished, events := .ready fields :: t.events }
  | retry {answer : Except Failure (Keyed String)} : act = .conclude t.number .retry →
      t.phase = .called answer → v.verdict answer = .retry →
      Became v act t { t with
        phase := .waiting (v.now + v.retry) v.permit, events := .retry :: t.events }
  | request {wake : ℕ} : act = .wake t.number .request → t.phase = .waiting wake true →
      Became v act t { t with phase := .looking }
  | timer {wake : ℕ} {asked : Bool} : act = .wake t.number .timer →
      t.phase = .waiting wake asked → wake ≤ v.now → Became v act t { t with phase := .looking }
  | left : act = .leave t.number → t.stopped = true → t.ended = false →
      Became v act t { t with phase := .finished }

theorem Became.number {t t' : Task} (h : Became v act t t') : t'.number = t.number := by
  cases h with
  | asked => exact t.ask_number
  | same | stopped | called | ready | retry | request | timer | left => rfl

theorem ask_idle (t : Task) : t.ask.idle = false := by
  unfold Task.ask
  split
  · rfl
  · rename_i hphase
    unfold Task.idle
    split
    · rename_i wake asked heq
      exact absurd heq (hphase wake asked)
    · rfl

/-- A task that waits and was not asked when a request is passed on may be asked. -/
theorem Became.ask {t t' : Task} (h : Became v act t t') (hidle : t'.idle = true)
    (hact : ∀ event, act ≠ .conclude t.number event) (hstop : act ≠ .stop true) :
    Became v act t t'.ask := by
  cases h with
  | same hturn => exact .asked hturn hidle
  | asked _ => exact absurd ((ask_idle t).symm.trans hidle) nofun
  | stopped hact' => exact absurd hact' hstop
  | ready hact' | retry hact' => exact absurd hact' (hact _)
  | called | request | timer | left => cases hidle

/-- Every task was there before, but for the one of a start. -/
theorem Change.became (h : Change v act next) (hsound : Sound v) :
    ∀ t' ∈ next.tasks, (∃ t ∈ v.tasks, Became v act t t') ∨
      act = .start true ∧ t' = { number := v.starts } := by
  -- the others are not of the number whose turn it is
  have hothers : ∀ {t : Task} {rest : List Task}, v.tasks.Perm (t :: rest) →
      act.turnOf? = some t.number → ∀ x ∈ rest, ∃ y ∈ v.tasks, Became v act y x := by
    intro t rest htasks hturn x hx
    refine ⟨x, htasks.mem_iff.mpr (List.mem_cons_of_mem _ hx), .same ?_⟩
    have hnodup := ((htasks.map Task.number).symm.trans hsound.numbers).nodup_iff.mpr
      List.nodup_range
    intro hsame
    refine (List.nodup_cons.mp hnodup).1 (List.mem_map.mpr ⟨x, hx, ?_⟩)
    exact Option.some.inj (hsame.symm.trans hturn)
  have hmem : ∀ {t : Task} {rest : List Task}, v.tasks.Perm (t :: rest) → t ∈ v.tasks :=
    fun htasks => htasks.mem_iff.mpr List.mem_cons_self
  have hall : ∀ {t t₁ : Task} {rest : List Task}, v.tasks.Perm (t :: rest) →
      act.turnOf? = some t.number → Became v act t t₁ →
        ∀ x ∈ t₁ :: rest, ∃ y ∈ v.tasks, Became v act y x :=
    fun htasks hturn hbecame => List.forall_mem_cons.mpr
      ⟨⟨_, hmem htasks, hbecame⟩, hothers htasks hturn⟩
  intro t' ht'
  cases h with
  | call htasks hphase hperm =>
      exact .inl (hall htasks rfl (.called rfl hphase) t' (hperm.mem_iff.mp ht'))
  | ready htasks hphase hverdict hperm =>
      exact .inl (hall htasks rfl (.ready rfl hphase hverdict) t' (hperm.mem_iff.mp ht'))
  | retry htasks hphase hverdict hperm =>
      exact .inl (hall htasks rfl (.retry rfl hphase hverdict) t' (hperm.mem_iff.mp ht'))
  | request htasks hphase hperm =>
      exact .inl (hall htasks rfl (.request rfl hphase) t' (hperm.mem_iff.mp ht'))
  | timer htasks hphase hdue hpassed =>
      refine .inl (hpassed.forall_mem (hall htasks rfl (.timer rfl hphase hdue)) ?_ t' ht')
      rintro x hidle ⟨y, hy, hbecame⟩
      exact ⟨y, hy, hbecame.ask hidle nofun nofun⟩
  | leave htasks hstopped hended hpassed =>
      refine .inl (hpassed.forall_mem (hall htasks rfl (.left rfl hstopped hended)) ?_ t' ht')
      rintro x hidle ⟨y, hy, hbecame⟩
      exact ⟨y, hy, hbecame.ask hidle nofun nofun⟩
  | requestCheck hpassed =>
      refine .inl (hpassed.forall_mem (P := fun x => ∃ y ∈ v.tasks, Became v .requestCheck y x)
        (fun x hx => ⟨x, hx, .same nofun⟩) ?_ t' ht')
      rintro x hidle ⟨y, hy, hbecame⟩
      exact ⟨y, hy, hbecame.ask hidle nofun nofun⟩
  | start =>
      rcases List.mem_append.mp ht' with hold | hnew
      · exact .inl ⟨t', hold, .same nofun⟩
      · exact .inr ⟨rfl, List.mem_singleton.mp hnew⟩
  | stop =>
      obtain ⟨t, ht, rfl⟩ := List.mem_map.mp ht'
      exact .inl ⟨t, ht, .stopped rfl⟩
  | time => exact .inl ⟨t', ht', .same nofun⟩
  | still _ hmove =>
      exact .inl ⟨t', ht', .same (by simp [Act.turnOf?_eq_none hmove])⟩

end
end Vigil
end Checkpoint
end Uplink
