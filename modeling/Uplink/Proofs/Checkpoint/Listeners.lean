import Uplink.Proofs.Checkpoint.Vigil
import Uplink.Proofs.History
import Uplink.Proofs.Store.Frame

/-!
# What the listeners of a checkpoint are told

The listener of a start is told about every answer of the store, once and in order, but for an answer
that a stop cuts off.  All of them but the last one are told as retries; an answer that is told as ready
is the last one, for the task has ended then.

This holds of every task, of those that were stopped as well.
-/

namespace Uplink
namespace Checkpoint
namespace Vigil

/-! ## One event for each answer -/

/-- What the store answers to the task of a start. -/
def Moment.answer? (number : ℕ) (m : Moment) : Option (Except Failure (Keyed String)) :=
  match m.act with
  | .call n => if n = number then some m.vigil.answer else none
  | _ => none

/-- What the store answered to the task of a start, the first answer first. -/
def answers (number : ℕ) (moments : List Moment) : List (Except Failure (Keyed String)) :=
  moments.filterMap (Moment.answer? number)

/-- What the listener of a start has to be told. -/
def verdicts (terms : Terms) (number : ℕ) (moments : List Moment) : List Event :=
  (answers number moments).map terms.verdict

/-- What the listener of a task was told, of what it has to be told: as long as the task goes on, all of
it, which are retries, but for an answer that the task has not seen; at the end all of it, a success
being the last; or, if the task was stopped, retries, and one answer may be cut off. -/
inductive Told (terms : Terms) (due : List Event) (t : Task) : Prop where
  | looking (phase : t.phase = .looking) (told : due = t.events.reverse)
      (retries : ∀ event ∈ t.events, event = .retry)
  | called {answer : Except Failure (Keyed String)} (phase : t.phase = .called answer)
      (told : due = t.events.reverse ++ [terms.verdict answer])
      (retries : ∀ event ∈ t.events, event = .retry)
  | waiting {wake : ℕ} {asked : Bool} (phase : t.phase = .waiting wake asked)
      (told : due = t.events.reverse) (retries : ∀ event ∈ t.events, event = .retry)
  | ready {fields : List (String × Json)} {earlier : List Event} (phase : t.phase = .finished)
      (told : due = t.events.reverse) (events : t.events = .ready fields :: earlier)
      (retries : ∀ event ∈ earlier, event = .retry)
  | left {cut : List Event} (phase : t.phase = .finished) (stopped : t.stopped = true)
      (told : due = t.events.reverse ++ cut) (one : cut.length ≤ 1)
      (retries : ∀ event ∈ t.events, event = .retry)

section

variable {v next first last : Vigil} {act : Act} {moments : List Moment} {t t' : Task}
  {terms : Terms} {number : ℕ}

theorem verdicts_concat (m : Moment) :
    verdicts terms number (moments ++ [m]) =
      verdicts terms number moments ++ ((m.answer? number).map terms.verdict).toList := by
  rw [verdicts, answers, List.filterMap_append, List.map_append, verdicts, answers]
  cases h : m.answer? number <;> simp [h]

theorem answer?_eq_none {m : Moment} (h : m.act ≠ .call number) : m.answer? number = none := by
  unfold Moment.answer?
  split
  · rename_i n hact
    refine if_neg fun hn => h ?_
    rw [hact, hn]
  · rfl

theorem exists_of_idle (h : t.idle = true) : ∃ wake, t.phase = .waiting wake false := by
  unfold Task.idle at h
  split at h
  · rename_i wake asked hphase
    exact ⟨wake, by rw [hphase, (Bool.not_eq_true' _).mp h]⟩
  · cases h

theorem ask_of_waiting {wake : ℕ} {asked : Bool} (h : t.phase = .waiting wake asked) :
    t.ask = { t with phase := .waiting wake true } := by
  rw [Task.ask, h]

theorem Told.ask {due : List Event} (h : Told terms due t) (hidle : t.idle = true) :
    Told terms due t.ask := by
  obtain ⟨wake, hphase⟩ := exists_of_idle hidle
  rw [ask_of_waiting hphase]
  cases h with
  | waiting _ told retries => exact .waiting rfl told retries
  | looking phase | called phase | ready phase | left phase => simp [hphase] at phase

theorem Told.stop {due : List Event} (h : Told terms due t) :
    Told terms due { t with stopped := true } := by
  cases h with
  | looking phase told retries => exact .looking phase told retries
  | called phase told retries => exact .called phase told retries
  | waiting phase told retries => exact .waiting phase told retries
  | ready phase told events retries => exact .ready phase told events retries
  | left phase _ told one retries => exact .left phase rfl told one retries

/-- What a task that leaves has not told is the answer that it has not seen. -/
theorem Told.leave {due : List Event} (h : Told terms due t) (hstopped : t.stopped = true)
    (hgoing : t.ended = false) : Told terms due { t with phase := .finished } := by
  cases h with
  | looking _ told retries | waiting _ told retries =>
      exact .left rfl hstopped (told.trans (List.append_nil _).symm) (Nat.zero_le _) retries
  | called _ told retries => exact .left rfl hstopped told (Nat.le_refl _) retries
  | ready phase | left phase => simp [Task.ended, phase] at hgoing

/-- What has to be told of an answer that the task has not seen comes next. -/
theorem Told.eq_concat {due : List Event} {answer : Except Failure (Keyed String)} {event : Event}
    (h : Told terms due t) (hphase : t.phase = .called answer) (hverdict : terms.verdict answer = event) :
    due = (event :: t.events).reverse ∧ ∀ event ∈ t.events, event = .retry := by
  cases h with
  | called phase told retries =>
      cases hphase.symm.trans phase
      rw [hverdict] at told
      exact ⟨told.trans List.reverse_cons.symm, retries⟩
  | looking phase | waiting phase | ready phase | left phase => simp [hphase] at phase

theorem Told.became {due : List Event} (h : Told v.toTerms due t) (hbecame : Became v act t t') :
    Told v.toTerms
      (due ++ ((Moment.answer? t.number ⟨v, act⟩).map v.verdict).toList) t' := by
  have hquiet : act ≠ .call t.number →
      due ++ ((Moment.answer? t.number ⟨v, act⟩).map v.verdict).toList = due := by
    intro hact
    rw [answer?_eq_none hact]
    exact List.append_nil due
  cases hbecame with
  | same hturn =>
      rw [hquiet fun hact => hturn (by rw [hact]; rfl)]
      exact h
  | asked hturn hidle =>
      rw [hquiet fun hact => hturn (by rw [hact]; rfl)]
      exact h.ask hidle
  | stopped hact =>
      rw [hquiet (by rw [hact]; nofun)]
      exact h.stop
  | called hact hphase =>
      subst hact
      cases h with
      | looking _ told retries =>
          refine .called rfl ?_ retries
          simp [Moment.answer?, told]
      | waiting phase | called phase | ready phase | left phase => simp [hphase] at phase
  | ready hact hphase hverdict =>
      rw [hquiet (by rw [hact]; nofun)]
      obtain ⟨htold, hretries⟩ := h.eq_concat hphase hverdict
      exact .ready rfl htold rfl hretries
  | retry hact hphase hverdict =>
      rw [hquiet (by rw [hact]; nofun)]
      obtain ⟨htold, hretries⟩ := h.eq_concat hphase hverdict
      exact .waiting rfl htold (List.forall_mem_cons.mpr ⟨rfl, hretries⟩)
  | request hact hphase | timer hact hphase =>
      rw [hquiet (by rw [hact]; nofun)]
      cases h with
      | waiting _ told retries => exact .looking rfl told retries
      | looking phase | called phase | ready phase | left phase => simp [hphase] at phase
  | left hact hstopped hgoing =>
      rw [hquiet (by rw [hact]; nofun)]
      exact h.leave hstopped hgoing

/-- Every turn is one of a start that was. -/
theorem Change.turn_lt (h : Change v act next) (hsound : Sound v) (hturn : act.turnOf? = some number) :
    number < next.starts := by
  have hmem : ∀ {t : Task} {rest : List Task}, v.tasks.Perm (t :: rest) →
      some t.number = some number → number < v.starts := by
    intro t rest htasks hsame
    rw [← Option.some.inj hsame]
    exact hsound.number_lt (htasks.mem_iff.mpr List.mem_cons_self)
  cases h with
  | call htasks | ready htasks | retry htasks | request htasks | timer htasks | leave htasks =>
      exact hmem htasks hturn
  | requestCheck | start | stop | time => cases hturn
  | still _ hmove =>
      rw [Act.turnOf?_eq_none hmove] at hturn
      cases hturn

theorem Change.starts_le (h : Change v act next) : v.starts ≤ next.starts := by
  cases h with
  | start => exact Nat.le_succ _
  | call | ready | retry | request | timer | leave | requestCheck | stop | time | still =>
      exact Nat.le_refl _

theorem Run.turn_lt (h : Run first moments last) (hsound : Sound first)
    (hkept : ∀ m ∈ moments, m.act.deafens = false) :
    ∀ m ∈ moments, ∀ number, m.act.turnOf? = some number → number < last.starts := by
  induction h with
  | nil => simp
  | snoc hrun hstep ih =>
      rw [List.forall_mem_append, List.forall_mem_singleton] at hkept
      have hsound' := hrun.sound hsound hkept.1
      have hchange := hstep.change hsound'.all_heard hkept.2
      refine List.forall_mem_append.mpr ⟨fun m hm number hturn => ?_,
        List.forall_mem_singleton.mpr fun number hturn => hchange.turn_lt hsound' hturn⟩
      exact Nat.lt_of_lt_of_le (ih hkept.1 m hm number hturn) hchange.starts_le

/-- Of a start that is to come nothing was answered. -/
theorem verdicts_eq_nil (h : ∀ m ∈ moments, m.act.turnOf? ≠ some number) :
    verdicts terms number moments = [] := by
  have hnone : ∀ m ∈ moments, m.answer? number = none :=
    fun m hm => answer?_eq_none fun hact => h m hm (by rw [hact]; rfl)
  rw [verdicts, answers, List.filterMap_eq_nil_iff.mpr hnone, List.map_nil]

theorem Run.told (h : Run first moments last) (hfresh : Fresh first)
    (hkept : ∀ m ∈ moments, m.act.deafens = false) :
    ∀ t ∈ last.tasks, Told last.toTerms (verdicts last.toTerms t.number moments) t := by
  induction h with
  | nil => simp [hfresh.tasks]
  | @snoc last next moments act hrun hstep ih =>
      rw [List.forall_mem_append, List.forall_mem_singleton] at hkept
      have hsound := hrun.sound (.of_fresh hfresh) hkept.1
      have hchange := hstep.change hsound.all_heard hkept.2
      rw [hchange.terms]
      intro t' ht'
      rw [verdicts_concat]
      rcases hchange.became hsound t' ht' with ⟨t, ht, hbecame⟩ | ⟨rfl, rfl⟩
      · rw [hbecame.number]
        exact (ih hkept.1 t ht).became hbecame
      · have hnone : verdicts last.toTerms last.starts moments = [] := verdicts_eq_nil fun m hm hturn =>
          absurd (hrun.turn_lt (.of_fresh hfresh) hkept.1 m hm _ hturn) (Nat.lt_irrefl _)
        rw [hnone]
        exact .looking rfl rfl (by simp)

/-- Retries, and then at most one success. -/
def Shape (events : List Event) : Prop :=
  ∃ n, events = List.replicate n .retry ∨
    ∃ fields, events = List.replicate n .retry ++ [.ready fields]

theorem shape_of_retries {events : List Event} (h : ∀ event ∈ events, event = .retry) :
    events.reverse = List.replicate events.length .retry :=
  List.eq_replicate_iff.mpr ⟨List.length_reverse, fun event hevent =>
    h event (List.mem_reverse.mp hevent)⟩

theorem Told.shape {due : List Event} (h : Told terms due t) : Shape t.events.reverse := by
  cases h with
  | looking _ _ retries | called _ _ retries | waiting _ _ retries | left _ _ _ _ retries =>
      exact ⟨_, .inl (shape_of_retries retries)⟩
  | @ready fields earlier _ _ events retries =>
      refine ⟨earlier.length, .inr ⟨fields, ?_⟩⟩
      rw [events, List.reverse_cons, shape_of_retries retries]

/-- Everything is told that has to be told, but perhaps one event: of an answer that the task has not
seen, or that a stop has cut off. -/
theorem Told.exists_cut {due : List Event} (h : Told terms due t) :
    ∃ cut, due = t.events.reverse ++ cut ∧ cut.length ≤ 1 ∧
      (cut ≠ [] → (∃ answer, t.phase = .called answer) ∨ t.stopped = true ∧ t.ended = true) := by
  have hall : due = t.events.reverse → ∃ cut, due = t.events.reverse ++ cut ∧ cut.length ≤ 1 ∧
      (cut ≠ [] → (∃ answer, t.phase = .called answer) ∨ t.stopped = true ∧ t.ended = true) :=
    fun htold => ⟨[], htold.trans (List.append_nil _).symm, Nat.zero_le _, absurd rfl⟩
  cases h with
  | looking _ told | waiting _ told | ready _ told => exact hall told
  | called phase told => exact ⟨_, told, Nat.le_refl _, fun _ => .inl ⟨_, phase⟩⟩
  | left phase stopped told one =>
      exact ⟨_, told, one, fun _ => .inr ⟨stopped, by rw [Task.ended, phase]⟩⟩

/-- Once a listener was told of a success, the task has ended. -/
theorem Told.ended {due : List Event} {fields : List (String × Json)} (h : Told terms due t)
    (hready : .ready fields ∈ t.events) : t.ended = true := by
  cases h with
  | looking _ _ retries | called _ _ retries | waiting _ _ retries | left _ _ _ _ retries =>
      cases retries _ hready
  | ready phase => rw [Task.ended, phase]

/-! ## Readiness -/

/-- A task hands the fields over: one that was stopped, or the one that was not. -/
def HandsOver (stopped : Bool) (m : Moment) : Prop :=
  ∃ t ∈ m.vigil.tasks, t.stopped = stopped ∧ ∃ fields, m.act = .conclude t.number (.ready fields)

/-- A start succeeds. -/
def Begins (m : Moment) : Prop :=
  m.act = .start true

/-- Something happened, and no start or stop has succeeded since. -/
def Since (happened : Moment → Prop) (moments : List Moment) : Prop :=
  Stands happened (fun m => m.act.turns = false) moments

theorem Change.ready_iff (h : Change v act next) :
    next.ready = true ↔
      (∃ number fields, act = .conclude number (.ready fields)) ∨
        act.turns = false ∧ v.ready = true := by
  cases h with
  | ready => simp
  | still hturns hmove =>
      have hne : ∀ number fields, act ≠ .conclude number (.ready fields) := by
        rintro number fields rfl
        cases hmove
      simp [hturns, hne]
  | call | retry | request | timer | leave | requestCheck | start | stop | time => simp [Act.turns]

theorem Change.started_iff (h : Change v act next) :
    next.started = true ↔ act = .start true ∨ act.turns = false ∧ v.started = true := by
  cases h with
  | still hturns hmove =>
      have hne : act ≠ .start true := by
        rintro rfl
        cases hturns
      simp [hturns, hne]
  | call | ready | retry | request | timer | leave | requestCheck | start | stop | time =>
      simp [Act.turns]

theorem Change.handsOver_iff (h : Change v act next) :
    (∃ stopped, HandsOver stopped ⟨v, act⟩) ↔
      ∃ number fields, act = .conclude number (.ready fields) := by
  constructor
  · rintro ⟨stopped, t, -, -, fields, hact⟩
    exact ⟨_, fields, hact⟩
  · rintro ⟨number, fields, rfl⟩
    cases h with
    | @ready t _ _ _ _ htasks =>
        exact ⟨t.stopped, t, htasks.mem_iff.mpr List.mem_cons_self, rfl, fields, rfl⟩
    | still _ hmove => cases hmove

/-- The checkpoint is ready from a turn that handed the fields over until the next start or stop. -/
theorem Run.ready_iff_handedOver (h : Run first moments last) (hfresh : Fresh first)
    (hkept : ∀ m ∈ moments, m.act.deafens = false) :
    last.ready = true ↔ ∃ stopped, Since (HandsOver stopped) moments := by
  induction h with
  | nil => simp [hfresh.ready, Since, not_stands_nil]
  | snoc hrun hstep ih =>
      rw [List.forall_mem_append, List.forall_mem_singleton] at hkept
      have hsound := hrun.sound (.of_fresh hfresh) hkept.1
      have hchange := hstep.change hsound.all_heard hkept.2
      simp only [Since, stands_concat, exists_or, exists_and_left]
      rw [hchange.handsOver_iff, hchange.ready_iff, ih hkept.1]
      rfl

/-- The checkpoint is started from a start that succeeded, until a stop that succeeds. -/
theorem Run.started_iff_begun (h : Run first moments last) (hfresh : Fresh first)
    (hkept : ∀ m ∈ moments, m.act.deafens = false) :
    last.started = true ↔ Since Begins moments := by
  induction h with
  | nil => simp [hfresh.started, Since, not_stands_nil]
  | snoc hrun hstep ih =>
      rw [List.forall_mem_append, List.forall_mem_singleton] at hkept
      have hsound := hrun.sound (.of_fresh hfresh) hkept.1
      rw [(hstep.change hsound.all_heard hkept.2).started_iff, Since, stands_concat, ih hkept.1]
      rfl

/-! ## Calls of the store -/

theorem pass_store (v : Vigil) (asked : Bool) : (v.pass asked).store = v.store := by
  obtain ⟨permit, tasks, hpass, -⟩ := exists_passed v asked
  rw [hpass]

/-- To ask the store is one call, and the checkpoint makes no other. -/
theorem Step.journal (h : Step v act next) :
    (∀ number, act = .call number → next.store.journal = .readHash v.key :: v.store.journal) ∧
      ((∀ number, act ≠ .call number) → act ≠ .surroundings → next.store = v.store) := by
  cases h with
  | call => exact ⟨fun _ _ => v.store.journal_perform (.readHash v.key), fun h => absurd rfl (h _)⟩
  | surroundings => exact ⟨nofun, fun _ => absurd rfl⟩
  | requestCheck => exact ⟨nofun, fun _ _ => pass_store v true⟩
  | request | timer | leave => exact ⟨nofun, fun _ _ => pass_store _ _⟩
  | @conclude before t after answer =>
      refine ⟨nofun, fun _ _ => ?_⟩
      unfold Vigil.conclude
      split
      · rfl
      · split <;> rfl
  | start =>
      refine ⟨nofun, fun _ _ => ?_⟩
      unfold Vigil.start
      split <;> rfl
  | stop =>
      refine ⟨nofun, fun _ _ => ?_⟩
      unfold Vigil.stop
      split <;> rfl
  | deafen | time => exact ⟨nofun, fun _ _ => rfl⟩

end
end Vigil
end Checkpoint
end Uplink
