import Uplink.Proofs.Checkpoint.Protocol

/-!
# What becomes of a request

A request ends the wait of a task, or else it is kept for the next wait.  Two accounts carry what
follows: a call that is about to be made was brought about by a start or by the end of a wait, and a wait
that a request ends uses this request up.  So requests bring about two calls at most, however many they
are, and one more for each task that was stopped and has not ended.

That they bring about one at all is told by what is owed: until the call there is a turn to take, so that
time cannot pass.  Only a task that was stopped can come in between: it may take the request, and end
without a call.
-/

namespace Uplink
namespace Checkpoint

/-- Whether the task is about to call the store. -/
def Task.isLooking (t : Task) : Bool :=
  match t.phase with
  | .looking => true
  | _ => false

/-- How many turns a task takes before the next call, if it comes to that call. -/
def Task.lag (t : Task) : ℕ :=
  match t.phase with
  | .called _ => 2
  | .waiting .. => 1
  | _ => 0

namespace Vigil

namespace Act

/-- A call of the store. -/
def isCall : Act → Bool
  | call _ => true
  | _ => false

/-- The end of an interval ends a wait. -/
def isTimer : Act → Bool
  | wake _ .timer => true
  | _ => false

/-- A task ends because it was told to. -/
def isLeave : Act → Bool
  | leave _ => true
  | _ => false

end Act

/-- How many calls are about to be made. -/
def afoot (v : Vigil) : ℕ :=
  v.tasks.countP Task.isLooking

/-- How many tasks go on, of those that were stopped or of those that were not. -/
def going (stopped : Bool) (v : Vigil) : ℕ :=
  v.tasks.countP fun t => (t.stopped == stopped) && !t.ended

/-- If a task that was stopped has a turn, it ends. -/
def Moment.Obedient (m : Moment) : Prop :=
  ∀ t ∈ m.vigil.tasks, t.stopped = true → m.act.turnOf? = some t.number → m.act = .leave t.number

/-- A task that was stopped took a request. -/
def Moment.Takes (m : Moment) : Prop :=
  ∃ t ∈ m.vigil.tasks, t.stopped = true ∧ m.act = .wake t.number .request

/-- The task that was not stopped calls the store. -/
def Moment.Calls (m : Moment) : Prop :=
  ∃ t ∈ m.vigil.tasks, t.stopped = false ∧ m.act = .call t.number

/-- The answer that the task had not seen at a moment made the checkpoint ready. -/
def TurnsReady (m : Moment) (v : Vigil) : Prop :=
  ∃ t ∈ m.vigil.tasks, t.stopped = false ∧ ∃ answer fields, t.phase = .called answer ∧
    m.vigil.verdict answer = .ready fields ∧ v.ready = true

section

variable {v next first middle last : Vigil} {act : Act} {m x : Moment}
  {moments since : List Moment} {t t' c : Task} {rest : List Task} {stopped : Bool}

/-! ## Each call has a cause -/

theorem Passed.countP_eq {p : Task → Bool} {permit permit' asked : Bool} {tasks tasks' : List Task}
    (h : Passed permit tasks asked permit' tasks') (hask : ∀ t, t.idle = true → p t.ask = p t) :
    tasks'.countP p = tasks.countP p := by
  cases h with
  | nothing hperm | kept _ hperm => exact hperm.countP_eq p
  | taken htasks hidle hperm =>
      rw [hperm.countP_eq, htasks.countP_eq, List.countP_cons, List.countP_cons, hask _ hidle]

theorem isLooking_ask (hidle : t.idle = true) : t.ask.isLooking = t.isLooking := by
  obtain ⟨wake, hphase⟩ := exists_of_idle hidle
  rw [ask_of_waiting hphase, Task.isLooking, Task.isLooking, hphase]

/-- A call is brought about by a start, or by the end of a wait. -/
theorem Change.afoot_le (h : Change v act next) :
    afoot next + act.isCall.toNat ≤
      afoot v + act.isCut.toNat + act.isTimer.toNat + act.begins.toNat := by
  cases h with
  | call htasks hphase hperm | ready htasks hphase _ hperm | retry htasks hphase _ hperm
  | request htasks hphase hperm =>
      rw [afoot, afoot, countP_of_perm htasks, countP_of_perm hperm]
      simp [Task.isLooking, hphase, Act.isCall, Act.isCut, Act.isTimer, Act.begins]
  | timer htasks hphase _ hpassed =>
      rw [afoot, afoot, countP_of_perm htasks, hpassed.countP_eq fun t => isLooking_ask,
        countP_of_perm (.refl _)]
      simp [Task.isLooking, hphase, Act.isCall, Act.isCut, Act.isTimer, Act.begins]
  | leave htasks _ _ hpassed =>
      rw [afoot, afoot, countP_of_perm htasks, hpassed.countP_eq fun t => isLooking_ask,
        countP_of_perm (.refl _)]
      simp [Task.isLooking, Act.isCall, Act.isCut, Act.isTimer, Act.begins]
  | requestCheck hpassed =>
      rw [afoot, afoot, hpassed.countP_eq fun t => isLooking_ask]
      exact Nat.le_refl _
  | start => simp [afoot, Task.isLooking, Act.isCall, Act.isCut, Act.isTimer, Act.begins]
  | stop =>
      rw [afoot, List.countP_map]
      exact Nat.le_refl _
  | time => exact Nat.le_refl _
  | still _ hmove =>
      have hcall : act.isCall = false := by
        cases act with
        | call => cases hmove
        | _ => rfl
      simp only [afoot, hcall, Bool.toNat_false]
      omega

theorem Run.calls_le (h : Run first moments last) (hsound : Sound first)
    (hkept : ∀ m ∈ moments, m.act.deafens = false) :
    times Act.isCall moments + afoot last ≤
      afoot first + times Act.isCut moments + times Act.isTimer moments +
        times Act.begins moments := by
  induction h with
  | nil => simp [times]
  | snoc hrun hstep ih =>
      rw [List.forall_mem_append, List.forall_mem_singleton] at hkept
      have hone := (hstep.change (hrun.sound hsound hkept.1).all_heard hkept.2).afoot_le
      have hearlier := ih hkept.1
      simp only [times_concat]
      omega

/-! ## The tasks that go on -/

theorem going_ask (t : Task) :
    ((t.ask.stopped == stopped) && !t.ask.ended) = ((t.stopped == stopped) && !t.ended) := by
  rw [Task.ask_stopped, Task.ask_ended]

/-- Until the next start or stop the tasks that go on become fewer, by each that leaves. -/
theorem Change.going_le (h : Change v act next) (hturns : act.turns = false) :
    going stopped next + (act.isLeave && stopped).toNat ≤ going stopped v := by
  cases h with
  | call htasks hphase hperm | ready htasks hphase _ hperm | retry htasks hphase _ hperm
  | request htasks hphase hperm =>
      rw [going, going, countP_of_perm htasks, countP_of_perm hperm]
      simp [Task.ended, hphase, Act.isLeave]
  | timer htasks hphase _ hpassed =>
      rw [going, going, countP_of_perm htasks, hpassed.countP_eq fun t _ => going_ask t,
        countP_of_perm (.refl _)]
      simp [Task.ended, hphase, Act.isLeave]
  | @leave t rest _ _ htasks hstopped hended hpassed =>
      have hover : { t with phase := Phase.finished }.ended = true := rfl
      rw [going, going, countP_of_perm htasks, hpassed.countP_eq fun t _ => going_ask t,
        countP_of_perm (.refl _), hover, hended, hstopped]
      cases stopped <;> simp [Act.isLeave]
  | requestCheck hpassed =>
      rw [going, going, hpassed.countP_eq fun t _ => going_ask t]
      exact Nat.le_refl _
  | start | stop => cases hturns
  | time => exact Nat.le_refl _
  | still _ hmove =>
      have hleave : act.isLeave = false := by
        cases act with
        | leave => cases hmove
        | _ => rfl
      simp [going, hleave]

theorem Run.going_le (h : Run first moments last) (hsound : Sound first)
    (hkept : ∀ m ∈ moments, m.act.deafens = false) (hturns : ∀ m ∈ moments, m.act.turns = false) :
    going stopped last ≤ going stopped first := by
  induction h with
  | nil => exact Nat.le_refl _
  | snoc hrun hstep ih =>
      rw [List.forall_mem_append, List.forall_mem_singleton] at hkept hturns
      have hchange := hstep.change (hrun.sound hsound hkept.1).all_heard hkept.2
      exact Nat.le_trans (Nat.le_of_add_right_le (hchange.going_le hturns.2)) (ih hkept.1 hturns.1)

/-- A request that was given to a task, or a call that is about to be made, belongs to a task that goes
on. -/
theorem asked_add_afoot_le (v : Vigil) :
    v.tasks.countP Task.asked + afoot v ≤ going true v + going false v := by
  have htask : ∀ t : Task, t.asked.toNat + t.isLooking.toNat ≤
      ((t.stopped == true) && !t.ended).toNat + ((t.stopped == false) && !t.ended).toNat := by
    intro t
    unfold Task.asked Task.isLooking Task.ended
    cases t.phase with
    | waiting wake asked => cases t.stopped <;> cases asked <;> simp
    | looking | called | finished => cases t.stopped <;> simp
  unfold afoot going
  induction v.tasks with
  | nil => simp
  | cons t rest ih =>
      have hone := htask t
      rw [countP_of_perm (.refl (t :: rest)), countP_of_perm (.refl (t :: rest)),
        countP_of_perm (.refl (t :: rest)), countP_of_perm (.refl (t :: rest))]
      omega

/-- One request more may be kept. -/
theorem unused_add_afoot_le (v : Vigil) :
    unused v + afoot v ≤ 1 + going true v + going false v := by
  have hpermit := Bool.toNat_le v.permit
  have htasks := asked_add_afoot_le v
  unfold unused
  omega

theorem exists_perm (h : t ∈ v.tasks) : ∃ rest, v.tasks.Perm (t :: rest) := by
  obtain ⟨before, after, htasks⟩ := List.append_of_mem h
  exact ⟨before ++ after, htasks ▸ List.perm_middle⟩

/-- Beside the task that was not stopped, all were stopped. -/
theorem Sound.stopped_of_perm (h : Sound v) (hperm : v.tasks.Perm (c :: rest))
    (hcurrent : c.stopped = false) : ∀ x ∈ rest, x.stopped = true := by
  intro x hx
  by_contra hx'
  have hsame : x = c := h.eq_of_current (hperm.mem_iff.mpr (List.mem_cons_of_mem _ hx))
    (hperm.mem_iff.mpr List.mem_cons_self) (eq_false_of_ne_true hx') hcurrent
  have hnodup := ((hperm.map Task.number).symm.trans h.numbers).nodup_iff.mpr List.nodup_range
  exact (List.nodup_cons.mp hnodup).1 (List.mem_map.mpr ⟨x, hx, by rw [hsame]⟩)

theorem Sound.going_false_le_one (h : Sound v) : going false v ≤ 1 := by
  by_cases hany : ∃ c ∈ v.tasks, c.stopped = false
  · obtain ⟨c, hc, hcurrent⟩ := hany
    obtain ⟨rest, hperm⟩ := exists_perm hc
    have hrest : rest.countP (fun t => (t.stopped == false) && !t.ended) = 0 :=
      List.countP_eq_zero.mpr fun x hx => by simp [h.stopped_of_perm hperm hcurrent x hx]
    rw [going, countP_of_perm hperm, hrest, Nat.zero_add]
    exact Bool.toNat_le _
  · have hnone : going false v = 0 :=
      List.countP_eq_zero.mpr fun x hx => by simp [eq_true_of_ne_false fun hx' => hany ⟨x, hx, hx'⟩]
    exact hnone ▸ Nat.zero_le _

/-- However many requests were made before, no more than two are used, and one for each task that was
stopped and goes on. -/
theorem Run.requests_used (h : Run first moments last) (hsound : Sound first)
    (hkept : ∀ m ∈ moments, m.act.deafens = false)
    (hrequest : ∀ m ∈ moments, m.act.isRequest = false) :
    times Act.isCut moments ≤ unused first ∧
      times Act.isCall moments ≤ unused first + afoot first + times Act.isTimer moments +
        times Act.begins moments := by
  have hcuts := h.cuts_le hsound hkept
  have hcalls := h.calls_le hsound hkept
  have hnone : times Act.isRequest moments = 0 :=
    List.countP_eq_zero.mpr fun m hm => by simp [hrequest m hm]
  omega

/-! ## The calls of a moment -/

/-- The task that was not stopped does not wait for a time that has come. -/
def Ahead (v : Vigil) : Prop :=
  ∀ t ∈ v.tasks, t.stopped = false → ∀ wake asked, t.phase = .waiting wake asked → v.now < wake

theorem Became.current (h : Became v act t t') (hcurrent : t'.stopped = false) :
    t.stopped = false := by
  cases h with
  | stopped => cases hcurrent
  | asked => rwa [Task.ask_stopped] at hcurrent
  | same | called | ready | retry | request | timer | left => exact hcurrent

theorem Became.ahead (h : Became v act t t') (hretry : 0 < v.retry)
    (hahead : ∀ wake asked, t.phase = .waiting wake asked → v.now < wake) :
    ∀ wake asked, t'.phase = .waiting wake asked → v.now < wake := by
  cases h with
  | same | stopped => exact hahead
  | asked _ hidle =>
      obtain ⟨wake, hphase⟩ := exists_of_idle hidle
      rw [ask_of_waiting hphase]
      rintro _ _ ⟨⟩
      exact hahead wake false hphase
  | retry =>
      rintro _ _ ⟨⟩
      exact Nat.lt_add_of_pos_right hretry
  | called | ready | request | timer | left => exact nofun

/-- As long as no time passes, no interval ends that begins at this moment. -/
theorem Change.ahead (h : Change v act next) (hsound : Sound v) (hretry : 0 < v.retry)
    (htime : ∀ moment, act ≠ .time moment) (hahead : Ahead v) : Ahead next := by
  intro t' ht' hcurrent wake asked hphase
  rw [h.now_eq htime]
  rcases h.became hsound t' ht' with ⟨t, ht, hbecame⟩ | ⟨-, rfl⟩
  · exact hbecame.ahead hretry (hahead t ht (hbecame.current hcurrent)) wake asked hphase
  · cases hphase

/-- After a call of the task that was not stopped, this task has yet to see the answer. -/
theorem Change.ahead_of_call (h : Change v act next) (hsound : Sound v)
    (hcalls : Moment.Calls ⟨v, act⟩) : Ahead next := by
  obtain ⟨c, hc, hcurrent, rfl⟩ := hcalls
  intro t' ht' hcurrent' wake asked hphase
  rcases h.became hsound t' ht' with ⟨t, ht, hbecame⟩ | ⟨hstart, -⟩
  · obtain rfl := hsound.eq_of_current ht hc (hbecame.current hcurrent') hcurrent
    cases hbecame with
    | same hturn | asked hturn => exact absurd rfl hturn
    | stopped hact | ready hact | retry hact | request hact | timer hact | left hact => cases hact
    | called => cases hphase
  · cases hstart

/-- Where those that were stopped only end, no interval ends. -/
theorem Change.not_timer (h : Change v act next) (hobedient : Moment.Obedient ⟨v, act⟩)
    (hahead : Ahead v) : act.isTimer = false := by
  cases h with
  | @timer t _ _ wake asked _ htasks hphase hdue =>
      have ht := htasks.mem_iff.mpr List.mem_cons_self
      cases hstopped : t.stopped with
      | true => cases hobedient t ht hstopped rfl
      | false => exact absurd (hahead t ht hstopped wake asked hphase) (Nat.not_lt.mpr hdue)
  | still _ hmove =>
      cases act with
      | wake => cases hmove
      | _ => rfl
  | call | ready | retry | request | leave | requestCheck | start | stop | time => rfl

theorem Run.timers_eq_zero (h : Run first moments last) (hsound : Sound first)
    (hkept : ∀ m ∈ moments, m.act.deafens = false) (hobedient : ∀ m ∈ moments, m.Obedient)
    (htime : ∀ m ∈ moments, ∀ moment, m.act ≠ .time moment) (hretry : 0 < first.retry)
    (hahead : Ahead first) : times Act.isTimer moments = 0 ∧ Ahead last := by
  induction h with
  | nil => exact ⟨rfl, hahead⟩
  | snoc hrun hstep ih =>
      rw [List.forall_mem_append, List.forall_mem_singleton] at hkept hobedient htime
      obtain ⟨hnone, hahead'⟩ := ih hkept.1 hobedient.1 htime.1
      have hsound' := hrun.sound hsound hkept.1
      have hchange := hstep.change hsound'.all_heard hkept.2
      have hretry' := hrun.terms hsound hkept.1 ▸ hretry
      rw [times_concat, hnone, hchange.not_timer hobedient.2 hahead']
      exact ⟨rfl, hchange.ahead hsound' hretry' htime.2 hahead'⟩

theorem times_append {p : Act → Bool} {moments' : List Moment} :
    times p (moments ++ moments') = times p moments + times p moments' :=
  List.countP_append

theorem times_cons {p : Act → Bool} :
    times p (m :: moments) = (p m.act).toNat + times p moments := by
  rw [times, List.countP_cons, times, Nat.add_comm]
  cases p m.act <;> rfl

theorem times_eq_zero {p : Act → Bool} (h : ∀ m ∈ moments, p m.act = false) :
    times p moments = 0 :=
  List.countP_eq_zero.mpr fun m hm => by simp [h m hm]

theorem Act.exists_of_isCall (h : act.isCall = true) : ∃ number, act = .call number := by
  cases act with
  | call number => exact ⟨number, rfl⟩
  | _ => cases h

theorem Act.begins_eq_false (h : act.turns = false) : act.begins = false := by
  cases act with
  | start => exact h
  | _ => rfl

/-- Where those that were stopped only end, a call is one of the task that was not stopped. -/
theorem Step.calls_of_obedient (h : Step v act next) (hcall : act.isCall = true)
    (hobedient : Moment.Obedient ⟨v, act⟩) : Moment.Calls ⟨v, act⟩ := by
  obtain ⟨number, rfl⟩ := Act.exists_of_isCall hcall
  obtain ⟨t, ht, rfl, -⟩ := h.turn rfl
  refine ⟨t, ht, ?_, rfl⟩
  by_contra hstopped
  cases hobedient t ht (eq_true_of_ne_false hstopped) rfl

/-- Where those that were stopped only end, and an interval is not empty, no more than two calls are made
at a moment, and one for each task that was stopped and goes on, however many requests were made. -/
theorem Run.calls_of_moment (h : Run first moments last) (hsound : Sound first)
    (hkept : ∀ m ∈ moments, m.act.deafens = false) (hobedient : ∀ m ∈ moments, m.Obedient)
    (hrequest : ∀ m ∈ moments, m.act.isRequest = false)
    (hturns : ∀ m ∈ moments, m.act.turns = false)
    (htime : ∀ m ∈ moments, ∀ moment, m.act ≠ .time moment) (hretry : 0 < first.retry) :
    times Act.isCall moments ≤ 2 + going true first := by
  cases hfind : moments.find? fun m => m.act.isCall with
  | none =>
      rw [times_eq_zero fun m hm => eq_false_of_ne_true (List.find?_eq_none.mp hfind m hm)]
      exact Nat.zero_le _
  | some x =>
      -- before the first call an interval may end, and after it none does
      obtain ⟨hcall, before, after, rfl, hbefore⟩ := List.find?_eq_some_iff_append.mp hfind
      rw [List.forall_mem_append] at hkept hrequest hturns htime hobedient
      obtain ⟨middle, hrun, hrun'⟩ := h.of_append
      obtain ⟨rfl, next, hstep, hafter⟩ := hrun'.of_cons
      have hsound' := hrun.sound hsound hkept.1
      obtain ⟨hkept', hkeptAfter⟩ := List.forall_mem_cons.mp hkept.2
      obtain ⟨hobedient', hobedientAfter⟩ := List.forall_mem_cons.mp hobedient.2
      have hcalls := hstep.calls_of_obedient hcall hobedient'
      have hchange := hstep.change hsound'.all_heard hkept'
      have hsoundNext := hsound'.change hchange
      have hretryNext : next.retry = first.retry :=
        congrArg Terms.retry (hchange.terms.trans (hrun.terms hsound hkept.1))
      obtain ⟨htimers, -⟩ := hafter.timers_eq_zero hsoundNext hkeptAfter hobedientAfter
        (List.forall_mem_cons.mp htime.2).2 (hretryNext ▸ hretry) (hchange.ahead_of_call hsound' hcalls)
      have htimer : x.act.isTimer = false := by
        obtain ⟨number, hact⟩ := Act.exists_of_isCall hcall
        rw [hact]
        rfl
      have hbegins : times Act.begins (x :: after) = 0 :=
        times_eq_zero fun m hm => Act.begins_eq_false (hturns.2 m hm)
      have hearlier : times Act.isCall before = 0 :=
        times_eq_zero fun m hm => (Bool.not_eq_true' _).mp (hbefore m hm)
      have hused := (hrun'.requests_used hsound' hkept.2 hrequest.2).2
      have hgoing : going true x.vigil ≤ going true first := hrun.going_le hsound hkept.1 hturns.1
      have hone := hsound'.going_false_le_one
      have hbound := unused_add_afoot_le x.vigil
      rw [hbegins, times_cons (p := Act.isTimer), htimers, htimer] at hused
      rw [times_append, hearlier]
      simp only [Bool.toNat_false] at hused
      omega

/-! ## A request is heeded -/

/-- How many turns the tasks take. -/
def moves (moments : List Moment) : ℕ :=
  times Act.isMove moments

/-- How a request is heeded: by a call that is made later without any time passing, unless the answer
that was not seen yet made the checkpoint ready, or a task that was stopped took a request; until then
there is a turn to take, and if those that were stopped only end, there are not many. -/
inductive Heeded (m : Moment) (since : List Moment) (v : Vigil) : Prop where
  | called {x : Moment} (mem : x ∈ since) (calls : x.Calls) (now : x.now = m.now)
  | ready (turns : TurnsReady m v)
  | taken {x : Moment} (mem : x ∈ since) (takes : x.Takes)
  | pending {c : Task} (mem : c ∈ v.tasks) (current : c.stopped = false) (going : c.ended = false)
      (owed : c.phase = .looking ∨ 0 < unused v) (now : v.now = m.now)
      (seen : ∀ answer, c.phase = .called answer →
        ∃ t ∈ m.vigil.tasks, t.stopped = false ∧ t.phase = .called answer)
      (terms : v.toTerms = m.vigil.toTerms)
      (moves : (∀ x ∈ since, x.Obedient) →
        moves since + c.lag + Vigil.going true v ≤ 2 + Vigil.going true m.vigil)

/-- What is owed can be done at once. -/
theorem not_atRest_of_owed (hsound : Sound v) (hc : c ∈ v.tasks) (hgoing : c.ended = false)
    (howed : c.phase = .looking ∨ 0 < unused v) : ¬ AtRest v := by
  intro hrest
  have hrests := hrest c hc
  cases hphase : c.phase with
  | looking | called => simp [Task.rests, hphase] at hrests
  | finished => simp [Task.ended, hphase] at hgoing
  | waiting wake asked =>
      cases asked with
      | true => simp [Task.rests, hphase] at hrests
      | false =>
          have hidle : c.idle = true := by rw [Task.idle, hphase]; rfl
          have hnone := hrest.unused_eq_zero hsound hc hidle
          simp [hphase, hnone] at howed

/-- Until the next start or stop there is a task that was not stopped, if there was one. -/
theorem Change.current (h : Change v act next) (hsound : Sound v) (hturns : act.turns = false)
    (hc : c ∈ v.tasks) (hcurrent : c.stopped = false) :
    ∃ c' ∈ next.tasks, c'.stopped = false ∧ Became v act c c' := by
  have hstarted : next.started = true :=
    h.started_iff.mpr (.inr ⟨hturns, ((hsound.fits c hc).current hcurrent).1⟩)
  obtain ⟨c', hc', hcurrent'⟩ := (hsound.change h).started hstarted
  rcases h.became hsound c' hc' with ⟨t, ht, hbecame⟩ | ⟨rfl, -⟩
  · obtain rfl := hsound.eq_of_current ht hc (hbecame.current hcurrent') hcurrent
    exact ⟨c', hc', hcurrent', hbecame⟩
  · cases hturns

theorem lag_le_two (t : Task) : t.lag ≤ 2 := by
  unfold Task.lag
  split <;> decide

theorem moves_concat : moves (moments ++ [m]) = moves moments + m.act.isMove.toNat :=
  times_concat

theorem Act.exists_of_isCut (h : act.isCut = true) : ∃ number, act = .wake number .request := by
  cases act with
  | wake number wake =>
      cases wake with
      | request => exact ⟨number, rfl⟩
      | timer => cases h
  | _ => cases h

/-- If another task has a turn, it was stopped. -/
theorem Step.stopped_of_turn {number : ℕ} (h : Step v act next) (hsound : Sound v)
    (hc : c ∈ v.tasks) (hcurrent : c.stopped = false) (hturn : act.turnOf? = some number)
    (hother : act.turnOf? ≠ some c.number) : ∃ t ∈ v.tasks, t.number = number ∧ t.stopped = true := by
  obtain ⟨t, ht, rfl, -⟩ := h.turn hturn
  refine ⟨t, ht, rfl, ?_⟩
  by_contra hstopped
  obtain rfl := hsound.eq_of_current ht hc (eq_false_of_ne_true hstopped) hcurrent
  exact hother hturn

/-- If no task that was stopped takes a request, no wait of another task is ended by one. -/
theorem Step.not_cut (h : Step v act next) (hsound : Sound v) (hc : c ∈ v.tasks)
    (hcurrent : c.stopped = false) (hother : act.turnOf? ≠ some c.number)
    (htakes : ¬ Moment.Takes ⟨v, act⟩) : act.isCut = false := by
  by_contra hcut
  obtain ⟨number, rfl⟩ := Act.exists_of_isCut (eq_true_of_ne_false hcut)
  obtain ⟨t, ht, rfl, hstopped⟩ := h.stopped_of_turn hsound hc hcurrent rfl hother
  exact htakes ⟨t, ht, hstopped, rfl⟩

/-- A turn of another task is one that leaves, if those that were stopped only end. -/
theorem Step.going_of_others (h : Step v act next) (hsound : Sound v) (hchange : Change v act next)
    (hc : c ∈ v.tasks) (hcurrent : c.stopped = false) (hother : act.turnOf? ≠ some c.number)
    (hturns : act.turns = false) (hobedient : Moment.Obedient ⟨v, act⟩) :
    act.isMove.toNat + going true next ≤ going true v := by
  have hgoing : going true next + (act.isLeave && true).toNat ≤ going true v :=
    hchange.going_le hturns
  cases hmove : act.isMove with
  | false =>
      rw [Bool.toNat_false, Nat.zero_add]
      exact Nat.le_of_add_right_le hgoing
  | true =>
      obtain ⟨number, hturn⟩ := Act.exists_turn hmove
      obtain ⟨t, ht, rfl, hstopped⟩ := h.stopped_of_turn hsound hc hcurrent hturn hother
      have hleave := hobedient t ht hstopped hturn
      dsimp only at hleave
      subst hleave
      rw [Nat.add_comm]
      exact hgoing

/-- A request is pending when it was made. -/
theorem heeded_of_request (hstep : Step v .requestCheck next) (hsound : Sound v)
    (hstarted : v.started = true) (hready : v.ready = false) :
    Heeded ⟨v, .requestCheck⟩ [] next := by
  have hchange := hstep.change hsound.all_heard rfl
  obtain ⟨c, hc, hcurrent⟩ := hsound.started hstarted
  obtain ⟨c', hc', hcurrent', hbecame⟩ := hchange.current hsound rfl hc hcurrent
  have hcgoing : c.ended = false := by
    by_contra hended
    have hhanded := (hsound.fits c hc).handed hcurrent (eq_true_of_ne_false hended)
    exact absurd (hready.symm.trans hhanded) nofun
  have hpos := hchange.unused_pos_of_request
  have hgoing : going true next ≤ going true v := Nat.le_of_add_right_le (hchange.going_le rfl)
  have hmoves : moves [] + c'.lag + going true next ≤ 2 + going true v := by
    have hlag := lag_le_two c'
    have hnone : moves [] = 0 := rfl
    omega
  have hnow := hchange.now_eq nofun
  cases hbecame with
  | same =>
      exact .pending hc' hcurrent' hcgoing (.inr hpos) hnow (fun _ hphase => ⟨c, hc, hcurrent, hphase⟩)
        hchange.terms fun _ => hmoves
  | asked _ hidle =>
      obtain ⟨wake, hphase⟩ := exists_of_idle hidle
      refine .pending hc' hcurrent' (c.ask_ended.trans hcgoing) (.inr hpos) hnow ?_ hchange.terms
        fun _ => hmoves
      rw [ask_of_waiting hphase]
      exact nofun
  | stopped hact | called hact | ready hact | retry hact | request hact | timer hact | left hact =>
      cases hact

theorem moves_concat_le {n lag bound : ℕ}
    (hless : act.isMove.toNat + n + going true next ≤ lag + going true v)
    (hbefore : moves since + lag + going true v ≤ bound) :
    moves (since ++ [⟨v, act⟩]) + n + going true next ≤ bound := by
  rw [moves_concat]
  dsimp only
  omega

theorem Became.lag_lt (h : Became v act c t') (hturn : act.turnOf? = some c.number)
    (hgoing : t'.ended = false) (hcall : ∀ number, act ≠ .call number) : t'.lag < c.lag := by
  cases h with
  | same hother | asked hother => exact absurd hturn hother
  | stopped hact =>
      subst hact
      cases hturn
  | called hact => exact absurd hact (hcall _)
  | ready | left => cases hgoing
  | retry _ hphase | request _ hphase | timer _ hphase =>
      simp [Task.lag, hphase]

/-- Where a task takes its turn and does not call yet, the turns that it owes become fewer. -/
theorem Became.moves_le (h : Became v act c t') (hturn : act.turnOf? = some c.number)
    (hgoing : t'.ended = false) (hcall : ∀ number, act ≠ .call number)
    (hfewer : going true next ≤ going true v) :
    act.isMove.toNat + t'.lag + going true next ≤ c.lag + going true v := by
  have hlag := h.lag_lt hturn hgoing hcall
  have hone := Bool.toNat_le act.isMove
  omega

theorem Heeded.step (h : Heeded m since v) (hstep : Step v act next) (hsound : Sound v)
    (hturns : act.turns = false) (hkept : act.deafens = false) (hprompt : Moment.Prompt ⟨v, act⟩) :
    Heeded m (since ++ [⟨v, act⟩]) next := by
  have hchange := hstep.change hsound.all_heard hkept
  have hself : (⟨v, act⟩ : Moment) ∈ since ++ [⟨v, act⟩] :=
    List.mem_append_right _ (List.mem_singleton_self _)
  cases h with
  | called mem calls now => exact .called (List.mem_append_left _ mem) calls now
  | ready turns =>
      obtain ⟨t, ht, hcurrent, answer, fields, hphase, hverdict, hready⟩ := turns
      exact .ready ⟨t, ht, hcurrent, answer, fields, hphase, hverdict,
        hchange.ready_iff.mpr (.inr ⟨hturns, hready⟩)⟩
  | taken mem takes => exact .taken (List.mem_append_left _ mem) takes
  | @pending c mem current going owed now seen terms moves =>
      by_cases htakes : Moment.Takes ⟨v, act⟩
      · exact .taken hself htakes
      have htime : ∀ moment, act ≠ .time moment := by
        rintro moment rfl
        exact not_atRest_of_owed hsound mem going owed (hprompt moment rfl).1
      have hnow := (hchange.now_eq htime).trans now
      have hterms := hchange.terms.trans terms
      obtain ⟨c', hc', hcurrent', hbecame⟩ := hchange.current hsound hturns mem current
      have hfewer : Vigil.going true next ≤ Vigil.going true v :=
        Nat.le_of_add_right_le (hchange.going_le hturns)
      have hobeyed : ∀ {n}, (Moment.Obedient ⟨v, act⟩ → act.isMove.toNat + n + Vigil.going true next ≤
            c.lag + Vigil.going true v) →
          (∀ x ∈ since ++ [⟨v, act⟩], x.Obedient) →
            Vigil.moves (since ++ [⟨v, act⟩]) + n + Vigil.going true next ≤
              2 + Vigil.going true m.vigil := by
        intro n hless hobedient
        rw [List.forall_mem_append, List.forall_mem_singleton] at hobedient
        exact moves_concat_le (hless hobedient.2) (moves hobedient.1)
      have hothers : act.turnOf? ≠ some c.number → Moment.Obedient ⟨v, act⟩ →
          act.isMove.toNat + c.lag + Vigil.going true next ≤ c.lag + Vigil.going true v := by
        intro hother hobedient
        have hless := hstep.going_of_others hsound hchange mem current hother hturns hobedient
        omega
      cases hbecame with
      | same hother =>
          have hcut := hstep.not_cut hsound mem current hother htakes
          exact .pending hc' hcurrent' going (owed.imp_right fun hpos => hchange.unused_pos hpos hcut)
            hnow seen hterms (hobeyed (hothers hother))
      | asked hother hidle =>
          obtain ⟨wake, hphase⟩ := exists_of_idle hidle
          have hlag : c.ask.lag = c.lag := by rw [ask_of_waiting hphase, Task.lag, Task.lag, hphase]
          refine .pending hc' hcurrent' (c.ask_ended.trans going)
            (.inr (unused_pos_of_asked hc' (ask_asked hidle))) hnow ?_ hterms ?_
          · rw [ask_of_waiting hphase]
            exact nofun
          · rw [hlag]
            exact hobeyed (hothers hother)
      | stopped hact =>
          subst hact
          cases hturns
      | called hact => exact .called hself ⟨c, mem, current, hact⟩ now
      | ready hact hphase hverdict =>
          obtain ⟨t, ht, hcurrent, hphase'⟩ := seen _ hphase
          rw [terms] at hverdict
          exact .ready ⟨t, ht, hcurrent, _, _, hphase', hverdict,
            hchange.ready_iff.mpr (.inl ⟨_, _, hact⟩)⟩
      | retry hact hphase hverdict =>
          subst hact
          have hpos := owed.resolve_left (by simp [hphase])
          exact .pending hc' hcurrent' rfl (.inr (hchange.unused_pos hpos rfl)) hnow nofun hterms
            (hobeyed fun _ => (Became.retry rfl hphase hverdict).moves_le rfl rfl nofun hfewer)
      | request hact hphase =>
          subst hact
          exact .pending hc' hcurrent' rfl (.inl rfl) hnow nofun hterms
            (hobeyed fun _ => (Became.request rfl hphase).moves_le rfl rfl nofun hfewer)
      | timer hact hphase hdue =>
          subst hact
          exact .pending hc' hcurrent' rfl (.inl rfl) hnow nofun hterms
            (hobeyed fun _ => (Became.timer rfl hphase hdue).moves_le rfl rfl nofun hfewer)
      | left _ hstopped => cases current.symm.trans hstopped

/-- Until a start or a stop, a request is heeded. -/
theorem Run.heeded (h : Run v since last) (hm : Step m.vigil m.act v) (hrequest : m.act = .requestCheck)
    (hsound : Sound m.vigil) (hstarted : m.vigil.started = true) (hready : m.vigil.ready = false)
    (hturns : ∀ x ∈ since, x.act.turns = false) (hkept : ∀ x ∈ since, x.act.deafens = false)
    (hprompt : ∀ x ∈ since, x.Prompt) : Heeded m since last := by
  obtain ⟨before, act⟩ := m
  cases hrequest
  have hsound' := hsound.step hm rfl
  induction h with
  | nil => exact heeded_of_request hm hsound hstarted hready
  | snoc hrun hstep ih =>
      rw [List.forall_mem_append, List.forall_mem_singleton] at hturns hkept hprompt
      have hbefore := ih hturns.1 hkept.1 hprompt.1
      exact hbefore.step hstep (hrun.sound hsound' hkept.1) hturns.2 hkept.2 hprompt.2

end
end Vigil
end Checkpoint
end Uplink
