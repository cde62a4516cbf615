import Uplink.Proofs.Checkpoint.Listeners

/-!
# The time between two calls of a task

After a call that did not succeed a task waits for the interval, counted from that call.  Where the
store answers at once, the next call comes when the interval is over, or else at the very moment of a
request: one that is made then, or one that was not used yet when the wait began.

An account of the requests carries this: of the one that is kept, and of those that were given to tasks
which have not used them.  At rest, while somebody waits, all of them are used up.
-/

namespace Uplink
namespace Checkpoint
namespace Vigil

namespace Act

/-- A request. -/
def isRequest : Act → Bool
  | requestCheck => true
  | _ => false

/-- A request ends a wait. -/
def isCut : Act → Bool
  | wake _ .request => true
  | _ => false

end Act

/-- How often a thing happened. -/
def times (p : Act → Bool) (moments : List Moment) : ℕ :=
  moments.countP fun m => p m.act

/-- How many requests are there that did not end a wait yet. -/
def unused (v : Vigil) : ℕ :=
  v.permit.toNat + v.tasks.countP Task.asked

/-- At this time there is a request for a wait: one that was there at a moment, or one that is made
now. -/
def Requested (m : Moment) (since : List Moment) (now : ℕ) : Prop :=
  0 < unused m.vigil ∧ now = m.now ∨ ∃ x ∈ since, x.act = .requestCheck ∧ x.now = now

/-- At this time a task has been told to end: before a moment, or now. -/
def Cancelled (m : Moment) (number : ℕ) (since : List Moment) (now : ℕ) : Prop :=
  (∃ t ∈ m.vigil.tasks, t.number = number ∧ t.stopped = true) ∧ now = m.now ∨
    ∃ x ∈ since, x.act = .stop true ∧ x.now = now

/-- How a task goes on that called the store at a moment, or that began to wait then. -/
inductive Wait (m : Moment) (since : List Moment) (v : Vigil) (t : Task) : Prop where
  | called {answer : Except Failure (Keyed String)} (act : m.act = .call t.number)
      (phase : t.phase = .called answer) (now : v.now = m.now)
  | going {asked : Bool} (phase : t.phase = .waiting (m.now + v.retry) asked)
      (le : v.now ≤ m.now + v.retry)
  | full (phase : t.phase = .looking) (now : v.now = m.now + v.retry)
      (timer : ∃ x ∈ since, x.act = .wake t.number .timer)
  | cut (phase : t.phase = .looking) (le : v.now ≤ m.now + v.retry) (request : Requested m since v.now)
      (wake : ∃ x ∈ since, x.act = .wake t.number .request)
  | finished (phase : t.phase = .finished)

/-- The same, and where the requests come from that are there, and when the task was told to end. -/
structure Interval (m : Moment) (since : List Moment) (v : Vigil) (t : Task) : Prop where
  wait : Wait m since v t
  requested : t.ended = false → 0 < unused v → Requested m since v.now
  cancelled : t.ended = false → t.stopped = true → Cancelled m t.number since v.now

/-- The task of a start does not call, and time passes promptly. -/
def Lull (number : ℕ) (since : List Moment) : Prop :=
  ∀ x ∈ since, x.act ≠ .call number ∧ x.Prompt

section

variable {v next first last : Vigil} {act : Act} {m x : Moment} {moments since earlier : List Moment}
  {t t' : Task} {number now : ℕ}

theorem times_concat {p : Act → Bool} :
    times p (moments ++ [m]) = times p moments + (p m.act).toNat := by
  rw [times, List.countP_append, List.countP_singleton, times]
  cases p m.act <;> rfl

/-! ## The account of the requests -/

section

variable {permit permit' asked : Bool} {tasks tasks' : List Task}

theorem countP_of_perm {p : Task → Bool} {rest : List Task} (h : tasks.Perm (t :: rest)) :
    tasks.countP p = rest.countP p + (p t).toNat := by
  rw [h.countP_eq, List.countP_cons]
  cases p t <;> rfl

theorem ask_asked (h : t.idle = true) : t.ask.asked = true := by
  obtain ⟨wake, hphase⟩ := exists_of_idle h
  rw [ask_of_waiting hphase, Task.asked]

theorem asked_eq_false (h : t.idle = true) : t.asked = false := by
  obtain ⟨wake, hphase⟩ := exists_of_idle h
  rw [Task.asked, hphase]

/-- A request that is passed on is not multiplied. -/
theorem Passed.unused_le (h : Passed permit tasks asked permit' tasks') :
    permit'.toNat + tasks'.countP Task.asked ≤
      permit.toNat + tasks.countP Task.asked + asked.toNat := by
  cases h with
  | nothing hperm => rw [hperm.countP_eq]; exact Nat.le_add_right _ _
  | taken htasks hidle hperm =>
      rw [hperm.countP_eq, htasks.countP_eq, List.countP_cons, List.countP_cons, ask_asked hidle,
        asked_eq_false hidle]
      exact Nat.le_refl _
  | kept _ hperm =>
      rw [hperm.countP_eq]
      cases permit <;> simp [Nat.add_comm]

/-- Nor is it lost. -/
theorem Passed.unused_pos (h : Passed permit tasks asked permit' tasks')
    (hpos : 0 < permit.toNat + tasks.countP Task.asked + asked.toNat) :
    0 < permit'.toNat + tasks'.countP Task.asked := by
  cases h with
  | nothing hperm => rwa [hperm.countP_eq]
  | taken _ hidle hperm =>
      rw [hperm.countP_eq, List.countP_cons, ask_asked hidle, if_pos rfl]
      omega
  | kept => simp

end

/-- A request is used once. -/
theorem Change.unused_le (h : Change v act next) :
    unused next + act.isCut.toNat ≤ unused v + act.isRequest.toNat := by
  cases h with
  | call htasks hphase hperm | ready htasks hphase _ hperm | request htasks hphase hperm =>
      rw [unused, unused, countP_of_perm htasks, countP_of_perm hperm]
      simp [Task.asked, hphase, Act.isCut, Act.isRequest, Nat.add_assoc]
  | retry htasks hphase _ hperm =>
      rw [unused, unused, countP_of_perm htasks, countP_of_perm hperm]
      simp [Task.asked, hphase, Act.isCut, Act.isRequest, Nat.add_comm]
  | timer htasks hphase _ hpassed | leave htasks hphase _ hpassed =>
      have hless := hpassed.unused_le
      rw [countP_of_perm (.refl _)] at hless
      rw [unused, unused, countP_of_perm htasks]
      simp [Task.asked, hphase, Act.isCut, Act.isRequest] at hless ⊢
      omega
  | requestCheck hpassed => exact hpassed.unused_le
  | start => simp [unused, Task.asked, Act.isCut]
  | stop =>
      rw [unused, List.countP_map]
      exact Nat.le_refl _
  | time => exact Nat.le_refl _
  | still _ hmove =>
      have hcut : act.isCut = false := by
        cases act with
        | wake => cases hmove
        | _ => rfl
      simp [unused, hcut]

theorem Change.unused_pos_of_request (h : Change v .requestCheck next) : 0 < unused next := by
  cases h with
  | requestCheck hpassed => exact hpassed.unused_pos (Nat.lt_succ_of_le (Nat.zero_le _))
  | still _ _ hrequest => exact absurd rfl hrequest

/-- As long as no wait is ended by a request, no request is lost. -/
theorem Change.unused_pos (h : Change v act next) (hpos : 0 < unused v) (hcut : act.isCut = false) :
    0 < unused next := by
  cases h with
  | call htasks hphase hperm | ready htasks hphase _ hperm | retry htasks hphase _ hperm =>
      rw [unused, countP_of_perm htasks] at hpos
      rw [unused, countP_of_perm hperm]
      simp only [Task.asked, hphase, Bool.toNat_false] at hpos ⊢
      omega
  | request => cases hcut
  | timer htasks hphase _ hpassed | leave htasks hphase _ hpassed =>
      refine hpassed.unused_pos ?_
      rw [unused, countP_of_perm htasks] at hpos
      rw [countP_of_perm (.refl _)]
      simp only [Task.asked, hphase, Bool.toNat_false] at hpos ⊢
      omega
  | requestCheck hpassed => exact (Change.requestCheck hpassed).unused_pos_of_request
  | start => simpa [unused, Task.asked] using hpos
  | stop => simpa [unused, List.countP_map, Function.comp_def, Task.asked] using hpos
  | time | still => exact hpos

/-- Each wait that was ended by a request used one of its own. -/
theorem Run.cuts_le (h : Run first moments last) (hsound : Sound first)
    (hkept : ∀ m ∈ moments, m.act.deafens = false) :
    times Act.isCut moments + unused last ≤ unused first + times Act.isRequest moments := by
  induction h with
  | nil => simp [times]
  | snoc hrun hstep ih =>
      rw [List.forall_mem_append, List.forall_mem_singleton] at hkept
      have hone := (hstep.change (hrun.sound hsound hkept.1).all_heard hkept.2).unused_le
      have hearlier := ih hkept.1
      rw [times_concat, times_concat]
      dsimp only
      omega

theorem unused_of_fresh (h : Fresh v) : unused v = 0 := by
  simp [unused, h.permit, h.tasks]

theorem unused_pos_of_asked (ht : t ∈ v.tasks) (hasked : t.asked = true) : 0 < unused v :=
  Nat.add_pos_right _ (List.countP_pos_iff.mpr ⟨t, ht, hasked⟩)

theorem Task.asked_eq_false_of_rests (h : t.rests now = true) : t.asked = false := by
  unfold Task.rests at h
  unfold Task.asked
  split <;> simp_all

/-- At rest, while somebody waits, all requests are used up. -/
theorem AtRest.unused_eq_zero (h : AtRest v) (hsound : Sound v) (ht : t ∈ v.tasks)
    (hidle : t.idle = true) : unused v = 0 := by
  have hpermit : v.permit = false := by
    cases hkept : v.permit with
    | false => rfl
    | true => exact absurd (hidle.symm.trans (hsound.free hkept t ht)) nofun
  have hasked : v.tasks.countP Task.asked = 0 :=
    List.countP_eq_zero.mpr fun x hx => by simp [Task.asked_eq_false_of_rests (h x hx)]
  simp [unused, hpermit, hasked]

/-! ## How a wait goes on -/

theorem exists_mem_concat {P : Moment → Prop} (h : ∃ y ∈ since, P y) : ∃ y ∈ since ++ [x], P y := by
  obtain ⟨y, hy, hP⟩ := h
  exact ⟨y, List.mem_append_left _ hy, hP⟩

theorem exists_mem_concat_self {P : Moment → Prop} (h : P x) : ∃ y ∈ since ++ [x], P y :=
  ⟨x, List.mem_append_right _ (List.mem_singleton_self x), h⟩

theorem Requested.concat (h : Requested m since now) : Requested m (since ++ [x]) now :=
  h.imp_right exists_mem_concat

theorem Cancelled.concat (h : Cancelled m number since now) :
    Cancelled m number (since ++ [x]) now :=
  h.imp_right exists_mem_concat

theorem Wait.concat (h : Wait m since v t) (hphase : t'.phase = t.phase)
    (hnumber : t'.number = t.number) (hnow : next.now = v.now) (hretry : next.retry = v.retry) :
    Wait m (since ++ [x]) next t' := by
  cases h with
  | called act phase now => exact .called (hnumber ▸ act) (hphase.trans phase) (hnow.trans now)
  | going phase le =>
      rw [← hretry] at phase
      exact .going (hphase.trans phase) (by rwa [hnow, hretry])
  | full phase now timer =>
      rw [← hnumber] at timer
      exact .full (hphase.trans phase) (by rwa [hnow, hretry]) (exists_mem_concat timer)
  | cut phase le request wake =>
      rw [← hnumber] at wake
      rw [← hnow] at request
      exact .cut (hphase.trans phase) (by rwa [hnow, hretry]) request.concat (exists_mem_concat wake)
  | finished phase => exact .finished (hphase.trans phase)

/-- Time that passes promptly passes no request, no stop and no end of a wait. -/
theorem Interval.time {moment : ℕ} (h : Interval m since v t) (ht : t ∈ v.tasks) (hsound : Sound v)
    (hprompt : Moment.Prompt ⟨v, .time moment⟩) :
    Interval m (since ++ [⟨v, .time moment⟩]) { v with now := moment } t := by
  obtain ⟨hrest, hdue⟩ := hprompt moment rfl
  have hrests := hrest t ht
  cases h.wait with
  | called _ phase | full phase | cut phase => simp [Task.rests, phase] at hrests
  | @going asked phase le =>
      simp only [Task.rests, phase, Bool.and_eq_true, Bool.not_eq_true'] at hrests
      obtain ⟨⟨rfl, -⟩, hcurrent⟩ := hrests
      have hidle : t.idle = true := by rw [Task.idle, phase]; rfl
      refine ⟨.going phase (hdue t ht _ _ phase), fun _ hpos => ?_, fun _ hstopped => ?_⟩
      · exact absurd (hrest.unused_eq_zero hsound ht hidle) (Nat.ne_of_gt hpos)
      · cases hstopped.symm.trans hcurrent
  | finished phase =>
      have hended : t.ended = true := by rw [Task.ended, phase]
      refine ⟨.finished phase, fun hgoing => ?_, fun hgoing => ?_⟩
      · cases hgoing.symm.trans hended
      · cases hgoing.symm.trans hended

theorem Became.ended_eq_false (h : Became v act t t') (hended : t'.ended = false) :
    t.ended = false := by
  cases h with
  | same | stopped => exact hended
  | asked => rwa [Task.ask_ended] at hended
  | called _ hphase | ready _ hphase | retry _ hphase | request _ hphase | timer _ hphase =>
      exact Task.ended_eq_false hphase nofun
  | left _ _ hgoing => exact hgoing

theorem Became.stopped_eq (h : Became v act t t') : act = .stop true ∨ t'.stopped = t.stopped := by
  cases h with
  | stopped hact => exact .inl hact
  | asked => exact .inr t.ask_stopped
  | same | called | ready | retry | request | timer | left => exact .inr rfl

theorem Wait.became (h : Wait m since v t) (hbecame : Became v act t t') (hnow : next.now = v.now)
    (hretry : next.retry = v.retry) (hcall : act ≠ .call t.number)
    (hrequested : t.asked = true → Requested m since v.now) :
    Wait m (since ++ [⟨v, act⟩]) next t' := by
  cases hbecame with
  | same => exact h.concat rfl rfl hnow hretry
  | stopped => exact h.concat rfl rfl hnow hretry
  | asked _ hidle =>
      obtain ⟨wake, hphase⟩ := exists_of_idle hidle
      rw [ask_of_waiting hphase]
      cases h with
      | going phase le =>
          cases hphase.symm.trans phase
          exact .going (by rw [hretry]) (by rwa [hnow, hretry])
      | called _ phase | full phase | cut phase | finished phase => simp [hphase] at phase
  | called hact => exact absurd hact hcall
  | ready | left => exact .finished rfl
  | retry _ hphase =>
      cases h with
      | called _ _ now =>
          refine .going (by rw [hretry, now]) ?_
          rw [hnow, now]
          exact Nat.le_add_right _ _
      | going phase | full phase | cut phase | finished phase => simp [hphase] at phase
  | request hact hphase =>
      cases h with
      | going phase le =>
          have hasked : t.asked = true := by rw [Task.asked, hphase]
          refine .cut rfl (by rwa [hnow, hretry]) ?_ (exists_mem_concat_self hact)
          rw [hnow]
          exact (hrequested hasked).concat
      | called _ phase | full phase | cut phase | finished phase => simp [hphase] at phase
  | timer hact hphase hdue =>
      cases h with
      | going phase le =>
          cases hphase.symm.trans phase
          refine .full rfl ?_ (exists_mem_concat_self hact)
          rw [hnow, hretry]
          exact Nat.le_antisymm le hdue
      | called _ phase | full phase | cut phase | finished phase => simp [hphase] at phase

theorem Change.now_eq (h : Change v act next) (htime : ∀ moment, act ≠ .time moment) :
    next.now = v.now := by
  cases h with
  | time => exact absurd rfl (htime _)
  | call | ready | retry | request | timer | leave | requestCheck | start | stop | still => rfl

theorem Interval.became (h : Interval m since v t) (hbecame : Became v act t t')
    (ht : t ∈ v.tasks) (hchange : Change v act next) (htime : ∀ moment, act ≠ .time moment)
    (hcall : act ≠ .call t.number) : Interval m (since ++ [⟨v, act⟩]) next t' := by
  have hnow := hchange.now_eq htime
  refine ⟨?_, fun hgoing hpos => ?_, fun hgoing hstopped => ?_⟩
  · refine h.wait.became hbecame hnow (congrArg Terms.retry hchange.terms) hcall fun hasked => ?_
    refine h.requested ?_ (unused_pos_of_asked ht hasked)
    unfold Task.asked at hasked
    split at hasked
    · rename_i hphase
      exact Task.ended_eq_false hphase nofun
    · cases hasked
  · rw [hnow]
    cases hrequest : act.isRequest with
    | true =>
        refine .inr (exists_mem_concat_self ⟨?_, rfl⟩)
        cases act with
        | requestCheck => rfl
        | _ => cases hrequest
    | false =>
        have hless := hchange.unused_le
        rw [hrequest] at hless
        exact (h.requested (hbecame.ended_eq_false hgoing) (by simp at hless; omega)).concat
  · rw [hnow, hbecame.number]
    rcases hbecame.stopped_eq with rfl | hsame
    · exact .inr (exists_mem_concat_self ⟨rfl, rfl⟩)
    · exact (h.cancelled (hbecame.ended_eq_false hgoing) (hsame ▸ hstopped)).concat

/-- At a call, and at the beginning of a wait. -/
theorem Interval.begin (hbegin : act = .call number ∨ act = .conclude number .retry)
    (hbecame : Became v act t t') (hnumber : t.number = number) (ht : t ∈ v.tasks)
    (hchange : Change v act next) : Interval ⟨v, act⟩ [] next t' := by
  have hturn : act.turnOf? = some t.number := by
    rcases hbegin with rfl | rfl <;> exact congrArg some hnumber.symm
  have hnow : next.now = v.now := hchange.now_eq (by rcases hbegin with rfl | rfl <;> exact nofun)
  have hretry : next.retry = v.retry := congrArg Terms.retry hchange.terms
  refine ⟨?_, fun _ hpos => .inl ⟨?_, hnow⟩, fun _ hstopped => .inl ⟨⟨t, ht, ?_, ?_⟩, hnow⟩⟩
  · cases hbecame with
    | same hother | asked hother => exact absurd hturn hother
    | called hact => exact .called hact rfl hnow
    | retry =>
        refine .going (by rw [hretry]; rfl) ?_
        rw [hnow]
        exact Nat.le_add_right _ _
    | stopped hact | ready hact | request hact | timer hact | left hact =>
        rcases hbegin with rfl | rfl <;> cases hact
  · have hless := hchange.unused_le
    rcases hbegin with rfl | rfl <;> simp [Act.isRequest, Act.isCut] at hless <;>
      exact Nat.lt_of_lt_of_le hpos hless
  · exact hbecame.number.symm
  · rcases hbecame.stopped_eq with rfl | hsame
    · rcases hbegin with hact | hact <;> cases hact
    · exact hsame ▸ hstopped

/-- Until its next call a task goes on as it began. -/
theorem Run.interval (h : Run first (earlier ++ m :: since) last) (hsound : Sound first)
    (hkept : ∀ x ∈ earlier ++ m :: since, x.act.deafens = false)
    (hbegin : m.act = .call number ∨ m.act = .conclude number .retry) (hlull : Lull number since) :
    ∀ t ∈ last.tasks, t.number = number → Interval m since last t := by
  have hturn : m.act.turnOf? = some number := by
    rcases hbegin with hact | hact <;> rw [hact] <;> rfl
  induction since using List.reverseRecOn generalizing last with
  | nil =>
      rw [List.forall_mem_append, List.forall_mem_singleton] at hkept
      obtain ⟨hbefore, hstep⟩ := h.of_concat
      have hsound' := hbefore.sound hsound hkept.1
      have hchange := hstep.change hsound'.all_heard hkept.2
      intro t' ht' hnumber
      rcases hchange.became hsound' t' ht' with ⟨t, ht, hbecame⟩ | ⟨hstart, -⟩
      · exact .begin hbegin hbecame (hbecame.number.symm.trans hnumber) ht hchange
      · rw [hstart] at hturn
        cases hturn
  | append_singleton since x ih =>
      rw [← List.cons_append, ← List.append_assoc] at h hkept
      rw [List.forall_mem_append, List.forall_mem_singleton] at hkept
      rw [Lull, List.forall_mem_append, List.forall_mem_singleton] at hlull
      obtain ⟨hbefore, hstep⟩ := h.of_concat
      have hsound' := hbefore.sound hsound hkept.1
      have hchange := hstep.change hsound'.all_heard hkept.2
      have hearlier := ih hbefore hkept.1 hlull.1
      have hlt : number < x.vigil.starts :=
        hbefore.turn_lt hsound hkept.1 m (by simp) number hturn
      obtain ⟨v, act⟩ := x
      intro t' ht' hnumber
      by_cases htime : ∃ moment, act = .time moment
      · obtain ⟨moment, rfl⟩ := htime
        cases hstep with
        | time => exact (hearlier t' ht' hnumber).time ht' hsound' hlull.2.2
      · rcases hchange.became hsound' t' ht' with ⟨t, ht, hbecame⟩ | ⟨-, rfl⟩
        · have hsame := hbecame.number.symm.trans hnumber
          exact (hearlier t ht hsame).became hbecame ht hchange (not_exists.mp htime)
            (hsame ▸ hlull.2.1)
        · exact absurd hlt (hnumber ▸ Nat.lt_irrefl _)

/-- A call that comes next comes when the interval is over, or at the moment of a request. -/
theorem Run.next_call {later : List Moment}
    (h : Run first (earlier ++ m :: (since ++ x :: later)) last) (hsound : Sound first)
    (hkept : ∀ y ∈ earlier ++ m :: (since ++ x :: later), y.act.deafens = false)
    (hm : m.act = .call number) (hx : x.act = .call number) (hlull : Lull number since) :
    (x.now = m.now + first.retry ∧ ∃ y ∈ since, y.act = .wake number .timer) ∨
      (x.now ≤ m.now + first.retry ∧ Requested m since x.now ∧
        ∃ y ∈ since, y.act = .wake number .request) := by
  rw [← List.cons_append, ← List.append_assoc] at h hkept
  rw [List.forall_mem_append] at hkept
  obtain ⟨middle, hbefore, hafter⟩ := h.of_append
  obtain ⟨rfl, next, hstep, -⟩ := hafter.of_cons
  have hretry : x.vigil.retry = first.retry := congrArg Terms.retry (hbefore.terms hsound hkept.1)
  rw [← hretry]
  rw [hx] at hstep
  cases hstep with
  | @call before t after htasks hphase =>
      have hmem : t ∈ x.vigil.tasks := by simp [htasks]
      cases (hbefore.interval hsound hkept.1 (.inl hm) hlull t hmem rfl).wait with
      | full _ now timer => exact .inl ⟨now, timer⟩
      | cut _ le request wake => exact .inr ⟨le, request, wake⟩
      | called _ phase | going phase | finished phase => simp [hphase] at phase

/-- A call is not overdue. -/
theorem Run.not_overdue (h : Run first (earlier ++ m :: since) last) (hsound : Sound first)
    (hkept : ∀ x ∈ earlier ++ m :: since, x.act.deafens = false) (hm : m.act = .call number)
    (hlull : Lull number since) (ht : t ∈ last.tasks) (hnumber : t.number = number)
    (hgoing : t.ended = false) : last.now ≤ m.now + first.retry := by
  have hretry : last.retry = first.retry := congrArg Terms.retry (h.terms hsound hkept)
  rw [← hretry]
  cases (h.interval hsound hkept (.inl hm) hlull t ht hnumber).wait with
  | called _ _ now => exact now ▸ Nat.le_add_right _ _
  | going _ le | cut _ le => exact le
  | full _ now => exact Nat.le_of_eq now
  | finished phase => simp [Task.ended, phase] at hgoing

end
end Vigil
end Checkpoint
end Uplink
