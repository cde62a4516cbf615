import Uplink.Proofs.Checkpoint.Requests

/-!
# What is kept for the next start

While no task waits, the requests that are made leave one behind.  It is for the next start: there it
ends the first wait as soon as that wait begins, so that the first call is followed by a second one.

This is said of a start before which all tasks that were stopped have ended.  The task of the start is
then the only one that has turns.
-/

namespace Uplink
namespace Checkpoint
namespace Vigil

/-- The turns that the tasks take. -/
def own (moments : List Moment) : List Act :=
  (moments.map Moment.act).filter Act.isMove

/-- How a start goes on when no other task does, as long as no request is made: a request that was kept
for it ends the first wait at once, unless the interval is empty. -/
inductive Opening (m : Moment) (since : List Moment) (v : Vigil) (c : Task) : Prop where
  | begun (own : 0 < v.retry → own since = []) (phase : c.phase = .looking)
      (kept : unused v = unused m.vigil) (now : v.now = m.now)
  | called {answer : Except Failure (Keyed String)}
      (own : 0 < v.retry → own since = [.call c.number]) (calls : 1 ≤ times Act.isCall since)
      (phase : c.phase = .called answer) (kept : unused v = unused m.vigil) (now : v.now = m.now)
  | waits {asked : Bool}
      (own : 0 < v.retry → own since = [.call c.number, .conclude c.number .retry])
      (calls : 1 ≤ times Act.isCall since) (phase : c.phase = .waiting (m.now + v.retry) asked)
      (kept : unused v = unused m.vigil) (now : 0 < unused v → v.now = m.now)
  | woken (calls : 1 ≤ times Act.isCall since) (phase : c.phase = .looking) (used : unused v = 0)
  | settled (calls : 1 + unused m.vigil ≤ times Act.isCall since) (used : unused v = 0)
  | ready (ended : c.ended = true) (ready : v.ready = true)

section

variable {v next first middle last : Vigil} {act : Act} {m x : Moment}
  {earlier moments since : List Moment} {t t' c c' : Task} {number : ℕ} {stopped : Bool}

/-! ## Requests without a wait -/

theorem going_eq_zero_iff :
    going stopped v = 0 ↔ ∀ t ∈ v.tasks, t.stopped = stopped → t.ended = true := by
  rw [going, List.countP_eq_zero]
  refine forall₂_congr fun t _ => ?_
  cases t.ended <;> simp

theorem Step.takes_of_isCut (h : Step v act next) (hidle : going false v = 0)
    (hcut : act.isCut = true) : Moment.Takes ⟨v, act⟩ := by
  obtain ⟨number, rfl⟩ := Act.exists_of_isCut hcut
  cases h with
  | @request before t after wake htasks hphase =>
      have ht : t ∈ v.tasks := by simp [htasks]
      refine ⟨t, ht, ?_, rfl⟩
      by_contra hstopped
      have hended := going_eq_zero_iff.mp hidle t ht (eq_false_of_ne_true hstopped)
      exact absurd ((Task.ended_eq_false hphase nofun).symm.trans hended) nofun

/-- While no task waits but those that were stopped, the requests that are made leave one behind. -/
theorem Run.stored (h : Run first moments last) (hsound : Sound first)
    (hkept : ∀ m ∈ moments, m.act.deafens = false) (hturns : ∀ m ∈ moments, m.act.turns = false)
    (hidle : going false first = 0) :
    unused last ≤ 1 + going true last ∧
      (0 < unused last → 0 < unused first ∨ 0 < times Act.isRequest moments) ∧
      (0 < unused first ∨ 0 < times Act.isRequest moments →
        0 < unused last ∨ ∃ x ∈ moments, x.Takes) := by
  have hidle' : going false last = 0 :=
    Nat.eq_zero_of_le_zero (hidle ▸ h.going_le hsound hkept hturns)
  have hbound := unused_add_afoot_le last
  have hcuts := h.cuts_le hsound hkept
  refine ⟨by omega, by omega, ?_⟩
  clear hidle' hbound hcuts
  induction h with
  | nil => simp [times]
  | @snoc last next moments act hrun hstep ih =>
      rw [List.forall_mem_append, List.forall_mem_singleton] at hkept hturns
      have hidle' : going false last = 0 :=
        Nat.eq_zero_of_le_zero (hidle ▸ hrun.going_le hsound hkept.1 hturns.1)
      have hchange := hstep.change (hrun.sound hsound hkept.1).all_heard hkept.2
      intro hpos
      cases hcut : act.isCut with
      | true =>
          exact .inr ⟨⟨last, act⟩, List.mem_append_right _ (List.mem_singleton_self _),
            hstep.takes_of_isCut hidle' hcut⟩
      | false =>
          cases hrequest : act.isRequest with
          | true =>
              obtain rfl : act = .requestCheck := by
                cases act with
                | requestCheck => rfl
                | _ => cases hrequest
              exact .inl hchange.unused_pos_of_request
          | false =>
              rw [times_concat, hrequest] at hpos
              rcases ih hkept.1 hturns.1 hpos with hbefore | ⟨x, hx, htakes⟩
              · exact .inl (hchange.unused_pos hbefore hcut)
              · exact .inr ⟨x, List.mem_append_left _ hx, htakes⟩

/-! ## The opening of a start -/

theorem own_concat_of_move (h : m.act.isMove = true) :
    own (moments ++ [m]) = own moments ++ [m.act] := by
  simp [own, h]

theorem own_concat_of_not_move (h : m.act.isMove = false) :
    own (moments ++ [m]) = own moments := by
  simp [own, h]

theorem times_le_concat {p : Act → Bool} : times p moments ≤ times p (moments ++ [m]) := by
  rw [times_concat]
  exact Nat.le_add_right _ _

/-- As long as no request is made or ends a wait, there is one or there is none. -/
theorem Change.unused_eq (h : Change v act next) (hone : unused v ≤ 1) (hcut : act.isCut = false)
    (hrequest : act.isRequest = false) : unused next = unused v := by
  have hless := h.unused_le
  rw [hcut, hrequest] at hless
  have hpos : 0 < unused v → 0 < unused next := fun hpos => h.unused_pos hpos hcut
  simp only [Bool.toNat_false, Nat.add_zero] at hless
  omega

/-- Where no stopped task goes on, a turn is one of the task that was not stopped. -/
theorem Step.turnOf?_of_alone (h : Step v act next) (hsound : Sound v) (halone : going true v = 0)
    (hc : c ∈ v.tasks) (hcurrent : c.stopped = false) (hmove : act.isMove = true) :
    act.turnOf? = some c.number := by
  obtain ⟨number, hturn⟩ := Act.exists_turn hmove
  by_contra hother
  obtain ⟨t, ht, rfl, hstopped⟩ := h.stopped_of_turn hsound hc hcurrent hturn hother
  have hended := going_eq_zero_iff.mp halone t ht hstopped
  exact absurd ((h.turn_of_mem hsound ht hturn).ended_eq_false.symm.trans hended) nofun

theorem Sound.stopped_of_off (h : Sound v) (hoff : v.started = false) :
    ∀ t ∈ v.tasks, t.stopped = true := by
  intro t ht
  by_contra hcurrent
  have hon := ((h.fits t ht).current (eq_false_of_ne_true hcurrent)).1
  exact absurd (hoff.symm.trans hon) nofun

/-- What there is when a start begins: no task but those that were stopped, the same requests, one call
more that is about to be made, and no wait. -/
theorem begun_of_start (hstep : Step v (.start true) next) (hsound : Sound v) :
    v.started = false ∧ unused next = unused v ∧ afoot next = afoot v + 1 ∧
      going true next = going true v ∧ Ahead next ∧
      ∃ c ∈ next.tasks, c.stopped = false ∧ c.number = v.starts ∧
        Opening ⟨v, .start true⟩ [] next c := by
  cases hstep.change hsound.all_heard rfl with
  | start hoff =>
      have hunused : unused { v with
          started := true, ready := false, starts := v.starts + 1,
          tasks := v.tasks ++ [{ number := v.starts }] } = unused v := by
        simp [unused, Task.asked]
      refine ⟨hoff, hunused, by simp [afoot, Task.isLooking], by simp [going], fun t ht hcurrent => ?_,
        _, List.mem_append_right _ (List.mem_singleton_self _), rfl, rfl, ?_⟩
      · rcases List.mem_append.mp ht with ht | ht
        · cases (hsound.stopped_of_off hoff t ht).symm.trans hcurrent
        · rw [List.mem_singleton.mp ht]
          rintro wake asked ⟨⟩
      · exact .begun (fun _ => rfl) rfl hunused rfl
  | still hturns => cases hturns

theorem Act.isCut_eq_false (h : ∀ number, act ≠ .wake number .request) : act.isCut = false := by
  refine eq_false_of_ne_true fun hcut => ?_
  obtain ⟨number, hact⟩ := Act.exists_of_isCut hcut
  exact h number hact

/-- What becomes of the only task that goes on, if no request is made. -/
structure Alone (v : Vigil) (act : Act) (next : Vigil) (c c' : Task) : Prop where
  became : Became v act c c'
  current : c.stopped = false
  turns : act.turns = false
  quiet : act.turnOf? ≠ some c.number → act.isMove = false
  used : unused next + act.isCut.toNat ≤ unused v
  kept : unused v ≤ 1 → act.isCut = false → unused next = unused v
  ready : ∀ fields, act = .conclude c.number (.ready fields) → next.ready = true
  looking : c.phase = .looking → next.now = v.now
  called : ∀ answer, c.phase = .called answer → next.now = v.now
  asked : c.ended = false → 0 < unused v → next.now = v.now
  retry : next.retry = v.retry

theorem Step.alone (hstep : Step v act next) (hsound : Sound v) (hc : c ∈ v.tasks)
    (hcurrent : c.stopped = false) (halone : going true v = 0) (hrequest : act.isRequest = false)
    (hturns : act.turns = false) (hkept : act.deafens = false) (hprompt : Moment.Prompt ⟨v, act⟩) :
    ∃ c' ∈ next.tasks, c'.stopped = false ∧ Alone v act next c c' := by
  have hchange := hstep.change hsound.all_heard hkept
  obtain ⟨c', hc', hcurrent', hbecame⟩ := hchange.current hsound hturns hc hcurrent
  have hnow : ¬ AtRest v → next.now = v.now := by
    refine fun hbusy => hchange.now_eq ?_
    rintro moment rfl
    exact hbusy (hprompt moment rfl).1
  refine ⟨c', hc', hcurrent', hbecame, hcurrent, hturns, fun hother => ?_, ?_, fun hone hcut => ?_,
    fun fields hact => ?_, fun hphase => hnow ?_, fun answer hphase => hnow fun hrest => ?_,
    fun hgoing hpos => hnow ?_, congrArg Terms.retry hchange.terms⟩
  · refine eq_false_of_ne_true fun hmove => hother ?_
    exact hstep.turnOf?_of_alone hsound halone hc hcurrent hmove
  · have hless := hchange.unused_le
    rwa [hrequest] at hless
  · exact hchange.unused_eq hone hcut hrequest
  · exact hchange.ready_iff.mpr (.inl ⟨_, _, hact⟩)
  · exact not_atRest_of_owed hsound hc (Task.ended_eq_false hphase nofun) (.inl hphase)
  · simpa [Task.rests, hphase] using hrest c hc
  · exact not_atRest_of_owed hsound hc hgoing (.inr hpos)

theorem Alone.kept_of_same (h : Alone v act next c c') (hone : unused v ≤ 1)
    (hother : act.turnOf? ≠ some c.number) : unused next = unused v := by
  refine h.kept hone (Act.isCut_eq_false ?_)
  rintro number rfl
  cases h.quiet hother

theorem Alone.own_of_same (h : Alone v act next c c') (hother : act.turnOf? ≠ some c.number) :
    own (since ++ [⟨v, act⟩]) = own since :=
  own_concat_of_not_move (h.quiet hother)

theorem Alone.begun (h : Alone v act next c c') (hone : unused m.vigil ≤ 1)
    (hown : 0 < v.retry → own since = []) (hphase : c.phase = .looking)
    (hkept : unused v = unused m.vigil) (hnow : v.now = m.now) :
    Opening m (since ++ [⟨v, act⟩]) next c' := by
  have hnext := (h.looking hphase).trans hnow
  rw [← h.retry] at hown
  cases h.became with
  | same hother =>
      refine .begun (fun hpos => ?_) hphase ((h.kept_of_same (hkept ▸ hone) hother).trans hkept) hnext
      rw [h.own_of_same hother, hown hpos]
  | called hact =>
      subst hact
      refine .called (fun hpos => ?_) ?_ rfl ((h.kept (hkept ▸ hone) rfl).trans hkept) hnext
      · rw [own_concat_of_move rfl, hown hpos]
        rfl
      · rw [times_concat]
        exact Nat.le_add_left _ _
  | asked _ hidle => simp [Task.idle, hphase] at hidle
  | stopped hact =>
      subst hact
      cases h.turns
  | ready _ hphase' | retry _ hphase' | request _ hphase' | timer _ hphase' =>
      simp [hphase'] at hphase
  | left _ hstopped => cases h.current.symm.trans hstopped

theorem Alone.seen (h : Alone v act next c c') (hone : unused m.vigil ≤ 1)
    {answer : Except Failure (Keyed String)} (hown : 0 < v.retry → own since = [.call c.number])
    (hcalls : 1 ≤ times Act.isCall since) (hphase : c.phase = .called answer)
    (hkept : unused v = unused m.vigil) (hnow : v.now = m.now) :
    Opening m (since ++ [⟨v, act⟩]) next c' := by
  have hnext := (h.called answer hphase).trans hnow
  have hmore := Nat.le_trans hcalls (times_le_concat (m := ⟨v, act⟩))
  rw [← h.retry] at hown
  cases h.became with
  | same hother =>
      refine .called (fun hpos => ?_) hmore hphase
        ((h.kept_of_same (hkept ▸ hone) hother).trans hkept) hnext
      rw [h.own_of_same hother, hown hpos]
  | ready hact => exact .ready rfl (h.ready _ hact)
  | retry hact =>
      subst hact
      refine @Opening.waits _ _ _ _ v.permit (fun hpos => ?_) hmore ?_
        ((h.kept (hkept ▸ hone) rfl).trans hkept) fun _ => hnext
      · rw [own_concat_of_move rfl, hown hpos]
        rfl
      · rw [h.retry, hnow]
  | asked _ hidle => simp [Task.idle, hphase] at hidle
  | stopped hact =>
      subst hact
      cases h.turns
  | called _ hphase' | request _ hphase' | timer _ hphase' => simp [hphase'] at hphase
  | left _ hstopped => cases h.current.symm.trans hstopped

theorem Alone.waits (h : Alone v act next c c') (hone : unused m.vigil ≤ 1)
    {asked : Bool} (hown : 0 < v.retry → own since = [.call c.number, .conclude c.number .retry])
    (hcalls : 1 ≤ times Act.isCall since) (hphase : c.phase = .waiting (m.now + v.retry) asked)
    (hkept : unused v = unused m.vigil) (hnow : 0 < unused v → v.now = m.now) :
    Opening m (since ++ [⟨v, act⟩]) next c' := by
  have hgoing := Task.ended_eq_false hphase nofun
  have hmore := Nat.le_trans hcalls (times_le_concat (m := ⟨v, act⟩))
  have hused := h.used
  have hnext : unused next = unused v → 0 < unused next → next.now = m.now :=
    fun hsame hpos => (h.asked hgoing (hsame ▸ hpos)).trans (hnow (hsame ▸ hpos))
  rw [← h.retry] at hown
  cases h.became with
  | same hother =>
      have hsame := h.kept_of_same (hkept ▸ hone) hother
      refine .waits (fun hpos => ?_) hmore (h.retry ▸ hphase) (hsame.trans hkept) (hnext hsame)
      rw [h.own_of_same hother, hown hpos]
  | asked hother hidle =>
      have hsame := h.kept_of_same (hkept ▸ hone) hother
      rw [ask_of_waiting hphase]
      refine .waits (fun hpos => ?_) hmore (by rw [h.retry]) (hsame.trans hkept) (hnext hsame)
      rw [h.own_of_same hother, hown hpos]
  | request hact =>
      subst hact
      refine .woken hmore rfl ?_
      simp only [Act.isCut, Bool.toNat_true] at hused
      omega
  | timer hact hphase' hdue =>
      subst hact
      cases hphase.symm.trans hphase'
      rcases Nat.eq_zero_or_pos (unused v) with hnone | hpos
      · refine .settled ?_ (Nat.eq_zero_of_le_zero (hnone ▸ hused))
        rwa [← hkept, hnone]
      · -- no time has passed, so the interval is empty; the request is kept for the next wait
        have hsame := h.kept (hkept ▸ hone) rfl
        have hat := hnow hpos
        refine .begun (fun hpos' => ?_) rfl (hsame.trans hkept) (hnext hsame (hsame ▸ hpos))
        rw [h.retry] at hpos'
        omega
  | stopped hact =>
      subst hact
      cases h.turns
  | called _ hphase' | ready _ hphase' | retry _ hphase' => simp [hphase'] at hphase
  | left _ hstopped => cases h.current.symm.trans hstopped

theorem Alone.woken (h : Alone v act next c c') (hone : unused m.vigil ≤ 1)
    (hcalls : 1 ≤ times Act.isCall since) (hphase : c.phase = .looking) (hnone : unused v = 0) :
    Opening m (since ++ [⟨v, act⟩]) next c' := by
  have hused := h.used
  have hnone' : unused next = 0 := by omega
  cases h.became with
  | same => exact .woken (Nat.le_trans hcalls times_le_concat) hphase hnone'
  | called hact =>
      -- the second call uses the last of what was kept
      refine .settled ?_ hnone'
      rw [times_concat, hact]
      simp only [Act.isCall, Bool.toNat_true]
      omega
  | asked _ hidle => simp [Task.idle, hphase] at hidle
  | stopped hact =>
      subst hact
      cases h.turns
  | ready _ hphase' | retry _ hphase' | request _ hphase' | timer _ hphase' =>
      simp [hphase'] at hphase
  | left _ hstopped => cases h.current.symm.trans hstopped

theorem Opening.step (h : Opening m since v c) (hstep : Step v act next) (hsound : Sound v)
    (hc : c ∈ v.tasks) (hcurrent : c.stopped = false) (halone : going true v = 0)
    (hone : unused m.vigil ≤ 1) (hrequest : act.isRequest = false) (hturns : act.turns = false)
    (hkept : act.deafens = false) (hprompt : Moment.Prompt ⟨v, act⟩) :
    ∃ c' ∈ next.tasks, c'.stopped = false ∧ c'.number = c.number ∧
      Opening m (since ++ [⟨v, act⟩]) next c' := by
  obtain ⟨c', hc', hcurrent', hgoes⟩ :=
    hstep.alone hsound hc hcurrent halone hrequest hturns hkept hprompt
  refine ⟨c', hc', hcurrent', hgoes.became.number, ?_⟩
  cases h with
  | begun own phase kept now => exact hgoes.begun hone own phase kept now
  | called own calls phase kept now => exact hgoes.seen hone own calls phase kept now
  | waits own calls phase kept now => exact hgoes.waits hone own calls phase kept now
  | woken calls phase used => exact hgoes.woken hone calls phase used
  | settled calls used =>
      have hused := hgoes.used
      exact .settled (Nat.le_trans calls times_le_concat) (by omega)
  | ready ended ready =>
      have hchange := hstep.change hsound.all_heard hkept
      refine .ready (eq_true_of_ne_false fun hgoing => ?_)
        (hchange.ready_iff.mpr (.inr ⟨hturns, ready⟩))
      exact absurd ((hgoes.became.ended_eq_false hgoing).symm.trans ended) nofun

/-- What holds of the next start until a request is made, if no stopped task goes on. -/
theorem Run.opening (h : Run v since last) (hm : Step m.vigil m.act v) (hstart : m.act = .start true)
    (hsound : Sound m.vigil) (halone : going true m.vigil = 0) (hone : unused m.vigil ≤ 1)
    (hquiet : ∀ x ∈ since, x.act.isRequest = false ∧ x.act.turns = false)
    (hkept : ∀ x ∈ since, x.act.deafens = false) (hprompt : ∀ x ∈ since, x.Prompt) :
    going true last = 0 ∧ ∃ c ∈ last.tasks, c.stopped = false ∧ c.number = m.vigil.starts ∧
      Opening m since last c := by
  obtain ⟨before, act⟩ := m
  cases hstart
  have hsound' := hsound.step hm rfl
  induction h with
  | nil =>
      obtain ⟨-, -, -, hgoing, -, hopening⟩ := begun_of_start hm hsound
      exact ⟨hgoing.trans halone, hopening⟩
  | @snoc last next moments act hrun hstep ih =>
      rw [List.forall_mem_append, List.forall_mem_singleton] at hquiet hkept hprompt
      obtain ⟨hbefore, c, hc, hcurrent, hnumber, hopening⟩ := ih hquiet.1 hkept.1 hprompt.1
      have hsound'' := hrun.sound hsound' hkept.1
      obtain ⟨c', hc', hcurrent', hsame, hnext⟩ := hopening.step hstep hsound'' hc hcurrent hbefore
        hone hquiet.2.1 hquiet.2.2 hkept.2 hprompt.2
      have hless : going true next ≤ going true last :=
        Nat.le_of_add_right_le ((hstep.change hsound''.all_heard hkept.2).going_le hquiet.2.2)
      exact ⟨Nat.eq_zero_of_le_zero (hbefore ▸ hless), c', hc', hcurrent', hsame.trans hnumber, hnext⟩

/-- No time has passed when the request that was kept for the start ends a wait, and this wait is the
first one unless the interval is empty. -/
theorem Opening.of_cut (h : Opening m since v c) (hstep : Step v act next) (hsound : Sound v)
    (hc : c ∈ v.tasks) (hcurrent : c.stopped = false) (halone : going true v = 0)
    (hcut : act.isCut = true) :
    v.now = m.now ∧
      (0 < v.retry → own since = [.call c.number, .conclude c.number .retry]) := by
  obtain ⟨number, rfl⟩ := Act.exists_of_isCut hcut
  have hturn := hstep.turnOf?_of_alone hsound halone hc hcurrent rfl
  cases hstep with
  | @request before t after wake htasks hphase =>
      have ht : t ∈ v.tasks := by simp [htasks]
      obtain rfl := hsound.eq_of_number ht hc (Option.some.inj hturn)
      have hasked : t.asked = true := by rw [Task.asked, hphase]
      have hpos := unused_pos_of_asked ht hasked
      cases h with
      | waits own _ _ _ now => exact ⟨now hpos, own⟩
      | begun _ phase | called _ _ phase | woken _ phase => simp [hphase] at phase
      | settled _ used => exact absurd used (Nat.ne_of_gt hpos)
      | ready ended => simp [Task.ended, hphase] at ended

/-- Whatever was kept for the start has brought about its call before the checkpoint comes to rest. -/
theorem Opening.of_atRest (h : Opening m since v c) (hsound : Sound v) (hc : c ∈ v.tasks)
    (hrest : AtRest v) : v.ready = true ∨ 1 + unused m.vigil ≤ times Act.isCall since := by
  have hnot := fun hgoing howed => not_atRest_of_owed hsound hc hgoing howed hrest
  cases h with
  | begun _ phase | woken _ phase =>
      have hgoing : c.ended = false := by rw [Task.ended, phase]
      exact absurd (.inl phase) (hnot hgoing)
  | called _ _ phase => simpa [Task.rests, phase] using hrest c hc
  | waits _ calls phase kept =>
      have hgoing : c.ended = false := by rw [Task.ended, phase]
      have hnone : ¬ 0 < unused v := fun hpos => hnot hgoing (.inr hpos)
      exact .inr (by omega)
  | settled calls => exact .inr calls
  | ready _ ready => exact .inl ready

end
end Vigil
end Checkpoint
end Uplink
