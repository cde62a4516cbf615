import Uplink.Proofs.Checkpoint.Opening

/-!
# Requests are neither lost nor multiplied

A request may come before a wait, between a call and its answer, during a wait, together with the end of
the interval, or while no task waits.  In all of these a call follows without any time passing, or the
request is kept for the next start; and one request is kept at most, across starts and stops.

A task that was stopped, and has not had its next turn, stands in line like any other.  It may be asked
in place of the task of the next start, and then it passes the request on when it ends; or it may take
the request, and end without a call.  Only in this way a request is lost.
-/

namespace Uplink
namespace Checkpoint
namespace Vigil

/-- A run in which the listeners stay and the store answers at once. -/
structure Tended (first : Vigil) (moments : List Moment) (last : Vigil) : Prop where
  run : Run first moments last
  sound : Sound first
  kept : ∀ m ∈ moments, m.act.deafens = false
  prompt : ∀ m ∈ moments, m.Prompt

section

variable {v next first middle last : Vigil} {act : Act} {m : Moment}
  {earlier moments since : List Moment} {t : Task} {number : ℕ}

/-! ## Waits -/

theorem Interval.waits (h : Interval m since v t) (hm : m.act = .conclude t.number .retry)
    (hquiet : ∀ x ∈ since, x.act.turnOf? ≠ some t.number) (hgoing : t.ended = false) :
    ∃ asked, t.phase = .waiting (m.now + v.retry) asked ∧ v.now ≤ m.now + v.retry := by
  cases h.wait with
  | called hact => exact absurd (hm.symm.trans hact) nofun
  | going phase le => exact ⟨_, phase, le⟩
  | full _ _ timer =>
      obtain ⟨x, hx, hact⟩ := timer
      exact absurd (congrArg Act.turnOf? hact) (hquiet x hx)
  | cut _ _ _ wake =>
      obtain ⟨x, hx, hact⟩ := wake
      exact absurd (congrArg Act.turnOf? hact) (hquiet x hx)
  | finished phase => simp [Task.ended, phase] at hgoing

/-- A wait ends when the interval is over, or at the moment of a request, or at the moment of a stop. -/
theorem Tended.waited (h : Tended first (earlier ++ m :: since) last)
    (hm : m.act = .conclude number .retry) (hquiet : ∀ x ∈ since, x.act.turnOf? ≠ some number) :
    (∀ t ∈ last.tasks, t.number = number → t.ended = false → last.now ≤ m.now + first.retry) ∧
      ∀ act next, Step last act next → act.turnOf? = some number →
        act = .wake number .timer ∧ last.now = m.now + first.retry ∨
        last.now ≤ m.now + first.retry ∧
          (act = .wake number .request ∧ Requested m since last.now ∨
            act = .leave number ∧ Cancelled m number since last.now) := by
  obtain ⟨hrun, hsound, hkept, hprompt⟩ := h
  have hlull : Lull number since := by
    refine fun x hx => ⟨fun hact => hquiet x hx (congrArg Act.turnOf? hact), hprompt x ?_⟩
    exact List.mem_append_right _ (List.mem_cons_of_mem _ hx)
  have hinterval := hrun.interval hsound hkept (.inr hm) hlull
  have hretry : last.retry = first.retry := congrArg Terms.retry (hrun.terms hsound hkept)
  rw [← hretry]
  refine ⟨?_, fun act next hstep hturn => ?_⟩
  · rintro t ht rfl hgoing
    obtain ⟨asked, -, hle⟩ := (hinterval t ht rfl).waits hm hquiet hgoing
    exact hle
  · obtain ⟨t, ht, rfl, hmoves⟩ := hstep.turn hturn
    have hgoing := hmoves.ended_eq_false
    obtain ⟨asked, hphase, hle⟩ := (hinterval t ht rfl).waits hm hquiet hgoing
    cases hmoves with
    | call hphase' | conclude hphase' => simp [hphase] at hphase'
    | request hphase' =>
        have hasked : t.asked = true := by rw [Task.asked, hphase']
        exact .inr ⟨hle, .inl ⟨rfl, (hinterval t ht rfl).requested hgoing
          (unused_pos_of_asked ht hasked)⟩⟩
    | timer hphase' hdue =>
        cases hphase.symm.trans hphase'
        exact .inl ⟨rfl, Nat.le_antisymm hle hdue⟩
    | leave hstopped =>
        exact .inr ⟨hle, .inr ⟨rfl, (hinterval t ht rfl).cancelled hgoing hstopped⟩⟩

/-! ## Parts of a run -/

theorem Tended.append (h : Tended first (earlier ++ since) last) :
    ∃ middle, Tended first earlier middle ∧ Tended middle since last := by
  obtain ⟨hrun, hsound, hkept, hprompt⟩ := h
  rw [List.forall_mem_append] at hkept hprompt
  obtain ⟨middle, hearlier, hrest⟩ := hrun.of_append
  exact ⟨middle, ⟨hearlier, hsound, hkept.1, hprompt.1⟩,
    ⟨hrest, hearlier.sound hsound hkept.1, hkept.2, hprompt.2⟩⟩

theorem Tended.split (h : Tended first (earlier ++ m :: since) last) :
    Tended first earlier m.vigil ∧ Sound m.vigil ∧
      ∃ next, Step m.vigil m.act next ∧ Tended next since last := by
  obtain ⟨middle, hearlier, hrun, hsound, hkept, hprompt⟩ := h.append
  rw [List.forall_mem_cons] at hkept hprompt
  obtain ⟨rfl, next, hstep, hsince⟩ := hrun.of_cons
  exact ⟨hearlier, hsound, next, hstep, hsince, hsound.step hstep hkept.1, hkept.2, hprompt.2⟩

theorem Tended.last_sound (h : Tended first moments last) : Sound last :=
  h.run.sound h.sound h.kept

theorem Tended.retry_eq (h : Tended first moments last) : last.retry = first.retry :=
  congrArg Terms.retry (h.run.terms h.sound h.kept)

/-! ## Requests while the checkpoint is not ready -/

theorem Tended.heeded (h : Tended first (earlier ++ m :: since) last) (hm : m.act = .requestCheck)
    (hstarted : m.vigil.started = true) (hready : m.vigil.ready = false)
    (hturns : ∀ x ∈ since, x.act.turns = false) :
    (∃ x ∈ since, x.Calls ∧ x.now = m.now) ∨ TurnsReady m last ∨ (∃ x ∈ since, x.Takes) ∨
      last.now = m.now ∧ ¬ AtRest last ∧
        ((∀ x ∈ since, x.Obedient) → moves since ≤ 2 + going true m.vigil) := by
  obtain ⟨-, hsound, next, hstep, hsince⟩ := h.split
  cases hsince.run.heeded hstep hm hsound hstarted hready hturns hsince.kept hsince.prompt with
  | called mem calls now => exact .inl ⟨_, mem, calls, now⟩
  | ready turns => exact .inr (.inl turns)
  | taken mem takes => exact .inr (.inr (.inl ⟨_, mem, takes⟩))
  | pending mem _ going owed now _ _ hmoves =>
      refine .inr (.inr (.inr ⟨now, not_atRest_of_owed h.last_sound mem going owed, fun hobedient => ?_⟩))
      have hless := hmoves hobedient
      omega

/-- At rest the request has been heeded. -/
theorem Tended.called {calls later : List Moment}
    (h : Tended first (earlier ++ m :: (calls ++ later)) last) (hm : m.act = .requestCheck)
    (hstarted : m.vigil.started = true) (hready : m.vigil.ready = false)
    (hcalls : ∀ x ∈ calls, x.act.isMove = false ∧ x.act.turns = false)
    (hturns : ∀ x ∈ later, x.act.turns = false) (hrest : AtRest last) :
    1 ≤ times Act.isCall later ∨ TurnsReady m last ∨ ∃ x ∈ later, x.Takes := by
  have hturns' : ∀ x ∈ calls ++ later, x.act.turns = false :=
    List.forall_mem_append.mpr ⟨fun x hx => (hcalls x hx).2, hturns⟩
  have hlater : ∀ x ∈ calls ++ later, x.act.isMove = true → x ∈ later := by
    intro x hx hmove
    refine (List.mem_append.mp hx).resolve_left fun hx => ?_
    exact absurd ((hcalls x hx).1.symm.trans hmove) nofun
  rcases h.heeded hm hstarted hready hturns' with
    ⟨x, hx, ⟨t, -, -, hact⟩, -⟩ | hready | ⟨x, hx, t, ht, hstopped, hact⟩ | ⟨-, hpending, -⟩
  · refine .inl (List.countP_pos_iff.mpr ⟨x, hlater x hx ?_, ?_⟩) <;> rw [hact] <;> rfl
  · exact .inr (.inl hready)
  · exact .inr (.inr ⟨x, hlater x hx (by rw [hact]; rfl), t, ht, hstopped, hact⟩)
  · exact absurd hrest hpending

/-- However many requests were made before, no more than two are used, and one for each task that was
stopped and goes on. -/
theorem Tended.used {calls later : List Moment}
    (h : Tended first (earlier ++ m :: (calls ++ later)) last) (hm : m.act = .requestCheck)
    (hcalls : ∀ x ∈ calls, x.act.turns = false) (hrequest : ∀ x ∈ later, x.act.isRequest = false) :
    times Act.isCut later ≤ 2 + going true m.vigil ∧
      times Act.isCall later ≤
        2 + going true m.vigil + times Act.isTimer later + times Act.begins later ∧
      (0 < first.retry → (∀ x ∈ later, x.Obedient) → (∀ x ∈ later, x.act.turns = false) →
        (∀ x ∈ later, ∀ moment, x.act ≠ .time moment) →
          times Act.isCall later ≤ 2 + going true m.vigil) := by
  rw [← List.cons_append] at h
  obtain ⟨start, hearlier, hrest⟩ := h.append
  obtain ⟨middle, hasked, hlater⟩ := hrest.append
  obtain ⟨rfl, -⟩ := hasked.run.of_cons
  have hgoing : going true middle ≤ going true m.vigil := by
    refine hasked.run.going_le hasked.sound hasked.kept (List.forall_mem_cons.mpr ⟨?_, hcalls⟩)
    rw [hm]
    rfl
  have hretry := hasked.retry_eq.trans hearlier.retry_eq
  have hone := hlater.sound.going_false_le_one
  have hbound := unused_add_afoot_le middle
  obtain ⟨hcuts, hused⟩ := hlater.run.requests_used hlater.sound hlater.kept hrequest
  refine ⟨by omega, by omega, fun hpos hobedient hturns htime => ?_⟩
  have hmoment := hlater.run.calls_of_moment hlater.sound hlater.kept hobedient hrequest hturns htime
    (hretry ▸ hpos)
  omega

/-- At rest, while a task goes on, all requests are used up. -/
theorem Sound.unused_of_atRest (h : Sound v) (hrest : AtRest v) (ht : t ∈ v.tasks)
    (hgoing : t.ended = false) : unused v = 0 := by
  by_contra hpos
  exact not_atRest_of_owed h ht hgoing (.inr (Nat.pos_of_ne_zero hpos)) hrest

/-! ## Requests while no task goes on that was not stopped -/

theorem Sound.going_false_eq_zero (h : Sound v) (hoff : v.started = false) : going false v = 0 := by
  refine going_eq_zero_iff.mpr fun t ht hcurrent => ?_
  exact absurd ((h.stopped_of_off hoff t ht).symm.trans hcurrent) nofun

theorem Tended.idle (h : Tended first moments last) (hfresh : Fresh first)
    (hidle : last.started = false ∨
      ∃ t ∈ last.tasks, t.stopped = false ∧ ∃ fields, .ready fields ∈ t.events) :
    going false last = 0 := by
  rcases hidle with hoff | ⟨t, ht, hcurrent, fields, hready⟩
  · exact h.last_sound.going_false_eq_zero hoff
  · have hended := (h.run.told hfresh h.kept t ht).ended hready
    refine going_eq_zero_iff.mpr fun x hx hx' => ?_
    rwa [h.last_sound.eq_of_current hx ht hx' hcurrent]

/-- Where no stopped task goes on, none has a turn. -/
theorem Tended.obedient (h : Tended v since last) (halone : going true v = 0)
    (hturns : ∀ x ∈ since, x.act.turns = false) : ∀ x ∈ since, x.Obedient := by
  intro x hx t ht hstopped hturn
  obtain ⟨before, after, rfl⟩ := List.append_of_mem hx
  obtain ⟨hbefore, hsound, next, hstep, -⟩ := h.split
  rw [List.forall_mem_append] at hturns
  have hless : going true x.vigil ≤ going true v :=
    hbefore.run.going_le hbefore.sound hbefore.kept hturns.1
  have hended := going_eq_zero_iff.mp (Nat.eq_zero_of_le_zero (halone ▸ hless)) t ht hstopped
  exact absurd ((hstep.turn_of_mem hsound ht hturn).ended_eq_false.symm.trans hended) nofun

/-- What is kept for a start brings about that many calls more than the first. -/
theorem Tended.begun (h : Tended first (earlier ++ m :: since) last) (hm : m.act = .start true)
    (hquiet : ∀ x ∈ since, x.act.isRequest = false ∧ x.act.turns = false) :
    unused m.vigil + afoot m.vigil ≤ 1 + going true m.vigil ∧
      times Act.isCut since ≤ unused m.vigil ∧
      times Act.isCall since ≤ 1 + unused m.vigil + afoot m.vigil + times Act.isTimer since := by
  obtain ⟨-, hsound, next, hstep, hsince⟩ := h.split
  obtain ⟨hoff, hunused, hafoot, -⟩ := begun_of_start (hm ▸ hstep) hsound
  have hidle := hsound.going_false_eq_zero hoff
  have hbound := unused_add_afoot_le m.vigil
  obtain ⟨hcuts, hcalls⟩ :=
    hsince.run.requests_used hsince.sound hsince.kept fun x hx => (hquiet x hx).1
  have hbegins : times Act.begins since = 0 :=
    times_eq_zero fun x hx => Act.begins_eq_false (hquiet x hx).2
  exact ⟨by omega, by omega, by omega⟩

/-- Where no stopped task goes on, one call more than the first belongs to a start, if a request was kept
for it, and it comes right after the first. -/
theorem Tended.opened (h : Tended first (earlier ++ m :: since) last) (hm : m.act = .start true)
    (hquiet : ∀ x ∈ since, x.act.isRequest = false ∧ x.act.turns = false)
    (halone : going true m.vigil = 0) :
    times Act.isCall since ≤ 1 + unused m.vigil + times Act.isTimer since ∧
      (0 < first.retry → (∀ x ∈ since, ∀ moment, x.act ≠ .time moment) →
        times Act.isCall since ≤ 1 + unused m.vigil) ∧
      (∀ before x after, since = before ++ x :: after → x.act.isCut = true → x.now = m.now ∧
        (0 < first.retry →
          own before = [.call m.vigil.starts, .conclude m.vigil.starts .retry])) ∧
      (AtRest last → last.ready = true ∨ 1 + unused m.vigil ≤ times Act.isCall since) := by
  obtain ⟨hfew, -, hcalls⟩ := h.begun hm hquiet
  have hone : unused m.vigil ≤ 1 := by omega
  obtain ⟨-, hsound, next, hstep, hsince⟩ := h.split
  have hretry := h.retry_eq
  rw [hsince.retry_eq] at hretry
  obtain ⟨hoff, -, -, hgoing, hahead, -⟩ := begun_of_start (hm ▸ hstep) hsound
  have hnone : afoot m.vigil = 0 := by
    have hidle := hsound.going_false_eq_zero hoff
    have hasked := asked_add_afoot_le m.vigil
    omega
  refine ⟨by omega, fun hpos htime => ?_, ?_, fun hrest => ?_⟩
  · obtain ⟨htimers, -⟩ := hsince.run.timers_eq_zero hsince.sound hsince.kept
      (hsince.obedient (hgoing.trans halone) fun x hx => (hquiet x hx).2) htime (hretry ▸ hpos) hahead
    omega
  · rintro before x after rfl hcut
    rw [List.forall_mem_append] at hquiet
    obtain ⟨hopens, hsound', next', hstep', -⟩ := hsince.split
    obtain ⟨halone', c, hc, hcurrent, hnumber, hopening⟩ :=
      hopens.run.opening hstep hm hsound halone hone hquiet.1 hopens.kept hopens.prompt
    rw [← hretry, ← hopens.retry_eq, ← hnumber]
    exact hopening.of_cut hstep' hsound' hc hcurrent halone' hcut
  · obtain ⟨-, c, hc, -, -, hopening⟩ :=
      hsince.run.opening hstep hm hsound halone hone hquiet hsince.kept hsince.prompt
    exact hopening.of_atRest h.last_sound hc hrest

/-- Whatever happens to a checkpoint whose listeners stay and whose store answers at once: a request
that is made while it is started and not ready is followed by a call that is made later, without any time
passing, unless an answer that was not seen yet made it ready, or a task that was stopped took a request;
any number of requests bring about one call or two, and one more for each task that was stopped and goes
on; while no other task goes on they leave one request behind, and one more for each of those; if there
is none of those, it brings about one more call of the next start, right after the first; and a wait that
neither a request nor a stop cuts short lasts for the interval. -/
theorem Run.requests_heeded (hrun : Run first moments last) (hfresh : Fresh first)
    (hkept : ∀ m ∈ moments, m.act.deafens = false) (hprompt : ∀ m ∈ moments, m.Prompt) :
    -- no request is lost
    (∀ earlier m since, moments = earlier ++ m :: since → m.act = .requestCheck →
      m.vigil.started = true → m.vigil.ready = false → (∀ x ∈ since, x.act.turns = false) →
        (∃ x ∈ since, x.Calls ∧ x.now = m.now) ∨ TurnsReady m last ∨ (∃ x ∈ since, x.Takes) ∨
          last.now = m.now ∧ ¬ AtRest last ∧
            ((∀ x ∈ since, x.Obedient) → moves since ≤ 2 + going true m.vigil)) ∧
    -- requests that are made before a task has a turn bring about one call or two
    (∀ earlier m calls later, moments = earlier ++ m :: (calls ++ later) → m.act = .requestCheck →
      m.vigil.started = true → m.vigil.ready = false →
      (∀ x ∈ calls, x.act.isMove = false ∧ x.act.turns = false) →
      (∀ x ∈ later, x.act.isRequest = false) →
        ((∀ x ∈ later, x.act.turns = false) → AtRest last →
          1 ≤ times Act.isCall later ∨ TurnsReady m last ∨ ∃ x ∈ later, x.Takes) ∧
        times Act.isCut later ≤ 2 + going true m.vigil ∧
        times Act.isCall later ≤
          2 + going true m.vigil + times Act.isTimer later + times Act.begins later ∧
        (0 < first.retry → (∀ x ∈ later, x.Obedient) → (∀ x ∈ later, x.act.turns = false) →
          (∀ x ∈ later, ∀ moment, x.act ≠ .time moment) →
            times Act.isCall later ≤ 2 + going true m.vigil)) ∧
    (AtRest last → (∃ t ∈ last.tasks, t.ended = false) → unused last = 0) ∧
    -- one request is kept while no task goes on but those that were stopped
    (∀ earlier m since, moments = earlier ++ m :: since →
      m.vigil.started = false ∨
        (∃ t ∈ m.vigil.tasks, t.stopped = false ∧ ∃ fields, .ready fields ∈ t.events) →
      (∀ x ∈ m :: since, x.act.turns = false) →
        unused last ≤ 1 + going true last ∧
        (0 < unused last → 0 < unused m.vigil ∨ 0 < times Act.isRequest (m :: since)) ∧
        (0 < unused m.vigil ∨ 0 < times Act.isRequest (m :: since) →
          0 < unused last ∨ ∃ x ∈ m :: since, x.Takes)) ∧
    -- it brings about one more call of the next start
    (∀ earlier m since, moments = earlier ++ m :: since → m.act = .start true →
      (∀ x ∈ since, x.act.isRequest = false ∧ x.act.turns = false) →
        (unused m.vigil + afoot m.vigil ≤ 1 + going true m.vigil ∧
          times Act.isCut since ≤ unused m.vigil ∧
          times Act.isCall since ≤ 1 + unused m.vigil + afoot m.vigil + times Act.isTimer since) ∧
        (going true m.vigil = 0 →
          times Act.isCall since ≤ 1 + unused m.vigil + times Act.isTimer since ∧
          (0 < first.retry → (∀ x ∈ since, ∀ moment, x.act ≠ .time moment) →
            times Act.isCall since ≤ 1 + unused m.vigil) ∧
          (∀ before x after, since = before ++ x :: after → x.act.isCut = true → x.now = m.now ∧
            (0 < first.retry →
              own before = [.call m.vigil.starts, .conclude m.vigil.starts .retry])) ∧
          (AtRest last → last.ready = true ∨ 1 + unused m.vigil ≤ times Act.isCall since))) ∧
    -- a wait that neither a request nor a stop cuts short lasts for the interval
    (∀ number earlier m since, moments = earlier ++ m :: since → m.act = .conclude number .retry →
      (∀ x ∈ since, x.act.turnOf? ≠ some number) →
        (∀ t ∈ last.tasks, t.number = number → t.ended = false →
          last.now ≤ m.now + first.retry) ∧
        ∀ act next, Step last act next → act.turnOf? = some number →
          act = .wake number .timer ∧ last.now = m.now + first.retry ∨
          last.now ≤ m.now + first.retry ∧
            (act = .wake number .request ∧ Requested m since last.now ∨
              act = .leave number ∧ Cancelled m number since last.now)) := by
  have h : Tended first moments last := ⟨hrun, .of_fresh hfresh, hkept, hprompt⟩
  refine ⟨?_, ?_, ?_, ?_, ?_, ?_⟩
  · rintro earlier m since rfl hm hstarted hready hturns
    exact h.heeded hm hstarted hready hturns
  · rintro earlier m calls later rfl hm hstarted hready hcalls hrequest
    exact ⟨h.called hm hstarted hready hcalls, h.used hm (fun x hx => (hcalls x hx).2) hrequest⟩
  · rintro hrest ⟨t, ht, hgoing⟩
    exact h.last_sound.unused_of_atRest hrest ht hgoing
  · rintro earlier m since rfl hidle hturns
    obtain ⟨middle, hbefore, hrest⟩ := h.append
    obtain ⟨rfl, -⟩ := hrest.run.of_cons
    exact hrest.run.stored hrest.sound hrest.kept hturns (hbefore.idle hfresh hidle)
  · rintro earlier m since rfl hm hquiet
    exact ⟨h.begun hm hquiet, h.opened hm hquiet⟩
  · rintro number earlier m since rfl hm hquiet
    exact h.waited hm hquiet

end
/-! ## Two requests before the first call -/

/-- The checkpoint before its first turn, when a request was made. -/
def keptVigil : Vigil :=
  { named 0 {} .looking [] with permit := true }

/-- What happens after two requests. -/
def afterRequests : List Moment :=
  [⟨keptVigil, .call 0⟩,
    ⟨{ named 0 (called {}) (.called (.ok [])) [] with permit := true }, .conclude 0 .retry⟩,
    ⟨named 0 (called {}) (.waiting 10 true) [.retry], .wake 0 .request⟩,
    ⟨named 0 (called {}) .looking [.retry], .call 0⟩,
    ⟨named 0 (called (called {})) (.called (.ok [])) [.retry], .conclude 0 .retry⟩]

/-- The checkpoint comes to rest. -/
def restVigil : Vigil :=
  named 0 (called (called {})) (.waiting 10 false) [.retry, .retry]

/-- What happens until the checkpoint comes to rest. -/
def twiceMoments : List Moment :=
  [⟨nameVigil, .start true⟩] ++
    ⟨named 0 {} .looking [], .requestCheck⟩ :: ([⟨keptVigil, .requestCheck⟩] ++ afterRequests)

theorem run_twiceMoments : Run nameVigil twiceMoments restVigil := by
  have hkept := ((Run.single (.start nameVigil)).snoc (.requestCheck _)).snoc (.requestCheck _)
  have hcall := hkept.snoc (@Step.call keptVigil [] { number := 0 } [] rfl rfl)
  have hwait := hcall.snoc (@Step.conclude _ [] { number := 0, phase := .called (.ok []) } [] _ rfl rfl)
  have hagain := (hwait.snoc (step_request 0 (called {}) [.retry] 10)).snoc
    (step_call 0 (called {}) [.retry])
  exact hagain.snoc (step_retry 0 (called (called {})) [.retry])

/-- No time passes. -/
def Act.stands : Act → Bool
  | time _ => false
  | _ => true

theorem prompt_of_stands {moments : List Moment}
    (h : ∀ m ∈ moments, m.act.deafens = false ∧ m.act.stands = true) :
    ∀ m ∈ moments, m.act.deafens = false ∧ m.Prompt := by
  refine fun m hm => ⟨(h m hm).1, fun moment hact => ?_⟩
  have hstands := (h m hm).2
  rw [hact] at hstands
  cases hstands

/-- Two requests that are made before the first call bring about one call at least, and two at most. -/
theorem Run.requests_heeded_twice :
    1 ≤ times Act.isCall afterRequests ∧ times Act.isCall afterRequests ≤ 2 := by
  have hstands : ∀ m ∈ twiceMoments, m.act.deafens = false ∧ m.Prompt :=
    prompt_of_stands (by decide +kernel)
  have hcurrent : ∀ m ∈ afterRequests, ∀ t ∈ m.vigil.tasks, t.stopped = false := by decide +kernel
  have hrest : AtRest restVigil := List.forall_mem_singleton.mpr rfl
  obtain ⟨-, hcalls, -⟩ :=
    run_twiceMoments.requests_heeded ⟨rfl, rfl, rfl, rfl, rfl⟩ (fun m hm => (hstands m hm).1)
      fun m hm => (hstands m hm).2
  obtain ⟨hone, -, htwo, -⟩ := hcalls _ _ _ afterRequests rfl rfl rfl rfl (by decide +kernel)
    (by decide +kernel)
  refine ⟨(hone (by decide +kernel) hrest).resolve_right ?_, htwo⟩
  rintro (⟨t, ht, -, answer, fields, hphase, -⟩ | ⟨x, hx, t, ht, hstopped, -⟩)
  · cases List.mem_singleton.mp ht
    cases hphase
  · exact absurd ((hcurrent x hx t ht).symm.trans hstopped) nofun

/-! ## What becomes of a request beside a task that was stopped -/

/-- The task of the first start waits. -/
def waiting (asked : Bool) : Task :=
  { number := 0, stopped := true, phase := .waiting 10 asked, events := [.retry] }

/-- The task of the first start was stopped while it waited. -/
def stoppedVigil : Vigil :=
  { nameVigil with store := called {}, starts := 1, tasks := [waiting false] }

/-- What happens until the first wait begins. -/
def firstMoments : List Moment :=
  [⟨nameVigil, .start true⟩, ⟨named 0 {} .looking [], .call 0⟩,
    ⟨named 0 (called {}) (.called (.ok [])) [], .conclude 0 .retry⟩]

theorem run_firstMoments : Run nameVigil firstMoments (firstWait 0 false) :=
  ((Run.single (.start nameVigil)).snoc (step_call 0 {} [])).snoc (step_retry 0 (called {}) [])

/-- A second start, beside tasks of the first one. -/
def again (store : Store) (permit : Bool) (t : Task) (phase : Phase) (events : List Event) : Vigil :=
  { nameVigil with
    store, permit, started := true, starts := 2, tasks := [t, { number := 1, phase, events }] }

section

variable (store : Store) (permit : Bool) (t : Task) (events : List Event)

theorem step_call_again : Step (again store permit t .looking events) (.call 1)
    (again (called store) permit t (.called (store.readHash Store.configKey).1) events) :=
  @Step.call _ [t] { number := 1, events } [] rfl rfl

theorem step_retry_again : Step (again store permit t (.called (.ok [])) events) (.conclude 1 .retry)
    (again store false t (.waiting 10 permit) (.retry :: events)) :=
  @Step.conclude _ [t] { number := 1, phase := .called (.ok []), events } [] _ rfl rfl

theorem step_request_again : Step (again store permit t (.waiting 10 true) events) (.wake 1 .request)
    (again store permit t .looking events) :=
  @Step.request _ [t] { number := 1, phase := .waiting 10 true, events } [] _ rfl rfl

end

/-- Both tasks wait, the one that was stopped before the other. -/
def bothVigil (asked : Bool) : Vigil :=
  again (called (called {})) false (waiting asked) (.waiting 10 false) [.retry]

/-- What happens until both tasks wait. -/
def bothMoments : List Moment :=
  firstMoments ++ [⟨firstWait 0 false, .stop true⟩, ⟨stoppedVigil, .start true⟩,
    ⟨again (called {}) false (waiting false) .looking [], .call 1⟩,
    ⟨again (called (called {})) false (waiting false) (.called (.ok [])) [], .conclude 1 .retry⟩]

/-- The task that was stopped takes the request, and ends. -/
def lostMoments : List Moment :=
  [⟨bothVigil true, .wake 0 .request⟩,
    ⟨again (called (called {})) false { waiting true with phase := .looking } (.waiting 10 false)
      [.retry], .leave 0⟩]

/-- The request is lost. -/
def lostVigil : Vigil :=
  again (called (called {})) false { waiting true with phase := .finished } (.waiting 10 false) [.retry]

theorem run_lostMoments :
    Run nameVigil (bothMoments ++ ⟨bothVigil false, .requestCheck⟩ :: lostMoments) lostVigil := by
  have hagain := (Run.single (.stop (firstWait 0 false))).snoc (.start stoppedVigil)
  have hboth := (hagain.snoc (step_call_again (called {}) false (waiting false) [])).snoc
    (step_retry_again (called (called {})) false (waiting false) [])
  have htaken := (Run.single (.requestCheck (bothVigil false))).snoc (@Step.request _ [] (waiting true)
    [{ number := 1, phase := .waiting 10 false, events := [.retry] }] _ rfl rfl)
  have hlost := htaken.snoc (@Step.leave _ [] { waiting true with phase := .looking }
    [{ number := 1, phase := .waiting 10 false, events := [.retry] }] rfl rfl rfl)
  exact (run_firstMoments.trans hboth).trans hlost

/-- Two requests were made after the stop: the task that was stopped was asked, and one is kept. -/
def storedVigil : Vigil :=
  { nameVigil with store := called {}, permit := true, starts := 1, tasks := [waiting true] }

/-- What happens until the next start. -/
def storedMoments : List Moment :=
  firstMoments ++ [⟨firstWait 0 false, .stop true⟩, ⟨stoppedVigil, .requestCheck⟩,
    ⟨{ stoppedVigil with tasks := [waiting true] }, .requestCheck⟩]

/-- The task that was stopped ends when the other one waits, and passes its request on. -/
def passedMoments : List Moment :=
  [⟨again (called {}) true (waiting true) .looking [], .call 1⟩,
    ⟨again (called (called {})) true (waiting true) (.called (.ok [])) [], .conclude 1 .retry⟩,
    ⟨again (called (called {})) false (waiting true) (.waiting 10 true) [.retry], .leave 0⟩,
    ⟨again (called (called {})) true { waiting true with phase := .finished } (.waiting 10 true) [.retry],
      .wake 1 .request⟩,
    ⟨again (called (called {})) true { waiting true with phase := .finished } .looking [.retry], .call 1⟩,
    ⟨again (called (called (called {}))) true { waiting true with phase := .finished } (.called (.ok []))
      [.retry], .conclude 1 .retry⟩,
    ⟨again (called (called (called {}))) false { waiting true with phase := .finished } (.waiting 10 true)
      [.retry, .retry], .wake 1 .request⟩,
    ⟨again (called (called (called {}))) false { waiting true with phase := .finished } .looking
      [.retry, .retry], .call 1⟩]

theorem run_passedMoments : ∃ last,
    Run nameVigil (storedMoments ++ ⟨storedVigil, .start true⟩ :: passedMoments) last := by
  have hstored := (Run.single (.stop (firstWait 0 false))).snoc (.requestCheck stoppedVigil)
  have hkept := hstored.snoc (.requestCheck { stoppedVigil with tasks := [waiting true] })
  have hbegun := (Run.single (.start storedVigil)).snoc
    (step_call_again (called {}) true (waiting true) [])
  have hwaits := hbegun.snoc (step_retry_again (called (called {})) true (waiting true) [])
  have hpassed := hwaits.snoc (@Step.leave _ [] (waiting true)
    [{ number := 1, phase := .waiting 10 true, events := [.retry] }] rfl rfl rfl)
  have hsecond := (hpassed.snoc (step_request_again _ _ _ _)).snoc (step_call_again _ _ _ _)
  have hthird := (hsecond.snoc (step_retry_again _ _ _ _)).snoc (step_request_again _ _ _ _)
  exact ⟨_, (run_firstMoments.trans hkept).trans (hthird.snoc (step_call_again _ _ _ _))⟩

/-- A stop ends a wait before the interval is over, though no request was made; a request is followed by
no call, for a task that was stopped took it; and two requests that are made after a stop bring about two
more calls of the next start, for a task that was stopped passes one of them on. -/
theorem requests_otherwise_stoppedVigil :
    (∃ earlier m since last next, Run nameVigil (earlier ++ m :: since) last ∧
      (∀ x ∈ earlier ++ m :: since, x.act.deafens = false ∧ x.act.isRequest = false ∧ x.Prompt) ∧
      m.act = .conclude 0 .retry ∧ (∀ x ∈ since, x.act.turnOf? ≠ some 0) ∧
      Step last (.leave 0) next ∧ last.now < m.now + last.retry) ∧
    (∃ earlier m since last, Run nameVigil (earlier ++ m :: since) last ∧
      (∀ x ∈ earlier ++ m :: since, x.act.deafens = false ∧ x.Prompt) ∧ m.act = .requestCheck ∧
      m.vigil.started = true ∧ m.vigil.ready = false ∧ (∀ x ∈ since, x.act.turns = false) ∧
      AtRest last ∧ last.ready = false ∧ times Act.isCall since = 0) ∧
    ∃ earlier m since last, Run nameVigil (earlier ++ m :: since) last ∧
      (∀ x ∈ earlier ++ m :: since, x.act.deafens = false ∧ x.Prompt) ∧ m.act = .start true ∧
      (∀ x ∈ since, x.act.isRequest = false ∧ x.act.turns = false) ∧
      times Act.isTimer since = 0 ∧ times Act.isCall since = 3 := by
  refine ⟨?_, ?_, ?_⟩
  · have hwait := (Run.single (step_retry 0 (called {}) [])).snoc (@Step.time _ 4 (by decide))
    have hrun := ((Run.single (.start nameVigil)).snoc (step_call 0 {} [])).trans
      (hwait.snoc (.stop (firstWait 4 false)))
    refine ⟨_, _, [_, _], _, _, hrun, ?_, rfl, ?_, @Step.leave _ [] (waiting false) [] rfl rfl rfl,
      by decide⟩
    · intro x hx
      simp only [List.cons_append, List.nil_append, List.mem_cons, List.not_mem_nil, or_false] at hx
      rcases hx with rfl | rfl | rfl | rfl | rfl
      · exact ⟨rfl, rfl, nofun⟩
      · exact ⟨rfl, rfl, nofun⟩
      · exact ⟨rfl, rfl, nofun⟩
      · exact ⟨rfl, rfl, prompt_firstWait⟩
      · exact ⟨rfl, rfl, nofun⟩
    · simp [Act.turnOf?]
  · refine ⟨_, _, _, _, run_lostMoments, prompt_of_stands (by decide +kernel), rfl, rfl, rfl,
      by decide +kernel, ?_, rfl, rfl⟩
    exact List.forall_mem_cons.mpr ⟨rfl, List.forall_mem_singleton.mpr rfl⟩
  · obtain ⟨last, hrun⟩ := run_passedMoments
    exact ⟨_, _, _, last, hrun, prompt_of_stands (by decide +kernel), rfl, by decide +kernel, rfl, rfl⟩

end Vigil
end Checkpoint
end Uplink
