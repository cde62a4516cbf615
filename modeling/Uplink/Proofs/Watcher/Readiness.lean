import Uplink.Proofs.Watcher.Lifecycle
import Uplink.Proofs.Watcher.Ownership

/-!
# Readiness and the handle

If a resource is ready as soon as it is acquired and says nothing of readiness itself, then the state
of its watcher says how far the live run is.  Readiness is taken back only after the resource was
released.  So a watcher is ready from the acquisition to the end of the release, and it may be ready
while the resource is being released: not after a stop, but after a drive that came to its end.
-/

namespace Uplink
namespace Watcher

variable {σ α : Type}

/-- The work of a resource says nothing of readiness. -/
def Silent (r : Resource σ α) : Prop :=
  ∀ task args now permit state next deed,
    r.act task args now permit state = .work next deed → deed.ready = none

/-- The run has a handle that it did not lose by a stop. -/
inductive Stage.Engaged : Stage → Prop where
  | driving : Engaged .driving
  | releasing {ending : Ending} : ending ≠ .interrupted → Engaged (.releasing ending)

/-- The live run is the one whose turn it is, and has a handle. -/
def Engaged (w : Watcher σ α) : Prop :=
  ∃ holder, w.holder = some holder ∧ w.live = some holder.run ∧ holder.stage.Engaged

section

variable {r : Resource σ α} {w next : Watcher σ α} {holder : Holder α} {event : Event}
  {label : Label α} {tokens : Tokens} {run : ℕ}

theorem setState_state_of_live (hlive : w.live = some run) (hstarted : w.started = true)
    (state : State) : (w.setState run state).state = state := by
  have hcancelled : w.isCancelled run = false := by simp [isCancelled, hlive]
  have hstopped : w.state ≠ .stopped := by
    intro h
    simp [started, h, State.isStarted] at hstarted
  unfold setState
  split
  · rename_i hsame
    simpa [hcancelled, hstopped] using hsame
  · rfl

theorem display_state_of_live {deed : Deed} {ready : Bool} (hlive : w.live = some run)
    (hstarted : w.started = true) (h : deed.ready = some ready) :
    (w.display run deed).state = if ready then .ready else .retrying := by
  unfold display
  rw [h]
  exact setState_state_of_live (w := { w with
    permit := w.permit && !deed.usesPermit, notes := w.notes.publishAll deed.notes }) hlive hstarted _

theorem display_state_of_silent {deed : Deed} (h : deed.ready = none) :
    (w.display run deed).state = w.state ∧ (w.display run deed).live = w.live ∧
      (w.display run deed).holder = w.holder := by
  refine ⟨?_, display_live .., display_holder ..⟩
  unfold display
  rw [h]

theorem engaged_iff_of_holder (hholder : w.holder = some holder) :
    w.Engaged ↔ w.live = some holder.run ∧ holder.stage.Engaged := by
  constructor
  · rintro ⟨other, hother, hlive, hstage⟩
    rw [hholder] at hother
    cases hother
    exact ⟨hlive, hstage⟩
  · rintro ⟨hlive, hstage⟩
    exact ⟨holder, hholder, hlive, hstage⟩

theorem not_engaged_of_holder_none (h : w.holder = none) : ¬ w.Engaged := by
  rintro ⟨holder, hholder, -⟩
  rw [h] at hholder
  cases hholder

theorem Engaged.congr (hholder : next.holder = w.holder) (hlive : next.live = w.live) :
    next.Engaged ↔ w.Engaged := by
  rw [Engaged, Engaged, hholder, hlive]

/-- While the run whose turn it is was stopped, the watcher is not engaged. -/
theorem not_engaged_of_isCancelled (hholder : w.holder = some holder)
    (h : w.isCancelled holder.run = true) : ¬ w.Engaged := by
  rw [engaged_iff_of_holder hholder]
  rintro ⟨hlive, -⟩
  exact isCancelled_iff.mp h hlive

theorem not_engaged_acquiring : ¬ Stage.acquiring.Engaged := by
  rintro ⟨⟩

theorem not_engaged_pausing {wake : ℕ} : ¬ (Stage.pausing wake).Engaged := by
  rintro ⟨⟩

theorem not_engaged_afterRelease (ending : Ending) (w : Watcher σ α) :
    ¬ (afterRelease holder ending w).2.Engaged := by
  rcases holder_afterRelease holder ending w with hgone | ⟨wake, hpausing⟩
  · exact not_engaged_of_holder_none hgone
  · rw [engaged_iff_of_holder hpausing]
    exact fun h => not_engaged_pausing h.2

/-- A live run that has released the resource is not ready any more. -/
theorem afterRelease_state (hlive : w.live = some holder.run) (hstarted : w.started = true)
    {ending : Ending} (hending : ending ≠ .interrupted) :
    (afterRelease holder ending w).2.state = .retrying := by
  cases ending with
  | interrupted => exact absurd rfl hending
  | finished => exact setState_state_of_live hlive hstarted .retrying
  | failed => exact setState_state_of_live (w := w.note .error) hlive hstarted .retrying

/-- A move of the holder keeps the state true to the run. -/
theorem HolderStep.ready_iff (h : HolderStep r w holder event next)
    (hholder : w.holder = some holder) (horderly : Orderly tokens w) (hsilent : Silent r)
    (hready : r.readyOnAcquire = true) (hiff : w.state = .ready ↔ w.Engaged) :
    next.state = .ready ↔ next.Engaged := by
  have hlive : ∀ {run}, w.isCancelled run = false → w.live = some run ∧ w.started = true := by
    intro run hrun
    have hsome := live_of_not_isCancelled hrun
    exact ⟨hsome, by rw [horderly.started, hsome]; rfl⟩
  cases h with
  | leave hcancelled _ =>
      refine iff_of_false ?_ (not_engaged_of_holder_none rfl)
      exact mt hiff.mp (not_engaged_of_isCancelled hholder hcancelled)
  | work _ _ hact =>
      obtain ⟨hstate, hlive', hholder'⟩ := display_state_of_silent (hsilent _ _ _ _ _ _ _ hact)
      rw [hstate, Engaged.congr hholder' hlive']
      exact hiff
  | @acquire s hstage hrun _ =>
      obtain ⟨hsome, hstarted⟩ := hlive hrun
      have hset := setState_state_of_live (w := w.withResource s) hsome hstarted .ready
      rw [afterAcquire, if_pos rfl, hready]
      refine iff_of_true hset ⟨_, rfl, ?_, .driving⟩
      exact (setState_live ..).trans hsome
  | @refuse s hstage hrun _ =>
      obtain ⟨hsome, hstarted⟩ := hlive hrun
      have hset := setState_state_of_live (w := w.withResource s) hsome hstarted .retrying
      refine iff_of_false ?_ ?_
      · intro h
        cases hset.symm.trans h
      · rintro ⟨after, hafter, -, hengaged⟩
        cases hafter
        cases hengaged
  | interrupt _ hcancelled =>
      refine iff_of_false ?_ ?_
      · exact mt hiff.mp (not_engaged_of_isCancelled hholder hcancelled)
      · exact not_engaged_of_isCancelled rfl hcancelled
  | @finish s success hstage hrun _ =>
      obtain ⟨hsome, -⟩ := hlive hrun
      refine iff_of_true ?_ ⟨_, rfl, hsome, .releasing ?_⟩
      · exact hiff.mpr ⟨holder, hholder, hsome, hstage ▸ .driving⟩
      · cases success <;> simp
  | @release ending s _ hstage hact =>
      refine iff_of_false ?_ (not_engaged_afterRelease ending _)
      cases hcancelled : w.isCancelled holder.run with
      | true =>
          rw [(HolderStep.release hstage hact).state_of_isCancelled hcancelled]
          exact mt hiff.mp (not_engaged_of_isCancelled hholder hcancelled)
      | false =>
          obtain ⟨hsome, hstarted⟩ := hlive hcancelled
          have hending : ending ≠ .interrupted := by
            rintro rfl
            have hstopped := horderly.interrupted holder hholder hstage
            rw [hcancelled] at hstopped
            cases hstopped
          rw [afterRelease_state (w := w.withResource s) hsome hstarted hending]
          simp
  | retry hstage _ _ =>
      refine iff_of_false ?_ ?_
      · refine mt hiff.mp ?_
        rw [engaged_iff_of_holder hholder, hstage]
        exact fun h => not_engaged_pausing h.2
      · rintro ⟨after, hafter, -, hengaged⟩
        cases hafter
        cases hengaged

theorem Step.ready_iff (h : Step r w label next) (horderly : Orderly tokens w)
    (hsilent : Silent r) (hready : r.readyOnAcquire = true)
    (hlabel : ∀ run ready, label ≠ .say run ready) (hiff : w.state = .ready ↔ w.Engaged) :
    next.state = .ready ↔ next.Engaged := by
  cases h with
  | start args =>
      unfold Watcher.start
      split
      · exact hiff
      · refine iff_of_false (by simp) ?_
        -- the new run has no turn yet
        rintro ⟨holder, hholder, hlive, -⟩
        have hthere : holder.run ∈ w.present := by simp [present, show w.holder = _ from hholder]
        have hlt := horderly.lt _ hthere
        exact Nat.ne_of_gt hlt (Option.some.inj hlive)
  | stop =>
      unfold Watcher.stop
      split
      · refine iff_of_false (by simp) ?_
        rintro ⟨holder, -, hlive, -⟩
        cases hlive
      · exact hiff
  | requestCheck | note | surroundings | time | giveUp => exact hiff
  | say run ready => exact absurd rfl (hlabel run ready)
  | @turn _ _ run args _ _ hholder =>
      refine iff_of_false (mt hiff.mp (not_engaged_of_holder_none hholder)) ?_
      rintro ⟨holder, hsome, -, hengaged⟩
      cases hsome
      cases hengaged
  | holder hholder hmove =>
      exact (holderStep_of_holderMove? hmove).ready_iff hholder horderly hsilent hready hiff

theorem Fresh.ready_iff (h : w.Fresh) : w.state = .ready ↔ w.Engaged := by
  refine iff_of_false ?_ (not_engaged_of_holder_none h.holder)
  rw [h.state]
  simp

theorem Run.ready_iff {first last : Watcher σ α} {labels : List (Label α)}
    (hrun : Run r first labels last) (hfresh : first.Fresh) (hsilent : Silent r)
    (hready : r.readyOnAcquire = true) (hquiet : ∀ run ready, .say run ready ∉ labels) :
    last.state = .ready ↔ last.Engaged := by
  induction hrun with
  | nil => exact hfresh.ready_iff
  | @snoc last next labels label hrun hstep ih =>
      have hbefore : ∀ run ready, .say run ready ∉ labels := by
        intro run ready hmem
        exact hquiet run ready (List.mem_append_left _ hmem)
      refine hstep.ready_iff (hrun.orderly hfresh) hsilent hready ?_ (ih hbefore)
      rintro run ready rfl
      exact hquiet run ready (List.mem_append_right _ List.mem_cons_self)

/-! ## What was dealt with the resource while the watcher is ready -/

/-- The cycle of an engaged run is open: the resource was acquired, and perhaps its release has
begun. -/
theorem Engaged.openCycle_eq (h : w.Engaged) :
    ∃ run, w.live = some run ∧ handleOf w.holder = [run] ∧
      (openCycle w.holder = [.attempted run, .acquired run] ∨
        ∃ ending, ending ≠ .interrupted ∧
          openCycle w.holder = [.attempted run, .acquired run, .ended run ending]) := by
  obtain ⟨holder, hholder, hlive, hengaged⟩ := h
  refine ⟨holder.run, hlive, ?_⟩
  rw [hholder]
  cases hstage : holder.stage with
  | acquiring => exact absurd (hstage ▸ hengaged) not_engaged_acquiring
  | pausing wake => exact absurd (hstage ▸ hengaged) not_engaged_pausing
  | driving => simp [handleOf, openCycle, hstage]
  | releasing ending =>
      rw [hstage] at hengaged
      cases hengaged with
      | releasing hending => simpa [handleOf, openCycle, hstage] using hending

/-- At rest, where a release takes no time, only the live run has a handle, and it drives. -/
theorem driving_of_rest (hrest : move? r w = none) (hholder : w.holder = some holder)
    (hheld : handleOf w.holder ≠ [])
    (hrelease : ∀ args now permit state due, r.act .release args now permit state ≠ .wait due) :
    w.live = some holder.run ∧ holder.stage = .driving := by
  have hmove := holderMove?_of_rest hrest hholder
  rw [hholder] at hheld
  unfold holderMove? at hmove
  split at hmove
  · rename_i hstage
    simp [handleOf, hstage] at hheld
  · rename_i hstage
    split at hmove
    · cases hmove
    · rename_i hlive
      exact ⟨live_of_not_isCancelled (eq_false_of_ne_true hlive), hstage⟩
  · obtain ⟨due, hwait⟩ := pursue_eq_none hmove
    exact absurd hwait (hrelease _ _ _ _ due)
  · rename_i wake hstage
    simp [handleOf, hstage] at hheld

/-- At rest an engaged run drives the resource, unless its release takes time. -/
theorem Engaged.driving_of_rest (h : w.Engaged) (hrest : move? r w = none)
    (hrelease : ∀ args now permit state due, r.act .release args now permit state ≠ .wait due) :
    ∃ holder, w.holder = some holder ∧ holder.stage = .driving := by
  obtain ⟨run, -, hhandle, -⟩ := h.openCycle_eq
  obtain ⟨holder, hholder, -⟩ := h
  have hheld : handleOf w.holder ≠ [] := by simp [hhandle]
  exact ⟨holder, hholder, (Watcher.driving_of_rest hrest hholder hheld hrelease).2⟩

/-- Over a resource that is ready as soon as it is acquired and says nothing of readiness itself, a
watcher is ready exactly while its live run has a handle.  Then that handle is the only one that is
held, and its release has not begun, unless the drive came to its end by itself and the release is
still under way.  Where a release takes no time, a watcher that is ready and at rest drives its
resource. -/
theorem Run.ready_iff_held {first last : Watcher σ α} {labels : List (Label α)}
    (hrun : Run r first labels last) (hfresh : first.Fresh) (hsilent : Silent r)
    (hready : r.readyOnAcquire = true) (hquiet : ∀ run ready, .say run ready ∉ labels) :
    (last.state = .ready ↔ ∃ holder, last.holder = some holder ∧ last.live = some holder.run ∧
      (holder.stage = .driving ∨
        ∃ ending, holder.stage = .releasing ending ∧ ending ≠ .interrupted)) ∧
    (last.state = .ready → ∃ run, last.live = some run ∧ handles labels = [run] ∧
      ∃ cycles : List (List Event), (∀ cycle ∈ cycles, Cycle cycle) ∧
        (dealings labels = cycles.flatten ++ [.attempted run, .acquired run] ∨
          ∃ ending, ending ≠ .interrupted ∧
            dealings labels =
              cycles.flatten ++ [.attempted run, .acquired run, .ended run ending])) ∧
    ((∀ args now permit state due, r.act .release args now permit state ≠ .wait due) →
      move? r last = none → last.state = .ready →
        ∃ holder, last.holder = some holder ∧ holder.stage = .driving) := by
  have hiff := hrun.ready_iff hfresh hsilent hready hquiet
  refine ⟨?_, ?_, ?_⟩
  · have hstage : ∀ stage : Stage, stage.Engaged ↔
        (stage = .driving ∨ ∃ ending, stage = .releasing ending ∧ ending ≠ .interrupted) := by
      intro stage
      constructor
      · rintro (_ | hending)
        · exact .inl rfl
        · exact .inr ⟨_, rfl, hending⟩
      · rintro (rfl | ⟨ending, rfl, hending⟩)
        · exact .driving
        · exact .releasing hending
    simpa only [Engaged, hstage] using hiff
  · intro hstate
    obtain ⟨run, hlive, hhandle, hcycle⟩ := (hiff.mp hstate).openCycle_eq
    obtain ⟨cycles, hcycles, hdealings⟩ := hrun.cycles hfresh
    refine ⟨run, hlive, (hrun.handles_eq hfresh).trans hhandle, cycles, hcycles, ?_⟩
    rw [hdealings]
    rcases hcycle with hheld | ⟨ending, hending, hended⟩
    · exact .inl (congrArg (cycles.flatten ++ ·) hheld)
    · exact .inr ⟨ending, hending, congrArg (cycles.flatten ++ ·) hended⟩
  · intro hrelease hrest hstate
    exact (hiff.mp hstate).driving_of_rest hrest hrelease

end

/-! ## A resource that is released for a while -/

/-- What is done, without a word about readiness. -/
def Act.silenced : Act σ → Act σ
  | .work next deed => .work next { deed with ready := none }
  | act => act

theorem Act.silenced_eq_work {act : Act σ} {next : σ} {deed : Deed}
    (h : act.silenced = .work next deed) :
    deed.ready = none ∧ ∃ said, act = .work next said := by
  cases act with
  | wait due => cases h
  | finish next success => cases h
  | work next said =>
      cases h
      exact ⟨rfl, said, rfl⟩

/-- A resource that says nothing of readiness. -/
def Resource.silenced (r : Resource σ α) : Resource σ α where
  readyOnAcquire := r.readyOnAcquire
  enter := r.enter
  act task args now permit state := (r.act task args now permit state).silenced
  energy := r.energy
  energy_lt h := r.energy_lt (Act.silenced_eq_work h).2.choose_spec

theorem silent_silenced (r : Resource σ α) : Silent r.silenced :=
  fun _ _ _ _ _ _ _ h => (Act.silenced_eq_work h).1

/-- The scripted resource, without its checks. -/
def plainResource : Resource Script String :=
  (Script.resource true).silenced

/-- A watcher over a resource that is lost at once and takes a second to be released. -/
def fadingWatcher : Watcher Script String where
  name := "fading"
  retry := 10
  resource := { plans := [{ driveEnds := some false, releaseDelay := some 1000 }] }

/-- The resource is acquired. -/
def heldWatcher : Watcher Script String :=
  moved plainResource (moved plainResource (fadingWatcher.start "-").2)

theorem run_heldWatcher : Run plainResource fadingWatcher
    [.start "-" true, .move (.attempted 0), .move (.acquired 0)] heldWatcher := by
  have hstart := Run.single (.start (r := plainResource) fadingWatcher "-")
  have hattempted := hstart.snoc (step_moved (.attempted 0) rfl)
  exact hattempted.snoc (step_moved (.acquired 0) rfl)

theorem Run.ready_iff_held_driving :
    heldWatcher.state = .ready ∧ handles (α := String)
      [.start "-" true, .move (.attempted 0), .move (.acquired 0)] = [0] := by
  have hready : heldWatcher.state = .ready := rfl
  obtain ⟨-, hheld, -⟩ := run_heldWatcher.ready_iff_held ⟨rfl, rfl, rfl, rfl⟩
    (silent_silenced _) rfl (by simp)
  obtain ⟨run, hlive, hhandles, -⟩ := hheld hready
  cases hlive
  exact ⟨hready, hhandles⟩

/-- The resource is lost: its release has begun and takes its time, and the watcher is at rest.  It is
still ready. -/
theorem ready_while_releasing :
    Silent plainResource ∧ plainResource.readyOnAcquire = true ∧ fadingWatcher.Fresh ∧
      Run plainResource fadingWatcher
        [.start "-" true, .move (.attempted 0), .move (.acquired 0), .move (.ended 0 .failed)]
        (moved plainResource heldWatcher) ∧
      (moved plainResource heldWatcher).move? plainResource = none ∧
      (moved plainResource heldWatcher).state = .ready ∧
      ¬ ∃ holder, (moved plainResource heldWatcher).holder = some holder ∧
        holder.stage = .driving := by
  refine ⟨silent_silenced _, rfl, ⟨rfl, rfl, rfl, rfl⟩, ?_, rfl, rfl, ?_⟩
  · exact run_heldWatcher.snoc (step_moved (.ended 0 .failed) rfl)
  · rintro ⟨holder, hholder, hstage⟩
    cases hholder
    cases hstage

end Watcher
end Uplink
