import Uplink.Proofs.Watcher.Run
import Uplink.Watcher.Scripted

/-!
# Who holds the resource

Runs of different starts may be there at once: one that was stopped and still releases the resource,
others that wait for it.  Only the run whose turn it is deals with the resource, so the dealings form
a row of cycles, each of which belongs to one run and ends before the next one begins.
-/

namespace Uplink
namespace Watcher

variable {σ α : Type}

/-! ## What is dealt with the resource -/

/-- What a label tells of attempts, acquisitions and releases. -/
def Label.dealing : Label α → List Event
  | .move (.attempted run) => [.attempted run]
  | .move (.acquired run) => [.acquired run]
  | .move (.ended run ending) => [.ended run ending]
  | .move (.released run ending) => [.released run ending]
  | _ => []

/-- The attempts, acquisitions and releases of a run, in order. -/
def dealings (labels : List (Label α)) : List Event :=
  labels.flatMap Label.dealing

/-- An attempt that came to nothing, or one that succeeded, with the release of what was
acquired. -/
inductive Cycle : List Event → Prop where
  | failed (run : ℕ) : Cycle [.attempted run]
  | complete (run : ℕ) (ending : Ending) :
      Cycle [.attempted run, .acquired run, .ended run ending, .released run ending]

/-- The part of a cycle that is over at a stage. -/
def openCycle : Option (Holder α) → List Event
  | none => []
  | some holder =>
    match holder.stage with
    | .acquiring => [.attempted holder.run]
    | .driving => [.attempted holder.run, .acquired holder.run]
    | .releasing ending =>
      [.attempted holder.run, .acquired holder.run, .ended holder.run ending]
    | .pausing _ => []

/-- The runs that hold a handle after a label. -/
def handlesAfter (held : List ℕ) : Label α → List ℕ
  | .move (.acquired run) => run :: held
  | .move (.released run _) => held.erase run
  | _ => held

/-- The runs that hold a handle of the resource, once for each handle. -/
def handles (labels : List (Label α)) : List ℕ :=
  labels.foldl handlesAfter []

/-- The handle that the run whose turn it is holds at a stage. -/
def handleOf : Option (Holder α) → List ℕ
  | none => []
  | some holder =>
    match holder.stage with
    | .driving => [holder.run]
    | .releasing _ => [holder.run]
    | _ => []

/-- The arguments of the last successful start after a label. -/
def argsAfter (last : Option α) : Label α → Option α
  | .start args true => some args
  | _ => last

/-- The arguments of the last successful start. -/
def lastArgs (labels : List (Label α)) : Option α :=
  labels.foldl argsAfter none

/-! ## One step -/

/-- A dealing continues the cycle that is open, or ends it. -/
def Continues (before dealing after : List Event) : Prop :=
  before ++ dealing = after ∨ Cycle (before ++ dealing) ∧ after = []

section

variable {r : Resource σ α} {w next : Watcher σ α} {holder : Holder α} {event : Event}
  {label : Label α}

theorem holder_afterAcquire (r : Resource σ α) (holder : Holder α) (w : Watcher σ α) :
    (afterAcquire r holder w true).2.holder = some { holder with stage := .driving } := by
  rw [afterAcquire, if_pos rfl]
  rfl

theorem holder_afterRelease (holder : Holder α) (ending : Ending) (w : Watcher σ α) :
    (afterRelease holder ending w).2.holder = none ∨
      ∃ wake, (afterRelease holder ending w).2.holder =
        some { holder with stage := .pausing wake } := by
  cases ending with
  | interrupted => exact Or.inl rfl
  | finished => exact Or.inr ⟨_, rfl⟩
  | failed => exact Or.inr ⟨_, rfl⟩

/-- The holder after its move: it is gone, at another stage of the same run, or where it was. -/
theorem HolderStep.continues (h : HolderStep r w holder event next)
    (hholder : w.holder = some holder) :
    Continues (openCycle (some holder)) (Label.dealing (α := α) (.move event))
        (openCycle next.holder) ∧
      handleOf next.holder = handlesAfter (handleOf (some holder)) (Label.move (α := α) event) := by
  cases h with
  | leave _ hstage =>
      rcases hstage with hstage | ⟨wake, hstage⟩
      · simp only [openCycle, handleOf, hstage]
        exact ⟨Or.inr ⟨.failed _, rfl⟩, rfl⟩
      · simp only [openCycle, handleOf, hstage]
        exact ⟨Or.inl rfl, rfl⟩
  | work _ _ _ =>
      rw [display_holder, withResource, hholder]
      exact ⟨Or.inl (List.append_nil _), rfl⟩
  | acquire hstage _ _ =>
      simp only [holder_afterAcquire, openCycle, handleOf, hstage]
      exact ⟨Or.inl rfl, rfl⟩
  | refuse hstage _ _ =>
      simp only [afterAcquire, toStage, openCycle, handleOf, hstage]
      exact ⟨Or.inr ⟨.failed _, rfl⟩, rfl⟩
  | interrupt hstage _ =>
      simp only [afterDrive, enter, openCycle, handleOf, hstage]
      exact ⟨Or.inl rfl, rfl⟩
  | finish hstage _ _ =>
      simp only [afterDrive, enter, openCycle, handleOf, hstage]
      exact ⟨Or.inl rfl, rfl⟩
  | @release ending s _ hstage _ =>
      rcases holder_afterRelease holder ending (w.withResource s) with hgone | ⟨wake, hpausing⟩
      · simp only [hgone, openCycle, handleOf, hstage]
        exact ⟨Or.inr ⟨.complete _ _, rfl⟩, by simp [handlesAfter]⟩
      · simp only [hpausing, openCycle, handleOf, hstage]
        exact ⟨Or.inr ⟨.complete _ _, rfl⟩, by simp [handlesAfter]⟩
  | retry hstage _ _ =>
      simp only [enter, openCycle, handleOf, hstage]
      exact ⟨Or.inl rfl, rfl⟩

/-- Nothing but a move of the watcher touches the turn. -/
theorem holder_start (w : Watcher σ α) (args : α) : (w.start args).2.holder = w.holder := by
  unfold start
  split <;> rfl

theorem holder_stop (w : Watcher σ α) : w.stop.2.holder = w.holder := by
  unfold stop
  split <;> rfl

theorem Step.continues (h : Step r w label next) :
    Continues (openCycle w.holder) label.dealing (openCycle next.holder) ∧
      handleOf next.holder = handlesAfter (handleOf w.holder) label := by
  cases h with
  | start args =>
      rw [holder_start]
      exact ⟨Or.inl (List.append_nil _), rfl⟩
  | stop =>
      rw [holder_stop]
      exact ⟨Or.inl (List.append_nil _), rfl⟩
  | say run ready =>
      rw [setReady, setState_holder]
      exact ⟨Or.inl (List.append_nil _), rfl⟩
  | requestCheck | note | surroundings | time | giveUp =>
      exact ⟨Or.inl (List.append_nil _), rfl⟩
  | turn _ _ hholder =>
      rw [hholder]
      exact ⟨Or.inl rfl, rfl⟩
  | holder hholder hmove =>
      rw [hholder]
      exact (holderStep_of_holderMove? hmove).continues hholder

end

/-! ## The arguments of the runs -/

/-- The live run has the arguments of the last successful start, whether it waits or has its turn.
Runs are numbered, so that a new run is no other one's namesake. -/
structure Informed (last : Option α) (w : Watcher σ α) : Prop where
  waiting : ∀ entry ∈ w.waiting, w.live = some entry.1 → last = some entry.2
  holder : ∀ holder, w.holder = some holder → w.live = some holder.run → last = some holder.args
  waiting_lt : ∀ entry ∈ w.waiting, entry.1 < w.starts
  holder_lt : ∀ holder, w.holder = some holder → holder.run < w.starts

section

variable {r : Resource σ α} {w next : Watcher σ α} {holder : Holder α} {event : Event}
  {label : Label α} {last : Option α}

/-- The runs are the same, and so are their arguments. -/
theorem Informed.congr (h : Informed last w) (hwaiting : next.waiting ⊆ w.waiting)
    (hholder : next.holder = w.holder) (hlive : next.live = w.live ∨ next.live = none)
    (hstarts : next.starts = w.starts) : Informed last next where
  waiting := by
    intro entry hentry hrun
    rcases hlive with hlive | hlive
    · exact h.waiting entry (hwaiting hentry) (hlive ▸ hrun)
    · rw [hlive] at hrun
      cases hrun
  holder := by
    intro holder hsome hrun
    rw [hholder] at hsome
    rcases hlive with hlive | hlive
    · exact h.holder holder hsome (hlive ▸ hrun)
    · rw [hlive] at hrun
      cases hrun
  waiting_lt := by
    intro entry hentry
    rw [hstarts]
    exact h.waiting_lt entry (hwaiting hentry)
  holder_lt := by
    intro holder hsome
    rw [hholder] at hsome
    rw [hstarts]
    exact h.holder_lt holder hsome

/-- A move of the holder leaves it the run it was, with its arguments. -/
theorem HolderStep.same_run (h : HolderStep r w holder event next)
    (hholder : w.holder = some holder) :
    ∀ after, next.holder = some after → after.run = holder.run ∧ after.args = holder.args := by
  intro after hafter
  cases h with
  | leave _ _ => cases hafter
  | work _ _ _ =>
      rw [display_holder, withResource, hholder] at hafter
      cases hafter
      exact ⟨rfl, rfl⟩
  | acquire _ _ _ =>
      rw [holder_afterAcquire] at hafter
      cases hafter
      exact ⟨rfl, rfl⟩
  | refuse _ _ _ | interrupt _ _ | finish _ _ _ | retry _ _ _ =>
      cases hafter
      exact ⟨rfl, rfl⟩
  | @release ending s _ _ _ =>
      rcases holder_afterRelease holder ending (w.withResource s) with hgone | ⟨wake, hpausing⟩
      · rw [hgone] at hafter
        cases hafter
      · rw [hpausing] at hafter
        cases hafter
        exact ⟨rfl, rfl⟩

theorem Informed.holderStep (h : Informed last w) (hholder : w.holder = some holder)
    (hstep : HolderStep r w holder event next) : Informed last next := by
  obtain ⟨hwaiting, hlive, hstarts⟩ := hstep.frame
  have hsame := hstep.same_run hholder
  refine ⟨?_, ?_, ?_, ?_⟩
  · rw [hwaiting, hlive]
    exact h.waiting
  · intro after hafter hrun
    obtain ⟨hnumber, hargs⟩ := hsame after hafter
    rw [hlive, hnumber] at hrun
    rw [hargs]
    exact h.holder holder hholder hrun
  · rw [hwaiting, hstarts]
    exact h.waiting_lt
  · intro after hafter
    rw [hstarts, (hsame after hafter).1]
    exact h.holder_lt holder hholder

/-- A start that succeeds makes all runs before it runs of the past. -/
theorem Informed.start (h : Informed last w) (args : α) :
    Informed (argsAfter last (.start args (w.start args).1.isOk)) (w.start args).2 := by
  unfold Watcher.start
  split
  · exact h
  · refine ⟨?_, ?_, ?_, ?_⟩
    · intro entry hentry hrun
      -- an older run has a smaller number, so it is not the live one
      rcases List.mem_append.mp hentry with hold | hnew
      · have hlt := h.waiting_lt entry hold
        exact absurd (Option.some.inj hrun) (by omega)
      · cases List.mem_singleton.mp hnew
        rfl
    · intro holder hholder hrun
      have hlt := h.holder_lt holder hholder
      exact absurd (Option.some.inj hrun) (by omega)
    · intro entry hentry
      rcases List.mem_append.mp hentry with hold | hnew
      · exact Nat.lt_succ_of_lt (h.waiting_lt entry hold)
      · cases List.mem_singleton.mp hnew
        exact Nat.lt_succ_self w.starts
    · intro holder hholder
      exact Nat.lt_succ_of_lt (h.holder_lt holder hholder)

theorem Informed.stop (h : Informed last w) : Informed last w.stop.2 := by
  unfold Watcher.stop
  split
  · exact h.congr (List.Subset.refl _) rfl (Or.inr rfl) rfl
  · exact h

theorem Informed.step (h : Informed last w) (hstep : Step r w label next) :
    Informed (argsAfter last label) next := by
  cases hstep with
  | start args => exact h.start args
  | stop => exact h.stop
  | requestCheck | note | surroundings | time =>
      exact h.congr (List.Subset.refl _) rfl (Or.inl rfl) rfl
  | say run ready =>
      refine h.congr ?_ (setState_holder _ _ _) (Or.inl (setState_live _ _ _))
        (setState_starts _ _ _)
      rw [setReady, setState_waiting]
      exact List.Subset.refl _
  | @giveUp earlier later run args hwaiting _ =>
      refine h.congr ?_ rfl (Or.inl rfl) rfl
      rw [hwaiting]
      simp
  | @turn earlier later run args hwaiting _ _ =>
      -- the run takes its arguments with it from the queue to its turn
      have hmem : (run, args) ∈ w.waiting := by
        rw [hwaiting]
        simp
      have hrest : earlier ++ later ⊆ w.waiting := by
        rw [hwaiting]
        simp
      refine ⟨?_, ?_, ?_, ?_⟩
      · intro entry hentry hrun
        exact h.waiting entry (hrest hentry) hrun
      · intro holder hholder hrun
        cases hholder
        exact h.waiting (run, args) hmem hrun
      · intro entry hentry
        exact h.waiting_lt entry (hrest hentry)
      · intro holder hholder
        cases hholder
        exact h.waiting_lt (run, args) hmem
  | holder hholder hmove => exact h.holderStep hholder (holderStep_of_holderMove? hmove)

/-- The run that attempts is live, and attempts with its own arguments. -/
theorem Step.attempted {run : ℕ} (hstep : Step r w (.move (.attempted run)) next)
    (h : Informed last w) :
    ∃ args, last = some args ∧ next.resource = r.enter .acquire run args w.now w.resource := by
  cases hstep with
  | @turn earlier later _ args hwaiting hlive _ =>
      have hmem : (run, args) ∈ w.waiting := by
        rw [hwaiting]
        simp
      have hrun : w.live = some run := by simpa [isCancelled] using hlive
      exact ⟨args, h.waiting (run, args) hmem hrun, rfl⟩
  | holder hholder hmove =>
      rename_i holder
      cases holderStep_of_holderMove? hmove with
      | retry hstage hlive hwake =>
          have hrun : w.live = some holder.run := by simpa [isCancelled] using hlive
          exact ⟨holder.args, h.holder holder hholder hrun, rfl⟩

end

/-! ## Rest -/

section

variable {r : Resource σ α} {w : Watcher σ α} {holder : Holder α}

/-- A handle that is held at a moment of rest is held for a reason: the run is live and drives the
resource, or the resource takes its time to be released. -/
inductive Justified (r : Resource σ α) (w : Watcher σ α) (holder : Holder α) : Prop where
  | drives : w.live = some holder.run →
      (∃ due, r.act .drive holder.args w.now w.permit w.resource = .wait due) →
        Justified r w holder
  | releases : (∃ due, r.act .release holder.args w.now w.permit w.resource = .wait due) →
      Justified r w holder

theorem holderMove?_of_rest (h : move? r w = none) (hholder : w.holder = some holder) :
    holderMove? r w holder = none := by
  unfold move? at h
  rw [hholder] at h
  split at h
  · split at h
    · cases h
    · exact h
  · exact h

theorem pursue_eq_none {task : Task} {go : Watcher σ α → Bool → Event × Watcher σ α}
    (h : pursue r w holder task go = none) :
    ∃ due, r.act task holder.args w.now w.permit w.resource = .wait due := by
  unfold pursue at h
  split at h
  · rename_i due hact
    exact ⟨due, hact⟩
  · cases h
  · cases h

theorem justified_of_rest (h : move? r w = none) (hholder : w.holder = some holder)
    (hhandle : handleOf w.holder ≠ []) : Justified r w holder := by
  have hmove := holderMove?_of_rest h hholder
  unfold holderMove? at hmove
  rw [hholder] at hhandle
  split at hmove
  · rename_i hstage
    simp [handleOf, hstage] at hhandle
  · split at hmove
    · cases hmove
    · rename_i hlive
      have hrun : w.live = some holder.run := by simpa [isCancelled] using hlive
      exact .drives hrun (pursue_eq_none hmove)
  · exact .releases (pursue_eq_none hmove)
  · rename_i wake hstage
    simp [handleOf, hstage] at hhandle

end

/-! ## Runs -/

section

variable {r : Resource σ α} {w last : Watcher σ α} {labels : List (Label α)}

/-- Complete cycles stay complete, and the open one grows or joins them. -/
theorem Continues.extend {before dealing after : List Event} (h : Continues before dealing after)
    {cycles : List (List Event)} (hcycles : ∀ cycle ∈ cycles, Cycle cycle) :
    ∃ cycles' : List (List Event), (∀ cycle ∈ cycles', Cycle cycle) ∧
      cycles.flatten ++ before ++ dealing = cycles'.flatten ++ after := by
  rcases h with rfl | ⟨hcycle, rfl⟩
  · exact ⟨cycles, hcycles, List.append_assoc _ _ _⟩
  · refine ⟨cycles ++ [before ++ dealing], ?_, by simp⟩
    intro cycle hmem
    rcases List.mem_append.mp hmem with hold | hnew
    · exact hcycles cycle hold
    · cases List.mem_singleton.mp hnew
      exact hcycle

theorem Run.cycles (hrun : Run r w labels last) (hfresh : w.Fresh) :
    ∃ cycles : List (List Event), (∀ cycle ∈ cycles, Cycle cycle) ∧
      dealings labels = cycles.flatten ++ openCycle last.holder := by
  induction hrun with
  | nil =>
      refine ⟨[], by simp, ?_⟩
      rw [hfresh.holder]
      rfl
  | snoc hrun hstep ih =>
      obtain ⟨cycles, hcycles, hdealings⟩ := ih
      obtain ⟨cycles', hcycles', hextend⟩ := hstep.continues.1.extend hcycles
      refine ⟨cycles', hcycles', ?_⟩
      rw [← hextend, ← hdealings]
      simp [dealings]

theorem Run.handles_eq (hrun : Run r w labels last) (hfresh : w.Fresh) :
    handles labels = handleOf last.holder := by
  induction hrun with
  | nil =>
      rw [hfresh.holder]
      rfl
  | snoc hrun hstep ih =>
      rw [hstep.continues.2, ← ih]
      simp [handles]

theorem Run.informed (hrun : Run r w labels last) (hfresh : w.Fresh) :
    Informed (lastArgs labels) last := by
  induction hrun with
  | nil =>
      refine ⟨?_, ?_, ?_, ?_⟩ <;> simp [hfresh.waiting, hfresh.holder]
  | snoc hrun hstep ih =>
      have hnext := ih.step hstep
      simpa [lastArgs] using hnext

theorem length_handleOf_le (holder : Option (Holder α)) : (handleOf holder).length ≤ 1 := by
  cases holder with
  | none => exact Nat.zero_le 1
  | some holder =>
      unfold handleOf
      dsimp only
      split <;> simp

/-- However a watcher is started and stopped, and whatever its resource does: at most one handle is
held at a time; the dealings with the resource are complete cycles, of which only the last one may
be open; every attempt has the arguments of the last successful start; and at rest a handle is held
only while the live run drives the resource or the resource takes its time to be released. -/
theorem Run.exclusive (hrun : Run r w labels last) (hfresh : w.Fresh) :
    (handles labels).length ≤ 1 ∧
      (∃ cycles : List (List Event), (∀ cycle ∈ cycles, Cycle cycle) ∧
        dealings labels = cycles.flatten ++ openCycle last.holder) ∧
      (∀ run next, Step r last (.move (.attempted run)) next →
        ∃ args, lastArgs labels = some args ∧
          next.resource = r.enter .acquire run args last.now last.resource) ∧
      (move? r last = none → ∀ holder, last.holder = some holder →
        handles labels ≠ [] → Justified r last holder) := by
  have hhandles := hrun.handles_eq hfresh
  refine ⟨?_, hrun.cycles hfresh, ?_, ?_⟩
  · rw [hhandles]
    exact length_handleOf_le last.holder
  · intro run next hstep
    exact hstep.attempted (hrun.informed hfresh)
  · intro hrest holder hholder hhandle
    rw [hhandles] at hhandle
    exact justified_of_rest hrest hholder hhandle

end

/-- A watcher over a resource whose release takes a second. -/
def slowWatcher : Watcher Script String where
  name := "slow"
  retry := 10
  resource := { plans := [{ releaseDelay := some 1000 }] }

/-- The watcher is started again while the resource is still released. -/
def restarted : List (Label String) :=
  [.start "a" true, .move (.attempted 0), .move (.acquired 0), .stop true, .start "b" true,
    .move (.ended 0 .interrupted)]

theorem Run.exclusive_restarted :
    ∃ last, Run (Script.resource true) slowWatcher restarted last ∧
      (handles restarted).length ≤ 1 ∧ handleOf last.holder = [0] ∧ last.live = some 1 := by
  have hfresh : slowWatcher.Fresh := ⟨rfl, rfl, rfl, rfl⟩
  have hstart := (Run.nil slowWatcher).snoc (Step.start (r := Script.resource true) slowWatcher "a")
  have hattempted := hstart.snoc (step_of_move? rfl)
  have hacquired := hattempted.snoc (step_of_move? rfl)
  have hstopped := hacquired.snoc (Step.stop _)
  have hagain := hstopped.snoc (Step.start _ "b")
  have hended := hagain.snoc (step_of_move? rfl)
  exact ⟨_, hended, (hended.exclusive hfresh).1, rfl, rfl⟩

end Watcher
end Uplink
