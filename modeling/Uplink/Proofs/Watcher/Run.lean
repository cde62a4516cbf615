import Mathlib.Data.Nat.Notation
import Uplink.Watcher.Rest

/-!
# Runs of a watcher

A watcher is started and stopped by its owner, moves by itself, and works with a resource whose
state is also a matter of its surroundings.  What happens, one thing after another, is told by a
list of labels.

The moves of one moment may be made in any order that the runs allow: a run that was stopped may
give up waiting before or after the run that holds the resource moves.  The order chosen by `move?`
is one of them, so everything that is proved of all runs here holds of a watcher that is settled.
-/

namespace Uplink
namespace Watcher

variable {σ α : Type}

/-- What happens to a watcher: calls of its owner with their success, calls on behalf of a run,
changes around it, and its own moves. -/
inductive Label (α : Type) where
  | start (args : α) (success : Bool)
  | stop (success : Bool)
  | requestCheck
  | say (run : ℕ) (ready : Bool)
  | note (n : Note)
  | surroundings
  | time
  | move (event : Event)

/-- What happens to a watcher without its owner and without the surroundings of the resource. -/
def Label.IsOwn : Label α → Prop
  | .requestCheck | .note _ | .time | .move _ => True
  | _ => False

/-- One thing that may happen to a watcher. -/
inductive Step (r : Resource σ α) : Watcher σ α → Label α → Watcher σ α → Prop where
  | start (w : Watcher σ α) (args : α) :
      Step r w (.start args (w.start args).1.isOk) (w.start args).2
  | stop (w : Watcher σ α) : Step r w (.stop w.stop.1.isOk) w.stop.2
  | requestCheck (w : Watcher σ α) : Step r w .requestCheck w.requestCheck
  | say (w : Watcher σ α) (run : ℕ) (ready : Bool) :
      Step r w (.say run ready) (w.setReady run ready)
  | note (w : Watcher σ α) (n : Note) : Step r w (.note n) (w.note n)
  | surroundings (w : Watcher σ α) (resource : σ) : Step r w .surroundings (w.withResource resource)
  | time {w : Watcher σ α} {moment : ℕ} : w.now ≤ moment → Step r w .time { w with now := moment }
  | giveUp {w : Watcher σ α} {earlier later : List (ℕ × α)} {run : ℕ} {args : α} :
      w.waiting = earlier ++ (run, args) :: later → w.isCancelled run = true →
        Step r w (.move (.gaveUp run)) { w with waiting := earlier ++ later }
  | turn {w : Watcher σ α} {earlier later : List (ℕ × α)} {run : ℕ} {args : α} :
      w.waiting = earlier ++ (run, args) :: later → w.isCancelled run = false → w.holder = none →
        Step r w (.move (.attempted run))
          (enter r { w with waiting := earlier ++ later } ⟨run, args, .acquiring⟩ .acquire
            .acquiring)
  | holder {w next : Watcher σ α} {holder : Holder α} {event : Event} :
      w.holder = some holder → holderMove? r w holder = some (event, next) →
        Step r w (.move event) next

/-- A row of things that happen to a watcher. -/
inductive Run (r : Resource σ α) : Watcher σ α → List (Label α) → Watcher σ α → Prop where
  | nil (w : Watcher σ α) : Run r w [] w
  | snoc {first last next : Watcher σ α} {labels : List (Label α)} {label : Label α} :
      Run r first labels last → Step r last label next → Run r first (labels ++ [label]) next

/-- A watcher that was never started. -/
structure Fresh (w : Watcher σ α) : Prop where
  state : w.state = .idle
  live : w.live = none
  holder : w.holder = none
  waiting : w.waiting = []

/-! ## What a move of the holder does -/

section

variable (w : Watcher σ α) (run : ℕ) (state : State) (ready : Bool) (deed : Deed)

theorem setState_live : (w.setState run state).live = w.live := by
  unfold setState
  split <;> rfl

theorem setState_starts : (w.setState run state).starts = w.starts := by
  unfold setState
  split <;> rfl

theorem display_live : (w.display run deed).live = w.live := by
  unfold display
  dsimp only
  split <;> simp [setReady, setState_live]

theorem display_starts : (w.display run deed).starts = w.starts := by
  unfold display
  dsimp only
  split <;> simp [setReady, setState_starts]

theorem setState_notes : (w.setState run state).notes = w.notes := by
  unfold setState
  split <;> rfl

theorem display_notes : (w.display run deed).notes = w.notes.publishAll deed.notes := by
  unfold display
  dsimp only
  split <;> simp [setReady, setState_notes]

end

/-- What the resource is asked to do at a stage. -/
def Stage.task? : Stage → Option Task
  | acquiring => some .acquire
  | driving => some .drive
  | releasing _ => some .release
  | pausing _ => none

/-- A move of the holder, with what it needs and what it leads to. -/
inductive HolderStep (r : Resource σ α) (w : Watcher σ α) (holder : Holder α) :
    Event → Watcher σ α → Prop where
  | leave : w.isCancelled holder.run = true →
      (holder.stage = .acquiring ∨ ∃ wake, holder.stage = .pausing wake) →
        HolderStep r w holder (.left holder.run) { w with holder := none }
  | work {task : Task} {next : σ} {deed : Deed} : holder.stage.task? = some task →
      (w.isCancelled holder.run = true → task = .release) →
      r.act task holder.args w.now w.permit w.resource = .work next deed →
        HolderStep r w holder (.worked holder.run) ((w.withResource next).display holder.run deed)
  | acquire {next : σ} : holder.stage = .acquiring → w.isCancelled holder.run = false →
      r.act .acquire holder.args w.now w.permit w.resource = .finish next true →
        HolderStep r w holder (.acquired holder.run)
          (afterAcquire r holder (w.withResource next) true).2
  | refuse {next : σ} : holder.stage = .acquiring → w.isCancelled holder.run = false →
      r.act .acquire holder.args w.now w.permit w.resource = .finish next false →
        HolderStep r w holder (.refused holder.run)
          (afterAcquire r holder (w.withResource next) false).2
  | interrupt : holder.stage = .driving → w.isCancelled holder.run = true →
      HolderStep r w holder (.ended holder.run .interrupted)
        (afterDrive r holder w .interrupted).2
  | finish {next : σ} {success : Bool} : holder.stage = .driving →
      w.isCancelled holder.run = false →
      r.act .drive holder.args w.now w.permit w.resource = .finish next success →
        HolderStep r w holder (.ended holder.run (if success then .finished else .failed))
          (afterDrive r holder (w.withResource next) (if success then .finished else .failed)).2
  | release {ending : Ending} {next : σ} {success : Bool} : holder.stage = .releasing ending →
      r.act .release holder.args w.now w.permit w.resource = .finish next success →
        HolderStep r w holder (.released holder.run ending)
          (afterRelease holder ending (w.withResource next)).2
  | retry {wake : ℕ} : holder.stage = .pausing wake → w.isCancelled holder.run = false →
      wake ≤ w.now →
        HolderStep r w holder (.attempted holder.run) (enter r w holder .acquire .acquiring)

section

variable {r : Resource σ α} {w next : Watcher σ α} {holder : Holder α} {event : Event}

theorem pursue_cases {task : Task} {go : Watcher σ α → Bool → Event × Watcher σ α}
    (h : pursue r w holder task go = some (event, next)) (htask : holder.stage.task? = some task)
    (hlive : w.isCancelled holder.run = true → task = .release) :
    HolderStep r w holder event next ∨
      ∃ s success, r.act task holder.args w.now w.permit w.resource = .finish s success ∧
        go (w.withResource s) success = (event, next) := by
  unfold pursue at h
  split at h
  · cases h
  · rename_i s deed hact
    cases h
    exact Or.inl (.work htask hlive hact)
  · rename_i s success hact
    exact Or.inr ⟨s, success, hact, Option.some.inj h⟩

/-- The moves of the holder are the ones listed. -/
theorem holderStep_of_holderMove? (h : holderMove? r w holder = some (event, next)) :
    HolderStep r w holder event next := by
  -- a run that was stopped has one move at each stage, but for the release, which goes on
  unfold holderMove? at h
  split at h
  · rename_i hstage
    split at h
    · rename_i hcancelled
      cases h
      exact .leave hcancelled (Or.inl hstage)
    · rename_i hlive
      have htask : holder.stage.task? = some .acquire := by rw [hstage, Stage.task?]
      rcases pursue_cases h htask (absurd · hlive) with hwork | ⟨s, success, hact, hgo⟩
      · exact hwork
      · cases success with
        | true =>
            cases hgo
            exact .acquire hstage (eq_false_of_ne_true hlive) hact
        | false =>
            cases hgo
            exact .refuse hstage (eq_false_of_ne_true hlive) hact
  · rename_i hstage
    split at h
    · rename_i hcancelled
      cases h
      exact .interrupt hstage hcancelled
    · rename_i hlive
      have htask : holder.stage.task? = some .drive := by rw [hstage, Stage.task?]
      rcases pursue_cases h htask (absurd · hlive) with hwork | ⟨s, success, hact, hgo⟩
      · exact hwork
      · cases hgo
        exact .finish hstage (eq_false_of_ne_true hlive) hact
  · rename_i ending hstage
    have htask : holder.stage.task? = some .release := by rw [hstage, Stage.task?]
    rcases pursue_cases h htask (fun _ => rfl) with hwork | ⟨s, success, hact, hgo⟩
    · exact hwork
    · cases hgo
      exact .release hstage hact
  · rename_i wake hstage
    split at h
    · rename_i hcancelled
      cases h
      exact .leave hcancelled (Or.inr ⟨wake, hstage⟩)
    · rename_i hlive
      split at h
      · rename_i hwake
        cases h
        exact .retry hstage (eq_false_of_ne_true hlive) hwake
      · cases h

/-- A move of the holder concerns neither the other runs nor which run is live. -/
theorem HolderStep.frame (h : HolderStep r w holder event next) :
    next.waiting = w.waiting ∧ next.live = w.live ∧ next.starts = w.starts := by
  cases h with
  | leave | interrupt | finish | retry => exact ⟨rfl, rfl, rfl⟩
  | work _ _ _ =>
      exact ⟨display_waiting _ _ _, display_live _ _ _, display_starts _ _ _⟩
  | acquire _ _ _ =>
      rw [afterAcquire, if_pos rfl]
      dsimp only
      split
      · exact ⟨setState_waiting _ _ _, setState_live _ _ _, setState_starts _ _ _⟩
      · exact ⟨rfl, rfl, rfl⟩
  | refuse _ _ _ => exact ⟨setState_waiting _ _ _, setState_live _ _ _, setState_starts _ _ _⟩
  | @release ending _ _ _ _ =>
      cases ending with
      | interrupted => exact ⟨rfl, rfl, rfl⟩
      | finished => exact ⟨setState_waiting _ _ _, setState_live _ _ _, setState_starts _ _ _⟩
      | failed => exact ⟨setState_waiting _ _ _, setState_live _ _ _, setState_starts _ _ _⟩

end

/-! ## Runs and moments of rest -/

section

variable {r : Resource σ α}

theorem Run.trans {first middle last : Watcher σ α} {labels labels' : List (Label α)}
    (h : Run r first labels middle) (h' : Run r middle labels' last) :
    Run r first (labels ++ labels') last := by
  induction h' with
  | nil => simpa using h
  | snoc _ hstep ih =>
      rw [← List.append_assoc]
      exact .snoc ih hstep

theorem Run.single {w next : Watcher σ α} {label : Label α} (h : Step r w label next) :
    Run r w [label] next :=
  .snoc (.nil w) h

/-- The move that is chosen may be made. -/
theorem step_of_move? {w next : Watcher σ α} {event : Event}
    (h : move? r w = some (event, next)) : Step r w (.move event) next := by
  unfold move? at h
  split at h
  · rename_i run args rest hwaiting
    split at h
    · rename_i hcancelled
      cases h
      exact .giveUp (hwaiting.trans (List.nil_append _).symm) hcancelled
    · rename_i hlive
      split at h
      · rename_i hholder
        cases h
        exact .turn (hwaiting.trans (List.nil_append _).symm) (eq_false_of_ne_true hlive) hholder
      · rename_i holder hholder
        exact .holder hholder h
  · split at h
    · cases h
    · rename_i holder hholder
      exact .holder hholder h

/-- Settling is a run of moves. -/
theorem exists_run_settle (w : Watcher σ α) :
    ∃ labels, Run r w labels (w.settle r) ∧ ∀ label ∈ labels, label.IsOwn := by
  fun_induction settle r w with
  | case1 w move h _ _ ih =>
      obtain ⟨labels, hrun, hown⟩ := ih
      refine ⟨_, (Run.single (step_of_move? h)).trans hrun, ?_⟩
      intro label hlabel
      rcases List.mem_cons.mp hlabel with rfl | hlabel
      · trivial
      · exact hown label hlabel
  | case2 w move h _ => exact ⟨_, Run.single (step_of_move? h), by simp [Label.IsOwn]⟩
  | case3 w h => exact ⟨[], .nil w, by simp⟩

/-- Letting time pass is a run of moves. -/
theorem exists_run_advanceUntil (found : Watcher σ α → Bool) (limit : ℕ) (w : Watcher σ α) :
    ∃ labels, Run r w labels (w.advanceUntil r found limit).2 ∧ ∀ label ∈ labels, label.IsOwn := by
  fun_induction advanceUntil r found limit w with
  | case1 w hfound => exact ⟨[], .nil w, by simp⟩
  | case2 w hfound moment hmoment _ ih =>
      obtain ⟨later, hlater, hlaterOwn⟩ := ih
      obtain ⟨moves, hmoves, hmovesOwn⟩ := exists_run_settle (r := r) { w with now := moment }
      have htime : Step r w .time { w with now := moment } :=
        .time (Nat.le_of_lt (nextMoment?_bounds hmoment).1)
      refine ⟨_, ((Run.single htime).trans hmoves).trans hlater, ?_⟩
      intro label hlabel
      rcases List.mem_append.mp hlabel with hlabel | hlabel
      · rcases List.mem_cons.mp hlabel with rfl | hlabel
        · trivial
        · exact hmovesOwn label hlabel
      · exact hlaterOwn label hlabel
  | case3 w hfound hmoment =>
      refine ⟨[.time], Run.single (.time (Nat.le_max_left w.now limit)), ?_⟩
      simp [Label.IsOwn]

end
end Watcher
end Uplink
