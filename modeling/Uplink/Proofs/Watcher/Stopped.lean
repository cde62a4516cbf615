import Uplink.Proofs.Watcher.Lifecycle

/-!
# Stopped watchers

Only its owner starts and stops a watcher.  While a watcher is stopped, each of its runs is one that
was stopped, and there is little left for such a run to do: it gives up, or it lets the resource go.
So what a stopped watcher does to its resource is the release, and nothing else.
-/

namespace Uplink
namespace Watcher

variable {σ α : Type}

/-- Whether the watcher is started is known to the runs as well. -/
def Tied (w : Watcher σ α) : Prop :=
  w.started = w.live.isSome

/-- What a resource that is let go goes through. -/
inductive LetGo (r : Resource σ α) (s : σ) : σ → Prop where
  | nothing : LetGo r s s
  | enter (run : ℕ) (args : α) (now : ℕ) : LetGo r s (r.enter .release run args now s)
  | work {args : α} {now : ℕ} {permit : Bool} {next : σ} {deed : Deed} :
      r.act .release args now permit s = .work next deed → LetGo r s next
  | finish {args : α} {now : ℕ} {permit : Bool} {next : σ} {success : Bool} :
      r.act .release args now permit s = .finish next success → LetGo r s next

section

variable {r : Resource σ α} {w next : Watcher σ α} {holder : Holder α} {event : Event}
  {label : Label α} {labels : List (Label α)}

theorem tied_start (h : w.Tied) (args : α) : (w.start args).2.Tied := by
  unfold Watcher.start
  split
  · exact h
  · rfl

theorem tied_stop (h : w.Tied) : w.stop.2.Tied := by
  unfold Watcher.stop
  split
  · rfl
  · exact h

theorem started_stop (w : Watcher σ α) : w.stop.2.started = false := by
  unfold Watcher.stop
  split
  · rfl
  · rename_i hstopped
    exact eq_false_of_ne_true hstopped

theorem resource_stop (w : Watcher σ α) : w.stop.2.resource = w.resource := by
  unfold Watcher.stop
  split <;> rfl

theorem ready_eq_false (h : w.started = false) : w.ready = false := by
  unfold started at h
  unfold ready
  cases hstate : w.state <;> simp_all [State.isStarted]

/-- No watcher is started or stopped but by its owner. -/
theorem Step.started_eq (h : Step r w label next) (hown : label.IsOwn) (htied : w.Tied) :
    next.live = w.live ∧ next.started = w.started := by
  cases h with
  | start | stop | say | surroundings => exact hown.elim
  | requestCheck | note | time | giveUp | turn => exact ⟨rfl, rfl⟩
  | holder _ hmove =>
      have hstep := holderStep_of_holderMove? hmove
      exact ⟨hstep.frame.2.1, hstep.started htied⟩

theorem Step.tied (h : Step r w label next) (hown : label.IsOwn) (htied : w.Tied) : next.Tied := by
  obtain ⟨hlive, hstarted⟩ := h.started_eq hown htied
  rw [Tied, hlive, hstarted]
  exact htied

/-- The runs of a stopped watcher are stopped. -/
theorem isCancelled_of_stopped (htied : w.Tied) (hstopped : w.started = false) (run : ℕ) :
    w.isCancelled run = true := by
  have hlive : w.live = none := by simpa [hstopped] using htied.symm
  simp [isCancelled, hlive]

/-- A run that was stopped does nothing to the resource but let it go. -/
theorem HolderStep.letGo (h : HolderStep r w holder event next)
    (hcancelled : w.isCancelled holder.run = true) : LetGo r w.resource next.resource := by
  cases h with
  | leave => exact .nothing
  | work _ htask hact =>
      obtain rfl := htask hcancelled
      rw [display_resource]
      exact .work hact
  | interrupt => exact .enter _ _ _
  | @release ending s _ _ hact =>
      have hresource : (afterRelease holder ending (w.withResource s)).2.resource = s := by
        cases ending with
        | interrupted => rfl
        | finished => exact setState_resource _ _ _
        | failed => exact setState_resource _ _ _
      rw [hresource]
      exact .finish hact
  | acquire _ hlive _ | refuse _ hlive _ | finish _ hlive _ | retry _ hlive _ =>
      rw [hcancelled] at hlive
      cases hlive

/-- A stopped watcher does nothing to the resource but let it go. -/
theorem Step.letGo (h : Step r w label next) (hown : label.IsOwn) (htied : w.Tied)
    (hstopped : w.started = false) : LetGo r w.resource next.resource := by
  have hcancelled := isCancelled_of_stopped htied hstopped
  cases h with
  | start | stop | say | surroundings => exact hown.elim
  | requestCheck | note | time | giveUp => exact .nothing
  | turn _ hlive _ =>
      rw [hcancelled] at hlive
      cases hlive
  | @holder _ holder _ _ hmove => exact (holderStep_of_holderMove? hmove).letGo (hcancelled _)

end
end Watcher
end Uplink
