import Mathlib.Data.List.Nodup
import Mathlib.Tactic.ByContra
import Uplink.Proofs.Watcher.Run
import Uplink.Watcher.Scripted

/-!
# The life of a watcher

Each start issues a token to its run, and a stop cancels the token that the watcher keeps.  The state
that observers see is set from two sides: by the owner, and on behalf of runs, of which there may be
any number.  This module ties the two together: the watcher is started if and only if one of the runs
that are there has a token that was not cancelled, and only that run has a say in the state.
-/

namespace Uplink
namespace Watcher

variable {σ α : Type}

/-! ## Runs and their tokens -/

/-- The run that makes a move. -/
def Event.run : Event → ℕ
  | gaveUp run | attempted run | acquired run | refused run | left run | worked run => run
  | ended run _ | released run _ => run

/-- The run on whose behalf something happens. -/
def Label.run? : Label α → Option ℕ
  | .say run _ => some run
  | .move event => some event.run
  | _ => none

/-- The runs that are there: the one whose turn it is, and those that wait for theirs. -/
def present (w : Watcher σ α) : List ℕ :=
  (w.holder.map Holder.run).toList ++ w.waiting.map Prod.fst

/-- The tokens by which runs are cancelled. -/
structure Tokens where
  /-- The number of the next token. -/
  fresh : ℕ
  /-- The token that the watcher keeps. -/
  kept : Option ℕ := none
  /-- The tokens that were cancelled. -/
  cancelled : List ℕ := []

/-- A start that succeeds issues a token and keeps it; a stop that succeeds cancels the token that is
kept. -/
def Tokens.after (tokens : Tokens) : Label α → Tokens
  | .start _ true => { tokens with fresh := tokens.fresh + 1, kept := some tokens.fresh }
  | .stop true => { tokens with kept := none, cancelled := tokens.kept.toList ++ tokens.cancelled }
  | _ => tokens

/-- The tokens after a row of things that happened to a watcher. -/
def tokensOf (first : Watcher σ α) (labels : List (Label α)) : Tokens :=
  labels.foldl Tokens.after { fresh := first.starts }

/-- The runs that are there and whose tokens were not cancelled. -/
def uncancelled (tokens : Tokens) (w : Watcher σ α) : List ℕ :=
  w.present.filter fun run => run ∉ tokens.cancelled

/-! ## Who has a say in the state -/

section

variable {r : Resource σ α} {w next : Watcher σ α} {holder : Holder α} {event : Event}
  {label : Label α} {run : ℕ}

theorem isCancelled_iff : w.isCancelled run = true ↔ w.live ≠ some run := by
  rw [isCancelled, decide_eq_true_iff]

theorem live_of_not_isCancelled (h : w.isCancelled run = false) : w.live = some run := by
  simpa [isCancelled] using h

theorem setState_of_isCancelled (h : w.isCancelled run = true) (state : State) :
    w.setState run state = w := by
  rw [setState, h]
  rfl

theorem setState_state_of_isCancelled (h : w.isCancelled run = true) (state : State) :
    (w.setState run state).state = w.state := by
  rw [setState_of_isCancelled h]

theorem display_state_of_isCancelled (h : w.isCancelled run = true) (deed : Deed) :
    (w.display run deed).state = w.state := by
  unfold display
  dsimp only
  split
  · exact setState_state_of_isCancelled (w := { w with
      permit := w.permit && !deed.usesPermit, notes := w.notes.publishAll deed.notes }) h _
  · rfl

/-- A move of the holder sets the state only if the holder was not stopped. -/
theorem HolderStep.state_of_isCancelled (h : HolderStep r w holder event next)
    (hcancelled : w.isCancelled holder.run = true) : next.state = w.state := by
  cases h with
  | leave | interrupt | retry => rfl
  | @work _ s _ _ _ _ => exact display_state_of_isCancelled (w := w.withResource s) hcancelled _
  | acquire _ hlive _ | refuse _ hlive _ | finish _ hlive _ =>
      rw [hcancelled] at hlive
      cases hlive
  | @release ending s _ _ _ =>
      cases ending with
      | interrupted => rfl
      | finished =>
          exact setState_state_of_isCancelled (w := w.withResource s) hcancelled .retrying
      | failed =>
          exact setState_state_of_isCancelled (w := (w.withResource s).note .error) hcancelled _

theorem HolderStep.event_run (h : HolderStep r w holder event next) : event.run = holder.run := by
  cases h <;> rfl

/-- The state is set by an owner whose call succeeds, or on behalf of the live run. -/
theorem Step.state_eq_or (h : Step r w label next) :
    next.state = w.state ∨ (∃ args, label = .start args true) ∨ label = .stop true ∨
      ∃ run, label.run? = some run ∧ w.live = some run := by
  cases h with
  | start args =>
      unfold Watcher.start
      split
      · exact .inl rfl
      · exact .inr (.inl ⟨args, rfl⟩)
  | stop =>
      unfold Watcher.stop
      split
      · exact .inr (.inr (.inl rfl))
      · exact .inl rfl
  | requestCheck | note | surroundings | time | giveUp | turn => exact .inl rfl
  | say run ready =>
      cases hcancelled : w.isCancelled run with
      | true =>
          rw [setReady, setState_of_isCancelled hcancelled]
          exact .inl rfl
      | false => exact .inr (.inr (.inr ⟨run, rfl, live_of_not_isCancelled hcancelled⟩))
  | @holder _ holder _ _ hmove =>
      have hstep := holderStep_of_holderMove? hmove
      cases hcancelled : w.isCancelled holder.run with
      | true => exact .inl (hstep.state_of_isCancelled hcancelled)
      | false =>
          refine .inr (.inr (.inr ⟨holder.run, ?_, live_of_not_isCancelled hcancelled⟩))
          exact congrArg some hstep.event_run

/-! ## Started and live -/

/-- On behalf of a live run the state is only set to one of a started watcher. -/
theorem started_setState {state : State} (hstate : state.isStarted = true)
    (h : w.started = w.live.isSome) : (w.setState run state).started = w.started := by
  unfold setState
  split
  · rfl
  · rename_i hset
    have hlive : w.isCancelled run = false := by
      cases hcancelled : w.isCancelled run with
      | true => simp [hcancelled] at hset
      | false => rfl
    rw [h, live_of_not_isCancelled hlive]
    exact hstate

theorem started_setReady (ready : Bool) (h : w.started = w.live.isSome) :
    (w.setReady run ready).started = w.started := by
  refine started_setState ?_ h
  cases ready <;> rfl

theorem started_display (deed : Deed) (h : w.started = w.live.isSome) :
    (w.display run deed).started = w.started := by
  unfold display
  dsimp only
  split
  · exact started_setReady (w := { w with
      permit := w.permit && !deed.usesPermit, notes := w.notes.publishAll deed.notes }) _ h
  · rfl

theorem HolderStep.started (h : HolderStep r w holder event next)
    (hstarted : w.started = w.live.isSome) : next.started = w.started := by
  cases h with
  | leave | interrupt | finish | retry => rfl
  | @work _ s _ _ _ _ => exact started_display (w := w.withResource s) _ hstarted
  | @acquire s _ _ _ =>
      rw [afterAcquire, if_pos rfl]
      dsimp only
      split
      · exact started_setReady (w := w.withResource s) true hstarted
      · rfl
  | @refuse s _ _ _ => exact started_setState (w := w.withResource s) rfl hstarted
  | @release ending s _ _ _ =>
      cases ending with
      | interrupted => rfl
      | finished => exact started_setReady (w := w.withResource s) false hstarted
      | failed => exact started_setReady (w := (w.withResource s).note .error) false hstarted

/-! ## Which runs are there -/

/-- A move of the holder takes no run away but one that was stopped. -/
theorem HolderStep.present (h : HolderStep r w holder event next)
    (hholder : w.holder = some holder)
    (hinterrupted : holder.stage = .releasing .interrupted → w.isCancelled holder.run = true) :
    next.present = w.present ∨
      w.isCancelled holder.run = true ∧ w.present = holder.run :: next.present := by
  have hwaiting := h.frame.1
  unfold Watcher.present
  rw [hwaiting, hholder]
  cases h with
  | leave hcancelled _ => exact .inr ⟨hcancelled, rfl⟩
  | work _ _ _ =>
      rw [display_holder, withResource, hholder]
      exact .inl rfl
  | acquire | refuse | interrupt | finish | retry => exact .inl rfl
  | @release ending _ _ hstage _ =>
      cases ending with
      | interrupted => exact .inr ⟨hinterrupted hstage, rfl⟩
      | finished | failed => exact .inl rfl

/-- What is so of the runs of a watcher: the live one is there and there once, no number is used
again, the state tells whether there is a live run, and the tokens that were cancelled are those of
the other runs. -/
structure Orderly (tokens : Tokens) (w : Watcher σ α) : Prop where
  fresh : tokens.fresh = w.starts
  kept : tokens.kept = w.live
  started : w.started = w.live.isSome
  live : ∀ run, w.live = some run → run ∈ w.present
  nodup : w.present.Nodup
  lt : ∀ run ∈ w.present, run < w.starts
  cancelled : ∀ run ∈ w.present, run ∈ tokens.cancelled ↔ w.isCancelled run = true
  cancelled_lt : ∀ run ∈ tokens.cancelled, run < w.starts
  interrupted : ∀ holder, w.holder = some holder → holder.stage = .releasing .interrupted →
    w.isCancelled holder.run = true

namespace Orderly

variable {tokens : Tokens}

theorem of_fresh (h : w.Fresh) : Orderly { fresh := w.starts } w where
  fresh := rfl
  kept := h.live.symm
  started := by
    rw [h.live, Watcher.started, h.state]
    rfl
  live := by simp [h.live]
  nodup := by simp [present, h.holder, h.waiting]
  lt := by simp [present, h.holder, h.waiting]
  cancelled := by simp [present, h.holder, h.waiting]
  cancelled_lt := by simp
  interrupted := by simp [h.holder]

/-- Without a call of the owner, runs only go away, and only if they were stopped. -/
theorem of_removed (h : Orderly tokens w) (removed : List ℕ) (hlive : next.live = w.live)
    (hstarts : next.starts = w.starts) (hstarted : next.started = w.started)
    (hinterrupted : ∀ holder, next.holder = some holder →
      holder.stage = .releasing .interrupted → w.isCancelled holder.run = true)
    (hpresent : w.present.Perm (removed ++ next.present))
    (hremoved : ∀ run ∈ removed, w.isCancelled run = true) : Orderly tokens next := by
  have hsame : ∀ run, next.isCancelled run = w.isCancelled run := by
    intro run
    rw [isCancelled, isCancelled, hlive]
  have hmem : ∀ run ∈ next.present, run ∈ w.present := by
    intro run hrun
    exact hpresent.mem_iff.mpr (List.mem_append_right removed hrun)
  constructor
  case fresh => exact hstarts ▸ h.fresh
  case kept => exact hlive ▸ h.kept
  case started =>
    rw [hstarted, hlive]
    exact h.started
  case live =>
    intro run hrun
    rw [hlive] at hrun
    rcases List.mem_append.mp (hpresent.mem_iff.mp (h.live run hrun)) with hgone | hthere
    · exact absurd hrun (isCancelled_iff.mp (hremoved run hgone))
    · exact hthere
  case nodup => exact (List.nodup_append.mp (hpresent.nodup_iff.mp h.nodup)).2.1
  case lt =>
    intro run hrun
    rw [hstarts]
    exact h.lt run (hmem run hrun)
  case cancelled =>
    intro run hrun
    rw [hsame]
    exact h.cancelled run (hmem run hrun)
  case cancelled_lt => exact hstarts ▸ h.cancelled_lt
  case interrupted =>
    intro holder hholder hstage
    rw [hsame]
    exact hinterrupted holder hholder hstage

theorem of_same (h : Orderly tokens w) (hlive : next.live = w.live)
    (hstarts : next.starts = w.starts) (hstarted : next.started = w.started)
    (hholder : next.holder = w.holder) (hwaiting : next.waiting = w.waiting) :
    Orderly tokens next := by
  refine h.of_removed [] hlive hstarts hstarted ?_ ?_ (by simp)
  · rw [hholder]
    exact h.interrupted
  · rw [List.nil_append, present, present, hholder, hwaiting]

/-- A start makes the new run the live one, and there was none before. -/
theorem start (h : Orderly tokens w) (args : α) :
    Orderly (tokens.after (.start args (w.start args).1.isOk)) (w.start args).2 := by
  unfold Watcher.start
  split
  · exact h
  · rename_i hidle
    have hnone : w.live = none := by simpa [h.started] using hidle
    have hold : ∀ run, w.isCancelled run = true := by
      intro run
      simp [isCancelled, hnone]
    have hpresent : ({ w with
        state := .starting, changed := true, starts := w.starts + 1, live := some w.starts,
        waiting := w.waiting ++ [(w.starts, args)] } : Watcher σ α).present =
          w.present ++ [w.starts] := by
      simp [present]
    constructor
    case fresh => exact congrArg (· + 1) h.fresh
    case kept => exact congrArg some h.fresh
    case started => rfl
    case live =>
      intro run hrun
      cases hrun
      rw [hpresent]
      simp
    case nodup =>
      rw [hpresent]
      refine List.nodup_append.mpr ⟨h.nodup, List.nodup_singleton _, ?_⟩
      intro run hrun other hother
      cases List.mem_singleton.mp hother
      exact Nat.ne_of_lt (h.lt run hrun)
    case lt =>
      rw [hpresent]
      intro run hrun
      rcases List.mem_append.mp hrun with hrun | hrun
      · exact Nat.lt_succ_of_lt (h.lt run hrun)
      · cases List.mem_singleton.mp hrun
        exact Nat.lt_succ_self _
    case cancelled =>
      -- the new token was not cancelled, because it is new
      rw [hpresent]
      intro run hrun
      rcases List.mem_append.mp hrun with hrun | hrun
      · have hlt := h.lt run hrun
        have hgone : run ∈ tokens.cancelled := (h.cancelled run hrun).mpr (hold run)
        have hne : w.starts ≠ run := by omega
        change run ∈ tokens.cancelled ↔ _
        simpa [isCancelled, hne] using hgone
      · cases List.mem_singleton.mp hrun
        have hnew : w.starts ∉ tokens.cancelled := by
          intro hmem
          exact Nat.lt_irrefl _ (h.cancelled_lt w.starts hmem)
        change w.starts ∈ tokens.cancelled ↔ _
        simpa [isCancelled] using hnew
    case cancelled_lt =>
      intro run hrun
      exact Nat.lt_succ_of_lt (h.cancelled_lt run hrun)
    case interrupted =>
      intro holder hholder _
      have hthere : holder.run ∈ w.present := by simp [present, show w.holder = _ from hholder]
      have hne : w.starts ≠ holder.run := Nat.ne_of_gt (h.lt _ hthere)
      simpa [isCancelled] using hne

/-- A stop cancels the token of the live run. -/
theorem stop (h : Orderly tokens w) :
    Orderly (tokens.after (α := α) (.stop w.stop.1.isOk)) w.stop.2 := by
  unfold Watcher.stop
  split
  · constructor
    case fresh => exact h.fresh
    case kept => rfl
    case started => rfl
    case live =>
      intro run hrun
      cases hrun
    case nodup => exact h.nodup
    case lt => exact h.lt
    case cancelled =>
      intro run hrun
      have hmem : run ∈ tokens.kept.toList ++ tokens.cancelled := by
        rw [List.mem_append, h.kept, Option.mem_toList, h.cancelled run hrun, isCancelled_iff]
        exact eq_or_ne _ _
      exact iff_of_true hmem rfl
    case cancelled_lt =>
      intro run hrun
      rcases List.mem_append.mp hrun with hrun | hrun
      · rw [h.kept, Option.mem_toList] at hrun
        exact h.lt run (h.live run hrun)
      · exact h.cancelled_lt run hrun
    case interrupted =>
      intro holder _ _
      rfl
  · exact h

/-- A holder that releases because it was stopped was stopped. -/
theorem interrupted_holderStep (h : Orderly tokens w) (hstep : HolderStep r w holder event next) :
    ∀ after, next.holder = some after → after.stage = .releasing .interrupted →
      w.isCancelled after.run = true := by
  intro after hafter hstage
  cases hstep with
  | leave _ _ => cases hafter
  | work _ _ _ =>
      rw [display_holder] at hafter
      exact h.interrupted after hafter hstage
  | acquire _ _ _ =>
      rw [afterAcquire, if_pos rfl] at hafter
      cases hafter
      cases hstage
  | refuse _ _ _ =>
      cases hafter
      cases hstage
  | interrupt _ hcancelled =>
      cases hafter
      exact hcancelled
  | @finish _ success _ _ _ =>
      cases hafter
      cases success <;> cases hstage
  | @release ending _ _ _ _ =>
      cases ending with
      | interrupted => cases hafter
      | finished | failed =>
          cases hafter
          cases hstage
  | retry _ _ _ =>
      cases hafter
      cases hstage

theorem holderStep (h : Orderly tokens w) (hholder : w.holder = some holder)
    (hstep : HolderStep r w holder event next) : Orderly tokens next := by
  obtain ⟨-, hlive, hstarts⟩ := hstep.frame
  have hstarted := hstep.started h.started
  have hinterrupted := h.interrupted_holderStep hstep
  rcases hstep.present hholder (h.interrupted holder hholder) with hsame | ⟨hcancelled, hgone⟩
  · refine h.of_removed [] hlive hstarts hstarted hinterrupted ?_ (by simp)
    rw [List.nil_append, hsame]
  · refine h.of_removed [holder.run] hlive hstarts hstarted hinterrupted ?_ ?_
    · rw [hgone]
      exact .refl _
    · intro run hrun
      cases List.mem_singleton.mp hrun
      exact hcancelled

theorem step (h : Orderly tokens w) (hstep : Step r w label next) :
    Orderly (tokens.after label) next := by
  cases hstep with
  | start args => exact h.start args
  | stop => exact h.stop
  | requestCheck | note | surroundings | time => exact h.of_same rfl rfl rfl rfl rfl
  | say run ready =>
      exact h.of_same (setState_live ..) (setState_starts ..) (started_setReady ready h.started)
        (setState_holder ..) (setState_waiting ..)
  | @giveUp earlier later run args hwaiting hcancelled =>
      refine h.of_removed [run] rfl rfl rfl h.interrupted ?_ ?_
      · simp only [present, hwaiting, List.map_append, List.map_cons, ← List.append_assoc]
        exact List.perm_middle
      · intro other hother
        cases List.mem_singleton.mp hother
        exact hcancelled
  | @turn earlier later run args hwaiting hlive hholder =>
      refine h.of_removed [] rfl rfl rfl ?_ ?_ (by simp)
      · intro holder hsome hstage
        cases hsome
        cases hstage
      · simp only [present, hwaiting, hholder, enter, List.map_append, List.map_cons]
        exact List.perm_middle
  | holder hholder hmove => exact h.holderStep hholder (holderStep_of_holderMove? hmove)

/-- The runs whose tokens were not cancelled are the live one. -/
theorem uncancelled_eq (h : Orderly tokens w) : uncancelled tokens w = w.live.toList := by
  have hfilter : uncancelled tokens w = w.present.filter fun run => w.live = some run := by
    refine List.filter_congr fun run hrun => ?_
    rw [decide_eq_decide, h.cancelled run hrun, isCancelled_iff, not_not]
  rw [hfilter]
  cases hlive : w.live with
  | none => simp
  | some run =>
      have hcount := List.count_eq_one_of_mem h.nodup (h.live run hlive)
      have hreplicate := List.filter_eq (l := w.present) run
      rw [hcount] at hreplicate
      simpa [eq_comm] using hreplicate

/-- The watcher is started if and only if one run is there whose token was not cancelled. -/
theorem started_iff (h : Orderly tokens w) :
    w.started = true ↔ ∃ run, uncancelled tokens w = [run] := by
  rw [h.uncancelled_eq, h.started]
  cases w.live <;> simp

end Orderly

/-! ## After a stop -/

/-- A run becomes live only by the start that numbers it. -/
theorem Step.live_eq_or (h : Step r w label next) :
    w.starts ≤ next.starts ∧
      (next.live = w.live ∨ next.live = none ∨ next.live = some w.starts) := by
  cases h with
  | start args =>
      unfold Watcher.start
      split
      · exact ⟨Nat.le_refl _, .inl rfl⟩
      · exact ⟨Nat.le_succ _, .inr (.inr rfl)⟩
  | stop =>
      unfold Watcher.stop
      split
      · exact ⟨Nat.le_refl _, .inr (.inl rfl)⟩
      · exact ⟨Nat.le_refl _, .inl rfl⟩
  | requestCheck | note | surroundings | time | giveUp | turn => exact ⟨Nat.le_refl _, .inl rfl⟩
  | say run ready => exact ⟨Nat.le_of_eq (setState_starts ..).symm, .inl (setState_live ..)⟩
  | holder _ hmove =>
      obtain ⟨-, hlive, hstarts⟩ := (holderStep_of_holderMove? hmove).frame
      exact ⟨Nat.le_of_eq hstarts.symm, .inl hlive⟩

/-- Where no run below a number is live, none will be. -/
theorem Run.le_of_live {first last : Watcher σ α} {labels : List (Label α)}
    (hrun : Run r first labels last) (number : ℕ) (hstarts : number ≤ first.starts)
    (hfirst : ∀ run, first.live = some run → number ≤ run) :
    number ≤ last.starts ∧ ∀ run, last.live = some run → number ≤ run := by
  induction hrun with
  | nil => exact ⟨hstarts, hfirst⟩
  | snoc _ hstep ih =>
      obtain ⟨hle, hlive⟩ := ih
      obtain ⟨hmore, hnext⟩ := hstep.live_eq_or
      refine ⟨Nat.le_trans hle hmore, ?_⟩
      intro run hrun
      rcases hnext with hsame | hnone | hnew
      · exact hlive run (hsame ▸ hrun)
      · rw [hnone] at hrun
        cases hrun
      · rw [hnew] at hrun
        cases hrun
        exact hle

theorem Run.orderly {first last : Watcher σ α} {labels : List (Label α)}
    (hrun : Run r first labels last) (hfresh : first.Fresh) :
    Orderly (tokensOf first labels) last := by
  induction hrun with
  | nil => exact .of_fresh hfresh
  | snoc _ hstep ih =>
      have hnext := ih.step hstep
      simpa [tokensOf] using hnext

/-- What a call of the owner answers depends on the state alone. -/
theorem start_eq_error_iff (w : Watcher σ α) (args : α) :
    w.start args = (.error (.alreadyStarted w.name), w) ↔
      w.state = .starting ∨ w.state = .retrying ∨ w.state = .ready := by
  unfold Watcher.start Watcher.started
  cases w.state <;> simp [State.isStarted]

theorem start_eq_ok_iff (w : Watcher σ α) (args : α) :
    (w.start args).1 = .ok () ↔ w.state = .idle ∨ w.state = .stopped := by
  unfold Watcher.start Watcher.started
  cases w.state <;> simp [State.isStarted]

theorem stop_eq_error_iff (w : Watcher σ α) :
    w.stop = (.error (.notStarted w.name), w) ↔ w.state = .idle ∨ w.state = .stopped := by
  unfold Watcher.stop Watcher.started
  cases w.state <;> simp [State.isStarted]

theorem stop_eq_ok_iff (w : Watcher σ α) :
    w.stop.1 = .ok () ↔ w.state = .starting ∨ w.state = .retrying ∨ w.state = .ready := by
  unfold Watcher.stop Watcher.started
  cases w.state <;> simp [State.isStarted]

/-- Whatever has happened to a watcher: a start or a stop succeeds, or it fails and changes nothing,
and the state tells which; the watcher is started if and only if exactly one run is there whose token
was not cancelled; and after a stop the state is only ever set by the owner or on behalf of a run
that was started later. -/
theorem Run.lifecycle {first last : Watcher σ α} {labels : List (Label α)}
    (hrun : Run r first labels last) (hfresh : first.Fresh) :
    (∀ args,
      (last.start args = (.error (.alreadyStarted last.name), last) ↔
        last.state = .starting ∨ last.state = .retrying ∨ last.state = .ready) ∧
      ((last.start args).1 = .ok () ↔ last.state = .idle ∨ last.state = .stopped)) ∧
    (last.stop = (.error (.notStarted last.name), last) ↔
      last.state = .idle ∨ last.state = .stopped) ∧
    (last.stop.1 = .ok () ↔
      last.state = .starting ∨ last.state = .retrying ∨ last.state = .ready) ∧
    (last.started = true ↔ ∃ run, uncancelled (tokensOf first labels) last = [run]) ∧
    ∀ later final, last.stop.1 = .ok () → Run r last.stop.2 later final →
      ∀ label next, Step r final label next → next.state ≠ final.state →
        (∃ args, label = .start args true) ∨ label = .stop true ∨
          ∃ run, label.run? = some run ∧ last.starts ≤ run := by
  refine ⟨fun args => ⟨start_eq_error_iff last args, start_eq_ok_iff last args⟩,
    stop_eq_error_iff last, stop_eq_ok_iff last, (hrun.orderly hfresh).started_iff, ?_⟩
  intro later final hstop hlater label next hstep hstate
  -- the stop leaves no live run, and every later one has a number that is not used yet
  have hstarted : last.started = true := by
    rcases (stop_eq_ok_iff last).mp hstop with h | h | h <;> simp [started, h, State.isStarted]
  have hstopped : last.stop.2 =
      { last with state := .stopped, changed := true, live := none } := by
    rw [Watcher.stop, if_pos hstarted]
  have hlive := (hlater.le_of_live last.starts (by simp [hstopped])
    (by simp [hstopped])).2
  rcases hstep.state_eq_or with hsame | hstart | hstop | ⟨run, hlabel, hrun⟩
  · exact absurd hsame hstate
  · exact .inl hstart
  · exact .inr (.inl hstop)
  · exact .inr (.inr ⟨run, hlabel, hlive run hrun⟩)

end

/-- A watcher after its next move. -/
def moved (r : Resource σ α) (w : Watcher σ α) : Watcher σ α :=
  ((w.move? r).map Prod.snd).getD w

theorem step_moved {r : Resource σ α} {w : Watcher σ α} (event : Event)
    (h : (w.move? r).map Prod.fst = some event) : Step r w (.move event) (moved r w) := by
  obtain ⟨⟨event, next⟩, hmove, rfl⟩ := Option.map_eq_some_iff.mp h
  rw [moved, hmove]
  exact step_of_move? hmove

/-- A watcher over a resource that is acquired at once and kept. -/
def steadyWatcher : Watcher Script String where
  name := "steady"
  retry := 10
  resource := {}

/-- The watcher is started, and its first run has acquired the resource. -/
def readyWatcher : Watcher Script String :=
  moved (Script.resource true) (moved (Script.resource true) (steadyWatcher.start "a").2)

theorem run_readyWatcher : Run (Script.resource true) steadyWatcher
    [.start "a" true, .move (.attempted 0), .move (.acquired 0)] readyWatcher := by
  have hstart := Run.single (.start (r := Script.resource true) steadyWatcher "a")
  have hattempted := hstart.snoc (step_moved (.attempted 0) rfl)
  exact hattempted.snoc (step_moved (.acquired 0) rfl)

/-- The first run of a watcher cannot make it ready again once the watcher was stopped, not even
after another start. -/
theorem Run.lifecycle_restarted :
    readyWatcher.state = .ready ∧ readyWatcher.stop.2.state = .stopped ∧
      (readyWatcher.stop.2.start "b").2.state = .starting ∧
      ((readyWatcher.stop.2.start "b").2.setReady 0 true).state = .starting := by
  have hfresh : steadyWatcher.Fresh := ⟨rfl, rfl, rfl, rfl⟩
  have hagain := Run.single (.start (r := Script.resource true) readyWatcher.stop.2 "b")
  refine ⟨rfl, rfl, rfl, ?_⟩
  by_contra hstate
  obtain ⟨-, -, -, -, hsay⟩ := run_readyWatcher.lifecycle hfresh
  rcases hsay _ _ rfl hagain (.say 0 true) _ (.say _ 0 true) hstate with
    ⟨args, hlabel⟩ | hlabel | ⟨run, hlabel, hle⟩
  · cases hlabel
  · cases hlabel
  · cases hlabel
    exact absurd hle (by decide)

end Watcher
end Uplink
