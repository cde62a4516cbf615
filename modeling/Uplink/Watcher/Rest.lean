import Uplink.Watcher.Machine

/-!
# Moments of rest

At one moment a watcher makes only so many moves.  It passes through the stages of a run in one
direction, works only so much in each, and then waits for time to pass; only a waiting run can begin
again at the start.  `settle` makes all moves of a moment, and `advance` lets time pass from one
moment with moves to the next.

A watcher that does not wait before it tries again may try without end at one moment.  So a pause that
takes no time is where `settle` leaves it.
-/

namespace Uplink
namespace Watcher

variable {σ α : Type}

/-- How many stages lie ahead at a moment, and how much work in the present one. -/
def stageRank (r : Resource σ α) (w : Watcher σ α) : Nat × Nat :=
  match w.holder with
  | none => (0, 0)
  | some holder =>
    match holder.stage with
    | .pausing wake => (if wake ≤ w.now then 5 else 1, 0)
    | .acquiring => (4, r.energy .acquire w.now w.resource)
    | .driving => (3, r.energy .drive w.now w.resource)
    | .releasing _ => (2, r.energy .release w.now w.resource)

/-- How many moves may lie ahead at a moment. -/
def rank (r : Resource σ α) (w : Watcher σ α) : Nat × Nat × Nat :=
  (w.waiting.length, stageRank r w)

/-- The order in which ranks go down. -/
abbrev RankLt : Nat × Nat × Nat → Nat × Nat × Nat → Prop :=
  Prod.Lex (· < ·) (Prod.Lex (· < ·) (· < ·))

theorem setState_waiting (w : Watcher σ α) (run : Nat) (state : State) :
    (w.setState run state).waiting = w.waiting := by
  unfold setState; split <;> rfl

theorem setState_holder (w : Watcher σ α) (run : Nat) (state : State) :
    (w.setState run state).holder = w.holder := by
  unfold setState; split <;> rfl

theorem setState_now (w : Watcher σ α) (run : Nat) (state : State) :
    (w.setState run state).now = w.now := by
  unfold setState; split <;> rfl

theorem setState_resource (w : Watcher σ α) (run : Nat) (state : State) :
    (w.setState run state).resource = w.resource := by
  unfold setState; split <;> rfl

theorem setState_retry (w : Watcher σ α) (run : Nat) (state : State) :
    (w.setState run state).retry = w.retry := by
  unfold setState; split <;> rfl

theorem display_waiting (w : Watcher σ α) (run : Nat) (deed : Deed) :
    (w.display run deed).waiting = w.waiting := by
  unfold display; dsimp only; split <;> simp [setReady, setState_waiting]

theorem display_holder (w : Watcher σ α) (run : Nat) (deed : Deed) :
    (w.display run deed).holder = w.holder := by
  unfold display; dsimp only; split <;> simp [setReady, setState_holder]

theorem display_now (w : Watcher σ α) (run : Nat) (deed : Deed) :
    (w.display run deed).now = w.now := by
  unfold display; dsimp only; split <;> simp [setReady, setState_now]

theorem display_resource (w : Watcher σ α) (run : Nat) (deed : Deed) :
    (w.display run deed).resource = w.resource := by
  unfold display; dsimp only; split <;> simp [setReady, setState_resource]

theorem now_lt_wakeTime {w : Watcher σ α} (hretry : 0 < w.retry) : w.now < w.wakeTime := by
  unfold wakeTime; omega

/-- A pause that has just begun lies ahead of nothing. -/
theorem stageRank_pausing (r : Resource σ α) (w : Watcher σ α) (holder : Holder α) {wake : Nat}
    (hwake : w.now < wake) : stageRank r (w.toStage holder (.pausing wake)) = (1, 0) := by
  simp [stageRank, toStage, Nat.not_le.2 hwake]

/-- What is done about a task leaves less to do. -/
theorem pursue_lt (r : Resource σ α) (stages : Nat) {w next : Watcher σ α} {holder : Holder α}
    {task : Task} {event : Event} {go : Watcher σ α → Bool → Event × Watcher σ α}
    (hrank : ∀ w' : Watcher σ α, w'.holder = w.holder →
      stageRank r w' = (stages, r.energy task w'.now w'.resource))
    (hgo : ∀ s success, go (w.withResource s) success = (event, next) →
      next.waiting = w.waiting ∧ (stageRank r next).1 < stages)
    (h : pursue r w holder task go = some (event, next)) : RankLt (rank r next) (rank r w) := by
  unfold pursue at h
  split at h
  · cases h
  · rename_i s deed hact
    simp only [Option.some.injEq, Prod.mk.injEq] at h
    have hlt := r.energy_lt hact
    have hnext : stageRank r next = (stages, r.energy task w.now s) := by
      rw [hrank next (by rw [← h.2]; exact display_holder _ _ _), ← h.2, display_now,
        display_resource]
      rfl
    unfold rank
    rw [hnext, hrank w rfl, ← h.2, display_waiting]
    exact .right _ (.right _ hlt)
  · rename_i s success hact
    have hpair := hgo s success (Option.some.inj h)
    unfold rank
    rw [hpair.1]
    have hw := hrank w rfl
    cases hs : stageRank r next with
    | mk stage energy =>
      rw [hw]
      rw [hs] at hpair
      exact .right _ (.left _ _ hpair.2)

/-- Going to a lower stage lowers the rank. -/
theorem rankLt_of_stage {r : Resource σ α} {w next : Watcher σ α}
    (hwaiting : next.waiting = w.waiting)
    (hstage : (stageRank r next).1 < (stageRank r w).1) : RankLt (rank r next) (rank r w) := by
  unfold rank
  rw [hwaiting]
  exact .right _ (by
    cases h : stageRank r next with
    | mk a b =>
      cases h' : stageRank r w with
      | mk a' b' =>
        rw [h, h'] at hstage
        exact .left _ _ hstage)

/-- A move of the run whose turn it is lowers the rank, unless it begins a pause that takes no
time. -/
theorem holderMove?_lt (r : Resource σ α) {w next : Watcher σ α} {holder : Holder α} {event : Event}
    (hholder : w.holder = some holder) (h : holderMove? r w holder = some (event, next))
    (hpause : event.beginsPause = true → 0 < w.retry) : RankLt (rank r next) (rank r w) := by
  unfold holderMove? at h
  split at h
  · rename_i hstage
    split at h
    · simp only [Option.some.injEq, Prod.mk.injEq] at h
      rw [← h.2]
      exact rankLt_of_stage rfl (by simp [stageRank, hholder, hstage])
    · refine pursue_lt r 4 (fun w' hw' => by simp [stageRank, hw', hholder, hstage]) ?_ h
      intro s success hgo
      cases success with
      | true =>
        cases hgo
        constructor
        · split <;> simp [enter, note, setReady, setState_waiting, withResource]
        · simp [enter, stageRank]
      | false =>
        cases hgo
        refine ⟨by simp [toStage, note, setState_waiting, withResource], ?_⟩
        rw [stageRank_pausing]
        · decide
        · exact now_lt_wakeTime (by simpa [note, setState_retry, withResource] using hpause rfl)
  · rename_i hstage
    split at h
    · simp only [afterDrive, Option.some.injEq, Prod.mk.injEq] at h
      rw [← h.2]
      exact rankLt_of_stage rfl (by simp [stageRank, enter, hholder, hstage])
    · refine pursue_lt r 3 (fun w' hw' => by simp [stageRank, hw', hholder, hstage]) ?_ h
      intro s success hgo
      cases hgo
      simp [enter, stageRank, withResource]
  · rename_i ending hstage
    refine pursue_lt r 2 (fun w' hw' => by simp [stageRank, hw', hholder, hstage]) ?_ h
    intro s success hgo
    cases ending with
    | interrupted =>
      cases hgo
      simp [stageRank, withResource]
    | finished =>
      cases hgo
      refine ⟨by simp [toStage, setReady, setState_waiting, withResource], ?_⟩
      rw [stageRank_pausing]
      · decide
      · rw [setReady, setState_now]
        exact now_lt_wakeTime (hpause rfl)
    | failed =>
      cases hgo
      refine ⟨by simp [toStage, setReady, setState_waiting, note, withResource], ?_⟩
      rw [stageRank_pausing]
      · decide
      · rw [setReady, setState_now]
        exact now_lt_wakeTime (hpause rfl)
  · rename_i wake hstage
    split at h
    · simp only [Option.some.injEq, Prod.mk.injEq] at h
      rw [← h.2]
      refine rankLt_of_stage rfl ?_
      simp only [stageRank, hholder, hstage]
      split <;> decide
    · split at h
      · rename_i hwake
        simp only [Option.some.injEq, Prod.mk.injEq] at h
        rw [← h.2]
        exact rankLt_of_stage rfl (by simp [stageRank, enter, hholder, hstage, hwake])
      · cases h

/-- Fewer waiting runs mean a lower rank. -/
theorem rankLt_of_waiting {r : Resource σ α} {w next : Watcher σ α}
    (h : next.waiting.length < w.waiting.length) : RankLt (rank r next) (rank r w) :=
  .left _ _ h

/-- Every move lowers the rank, unless it begins a pause that takes no time. -/
theorem move?_lt (r : Resource σ α) {w next : Watcher σ α} {event : Event}
    (h : move? r w = some (event, next)) (hpause : event.beginsPause = true → 0 < w.retry) :
    RankLt (rank r next) (rank r w) := by
  unfold move? at h
  split at h
  · rename_i run args rest hwaiting
    split at h
    · simp only [Option.some.injEq, Prod.mk.injEq] at h
      exact rankLt_of_waiting (by simp [← h.2, hwaiting])
    · split at h
      · simp only [Option.some.injEq, Prod.mk.injEq] at h
        exact rankLt_of_waiting (by simp [← h.2, enter, hwaiting])
      · rename_i holder hholder
        exact holderMove?_lt r hholder h hpause
  · split at h
    · cases h
    · rename_i holder hholder
      exact holderMove?_lt r hholder h hpause

/-! ## Moves take no time -/

theorem pursue_now (r : Resource σ α) {w next : Watcher σ α} {holder : Holder α} {task : Task}
    {event : Event} {go : Watcher σ α → Bool → Event × Watcher σ α}
    (hgo : ∀ s success, (go (w.withResource s) success).2.now = w.now)
    (h : pursue r w holder task go = some (event, next)) : next.now = w.now := by
  unfold pursue at h
  split at h
  · cases h
  · simp only [Option.some.injEq, Prod.mk.injEq] at h
    rw [← h.2, display_now]
    rfl
  · rename_i s success _
    simp only [Option.some.injEq] at h
    have := hgo s success
    rwa [h] at this

theorem holderMove?_now (r : Resource σ α) {w next : Watcher σ α} {holder : Holder α}
    {event : Event}
    (h : holderMove? r w holder = some (event, next)) : next.now = w.now := by
  unfold holderMove? at h
  split at h
  · split at h
    · simp only [Option.some.injEq, Prod.mk.injEq] at h
      rw [← h.2]
    · refine pursue_now r (fun s success => ?_) h
      unfold afterAcquire
      split
      · dsimp only
        split <;> simp [enter, note, setReady, setState_now, withResource]
      · simp [toStage, note, setState_now, withResource]
  · split at h
    · simp only [afterDrive, Option.some.injEq, Prod.mk.injEq] at h
      rw [← h.2]
      rfl
    · exact pursue_now r (fun s success => rfl) h
  · refine pursue_now r (fun s success => ?_) h
    unfold afterRelease
    dsimp only
    split
    · rfl
    · simp [toStage, setReady, setState_now, withResource]
    · simp [toStage, setReady, setState_now, note, withResource]
  · split at h
    · simp only [Option.some.injEq, Prod.mk.injEq] at h
      rw [← h.2]
    · split at h
      · simp only [Option.some.injEq, Prod.mk.injEq] at h
        rw [← h.2]
        rfl
      · cases h

/-- A move takes no time. -/
theorem move?_now (r : Resource σ α) {w next : Watcher σ α} {event : Event}
    (h : move? r w = some (event, next)) : next.now = w.now := by
  unfold move? at h
  split at h
  · split at h
    · simp only [Option.some.injEq, Prod.mk.injEq] at h
      rw [← h.2]
    · split at h
      · simp only [Option.some.injEq, Prod.mk.injEq] at h
        rw [← h.2]
        rfl
      · exact holderMove?_now r h
  · split at h
    · cases h
    · exact holderMove?_now r h

/-! ## Rest -/

/-- Make all moves of the present moment.  A watcher that does not wait before it tries again never
comes to rest; it is left when a pause begins. -/
def settle (r : Resource σ α) (w : Watcher σ α) : Watcher σ α :=
  match h : w.move? r with
  | some move =>
    if hpause : move.1.beginsPause = true → 0 < w.retry then
      have : RankLt (move.2.rank r) (w.rank r) := move?_lt r h hpause
      settle r move.2
    else move.2
  | none => w
  termination_by w.rank r
  decreasing_by exact this

/-- A settled watcher has nothing to do at the moment, if no pause without time began. -/
theorem move?_settle_of (r : Resource σ α) {Tranquil : Watcher σ α → Prop}
    (hstep : ∀ w event next, Tranquil w → w.move? r = some (event, next) →
      Tranquil next ∧ (event.beginsPause = true → 0 < w.retry))
    {w : Watcher σ α} (hw : Tranquil w) : (w.settle r).move? r = none := by
  fun_induction settle r w with
  | case1 w move h hpause _ ih => exact ih (hstep w _ _ hw h).1
  | case2 w move h hpause => exact absurd (hstep w _ _ hw h).2 hpause
  | case3 w h => exact h

theorem settle_now (r : Resource σ α) (w : Watcher σ α) : (w.settle r).now = w.now := by
  fun_induction settle r w with
  | case1 w move h hpause _ ih => exact ih.trans (move?_now r h)
  | case2 w move h hpause => exact move?_now r h
  | case3 w h => rfl

/-- The next moment with a move, not later than the given time. -/
def nextMoment? (r : Resource σ α) (w : Watcher σ α) (limit : Nat) : Option Nat :=
  (w.due? r).bind fun due =>
    let moment := max (w.now + 1) due
    if moment ≤ limit then some moment else none

theorem nextMoment?_bounds {r : Resource σ α} {w : Watcher σ α} {limit moment : Nat}
    (h : w.nextMoment? r limit = some moment) : w.now < moment ∧ moment ≤ limit := by
  obtain ⟨due, _, h⟩ := Option.bind_eq_some_iff.1 h
  dsimp only at h
  split at h
  · simp only [Option.some.injEq] at h
    omega
  · cases h

/-- Go to a moment and make all its moves. -/
def passTo (r : Resource σ α) (w : Watcher σ α) (moment : Nat) : Watcher σ α :=
  settle r { w with now := moment }

theorem passTo_now (r : Resource σ α) (w : Watcher σ α) (moment : Nat) :
    (w.passTo r moment).now = moment :=
  settle_now r _

theorem passTo_nearer {r : Resource σ α} {w : Watcher σ α} {limit moment : Nat}
    (h : w.nextMoment? r limit = some moment) :
    limit - (w.passTo r moment).now < limit - w.now := by
  have := nextMoment?_bounds h
  rw [passTo_now]
  omega

/-- Let time pass until `limit`, with all moves of each moment; stop at the first moment of rest at
which `found` holds. -/
def advanceUntil (r : Resource σ α) (found : Watcher σ α → Bool) (limit : Nat) (w : Watcher σ α) :
    Bool × Watcher σ α :=
  if found w then (true, w)
  else
    match h : w.nextMoment? r limit with
    | some moment =>
      have := passTo_nearer h
      advanceUntil r found limit (w.passTo r moment)
    | none => (false, { w with now := max w.now limit })
  termination_by limit - w.now
  decreasing_by exact this

/-- Let time pass until `limit`, with all moves of each moment. -/
def advance (r : Resource σ α) (limit : Nat) (w : Watcher σ α) : Watcher σ α :=
  (advanceUntil r (fun _ => false) limit w).2

end Watcher
end Uplink
