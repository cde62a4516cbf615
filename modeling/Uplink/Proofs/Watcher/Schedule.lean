import Uplink.Proofs.Watcher.Lifecycle
import Uplink.Proofs.Watcher.Ownership

/-!
# When a run tries again

A run tries to acquire the resource when its turn comes, and then again and again: each time after a
pause, which begins when the resource was refused, or was released after a drive that came to its end.
Where time passes promptly, so that nothing is put off that can happen at once, the next attempt comes
when the pause is over, neither before nor after; and only a stop keeps it from coming.
-/

namespace Uplink
namespace Watcher

variable {σ α : Type}

/-! ## Time -/

/-- A thing that happens to a watcher, with the watcher before it and after it. -/
structure Moment (σ α : Type) where
  watcher : Watcher σ α
  label : Label α
  next : Watcher σ α

/-- A row of things that happen to a watcher. -/
inductive History (r : Resource σ α) : Watcher σ α → List (Moment σ α) → Watcher σ α → Prop where
  | nil (w : Watcher σ α) : History r w [] w
  | snoc {first last next : Watcher σ α} {moments : List (Moment σ α)} {label : Label α} :
      History r first moments last → Step r last label next →
        History r first (moments ++ [⟨last, label, next⟩]) next

/-- The time of a moment. -/
def Moment.now (m : Moment σ α) : ℕ :=
  m.watcher.now

/-- Time passes only at rest, and not beyond the end of a pause. -/
def Moment.Prompt (r : Resource σ α) (m : Moment σ α) : Prop :=
  m.label = .time → m.watcher.move? r = none ∧
    ∀ holder wake, m.watcher.holder = some holder → holder.stage = .pausing wake →
      m.next.now ≤ wake

/-! ## The course of a run -/

/-- How far a run is. -/
inductive Progress where
  /-- It waits for its first turn. -/
  | waiting
  /-- It has its turn. -/
  | turn (stage : Stage)
  /-- It is over. -/
  | over

/-- What a run may do, at which time, and how far it is then.  The first attempt comes at any time; a
later one comes when a pause is over that lasts for the interval, and began when the resource was
refused, or was released after a drive that came to its end. -/
inductive Next (run retry : ℕ) : Progress → ℕ → Event → Progress → Prop where
  | giveUp (now : ℕ) : Next run retry .waiting now (.gaveUp run) .over
  | first (now : ℕ) : Next run retry .waiting now (.attempted run) (.turn .acquiring)
  | refuse (now : ℕ) : Next run retry (.turn .acquiring) now (.refused run)
      (.turn (.pausing (now + retry)))
  | acquire (now : ℕ) : Next run retry (.turn .acquiring) now (.acquired run) (.turn .driving)
  | finish (now : ℕ) (ending : Ending) : Next run retry (.turn .driving) now (.ended run ending)
      (.turn (.releasing ending))
  | release {ending : Ending} (now : ℕ) : ending ≠ .interrupted →
      Next run retry (.turn (.releasing ending)) now (.released run ending)
        (.turn (.pausing (now + retry)))
  | letGo (now : ℕ) : Next run retry (.turn (.releasing .interrupted)) now
      (.released run .interrupted) .over
  | retry (due : ℕ) : Next run retry (.turn (.pausing due)) due (.attempted run) (.turn .acquiring)
  | leave {stage : Stage} (now : ℕ) : (stage = .acquiring ∨ ∃ due, stage = .pausing due) →
      Next run retry (.turn stage) now (.left run) .over

/-- What a run may have done, each thing with its time. -/
inductive Course (run retry : ℕ) : List (ℕ × Event) → Progress → Prop where
  | nil : Course run retry [] .waiting
  | snoc {events : List (ℕ × Event)} {progress next : Progress} {now : ℕ} {event : Event} :
      Course run retry events progress → Next run retry progress now event next →
        Course run retry (events ++ [(now, event)]) next

/-- What a run does at a moment, but for the work of the resource. -/
def Moment.course (run : ℕ) (m : Moment σ α) : List (ℕ × Event) :=
  match m.label with
  | .move event => if event.run = run ∧ event ≠ .worked run then [(m.now, event)] else []
  | _ => []

/-- What a run does, but for the work of the resource. -/
def course (run : ℕ) (moments : List (Moment σ α)) : List (ℕ × Event) :=
  moments.flatMap (Moment.course run)

/-- How far a run is that does not have its turn. -/
def expected (w : Watcher σ α) (run : ℕ) : Progress :=
  if run ∈ w.waiting.map Prod.fst ∨ w.starts ≤ run then .waiting else .over

/-- How far a run of a watcher is. -/
def progress (w : Watcher σ α) (run : ℕ) : Progress :=
  match w.holder with
  | some holder => if holder.run = run then .turn holder.stage else expected w run
  | none => expected w run

/-- Why the turn of a run comes: it starts, or another run, which had its turn, is over. -/
inductive Cause (run : ℕ) : Label α → ℕ → Prop where
  | start (args : α) : Cause run (.start args true) run
  | release {other starts : ℕ} : other ≠ run →
      Cause run (.move (.released other .interrupted)) starts
  | leave {other starts : ℕ} : other ≠ run → Cause run (.move (.left other)) starts

/-! ## Notes -/

/-- The note that tells of a move of the watcher. -/
def Event.notes (r : Resource σ α) : Event → List Note
  | .refused _ => [.retry]
  | .acquired _ => if r.readyOnAcquire then [.ready] else []
  | .released _ .failed => [.error]
  | _ => []

/-- The notes of the work that the resource does next. -/
def deedNotes (r : Resource σ α) (w : Watcher σ α) : List Note :=
  match w.holder.bind fun holder => holder.stage.task?.map (holder, ·) with
  | none => []
  | some (holder, task) =>
    match r.act task holder.args w.now w.permit w.resource with
    | .work _ deed => deed.notes
    | _ => []

/-- The notes that are published at a moment: those of the resource and of its work, and those that
tell of the moves of the watcher. -/
def Moment.notes (r : Resource σ α) (m : Moment σ α) : List Note :=
  match m.label with
  | .note n => [n]
  | .move (.worked _) => deedNotes r m.watcher
  | .move event => event.notes r
  | _ => []

theorem Next.ne_worked {run retry now : ℕ} {progress next : Progress} {event : Event}
    (h : Next run retry progress now event next) : event ≠ .worked run := by
  rintro rfl
  cases h

/-! ## One step -/

section

variable {r : Resource σ α} {w next : Watcher σ α} {holder : Holder α} {event : Event}
  {label : Label α} {tokens : Tokens} {run : ℕ}

/-- No pause is over. -/
def Punctual (w : Watcher σ α) : Prop :=
  ∀ holder wake, w.holder = some holder → holder.stage = .pausing wake → w.now ≤ wake

theorem progress_of_holder (h : w.holder = some holder) :
    progress w holder.run = .turn holder.stage := by
  simp [progress, h]

theorem progress_of_stage {stage : Stage} (h : w.holder = some { holder with stage }) :
    progress w holder.run = .turn stage :=
  progress_of_holder h

theorem progress_of_ne (h : ∀ holder, w.holder = some holder → holder.run ≠ run) :
    progress w run = expected w run := by
  unfold progress
  split
  · rename_i holder hholder
    exact if_neg (h holder hholder)
  · rfl

theorem expected_congr (hwaiting : run ∈ next.waiting.map Prod.fst ↔ run ∈ w.waiting.map Prod.fst)
    (hstarts : next.starts = w.starts) : expected next run = expected w run := by
  simp only [expected, hwaiting, hstarts]

theorem expected_of_waiting (h : run ∈ w.waiting.map Prod.fst) : expected w run = .waiting :=
  if_pos (.inl h)

/-- A run that is gone is over. -/
theorem expected_of_gone (hwaiting : run ∉ w.waiting.map Prod.fst) (hlt : run < w.starts) :
    expected w run = .over := by
  rw [expected, if_neg]
  rintro (hmem | hle)
  · exact hwaiting hmem
  · exact Nat.not_lt.mpr hle hlt

theorem progress_congr (hholder : next.holder = w.holder) (hwaiting : next.waiting = w.waiting)
    (hstarts : next.starts = w.starts) : progress next run = progress w run := by
  simp only [progress, expected, hholder, hwaiting, hstarts]

/-- The run whose turn it is does not wait for it. -/
theorem Orderly.holder_not_waiting (h : Orderly tokens w) (hholder : w.holder = some holder) :
    holder.run ∉ w.waiting.map Prod.fst := by
  have hnodup := h.nodup
  rw [present, hholder] at hnodup
  exact (List.nodup_cons.mp hnodup).1

theorem Orderly.holder_lt (h : Orderly tokens w) (hholder : w.holder = some holder) :
    holder.run < w.starts :=
  h.lt _ (by simp [present, hholder])

/-- A move of the holder, but for the work of the resource, is the next thing that its run does. -/
theorem HolderStep.next_progress (h : HolderStep r w holder event next) (horder : Orderly tokens w)
    (hholder : w.holder = some holder) (hpunctual : w.Punctual) :
    (event = .worked holder.run ∧ progress next holder.run = progress w holder.run) ∨
      Next holder.run w.retry (progress w holder.run) w.now event (progress next holder.run) := by
  have hgone : next.holder = none → progress next holder.run = .over := by
    intro hnone
    obtain ⟨hwaiting, -, hstarts⟩ := h.frame
    rw [progress_of_ne (by simp [hnone])]
    refine expected_of_gone ?_ (hstarts ▸ horder.holder_lt hholder)
    rw [hwaiting]
    exact horder.holder_not_waiting hholder
  rw [progress_of_holder hholder]
  cases h with
  | leave _ hstage =>
      rw [hgone rfl]
      exact .inr (.leave _ hstage)
  | work =>
      refine .inl ⟨rfl, progress_of_holder ?_⟩
      rw [display_holder]
      exact hholder
  | @acquire s hstage =>
      rw [hstage, progress_of_stage (holder_afterAcquire r holder (w.withResource s))]
      exact .inr (.acquire _)
  | @refuse s hstage =>
      have hnext : (afterAcquire r holder (w.withResource s) false).2.holder =
          some { holder with stage := .pausing (w.now + w.retry) } := by
        simp [afterAcquire, toStage, wakeTime, note, setState_now, setState_retry, withResource]
      rw [hstage, progress_of_stage hnext]
      exact .inr (.refuse _)
  | interrupt hstage =>
      rw [hstage, progress_of_stage (w := (afterDrive r holder w .interrupted).2) rfl]
      exact .inr (.finish _ _)
  | finish hstage =>
      rw [hstage, progress_of_stage (w := (afterDrive r holder _ _).2) rfl]
      exact .inr (.finish _ _)
  | @release ending s _ hstage =>
      have hnext : ending ≠ .interrupted →
          (afterRelease holder ending (w.withResource s)).2.holder =
            some { holder with stage := .pausing (w.now + w.retry) } := by
        intro hending
        cases ending with
        | interrupted => exact absurd rfl hending
        | finished => rfl
        | failed => rfl
      by_cases hending : ending = .interrupted
      · subst hending
        rw [hstage, hgone rfl]
        exact .inr (.letGo _)
      · rw [hstage, progress_of_stage (hnext hending)]
        exact .inr (.release _ hending)
  | @retry wake hstage _ hwake =>
      obtain rfl := Nat.le_antisymm (hpunctual holder wake hholder hstage) hwake
      rw [hstage, progress_of_stage (w := enter r w holder .acquire .acquiring) rfl]
      exact .inr (.retry _)

section

variable {earlier later : List (ℕ × α)} {args : α}

theorem mem_removed_iff {number : ℕ} (hne : run ≠ number) :
    run ∈ (earlier ++ later).map Prod.fst ↔
      run ∈ (earlier ++ (number, args) :: later).map Prod.fst := by
  simp [hne]

/-- A run that waits is there once. -/
theorem Orderly.of_waiting {number : ℕ} (h : Orderly tokens w)
    (hwaiting : w.waiting = earlier ++ (number, args) :: later) :
    number ∉ (earlier ++ later).map Prod.fst ∧
      (∀ holder, w.holder = some holder → holder.run ≠ number) ∧ number < w.starts ∧
      number ∈ w.waiting.map Prod.fst := by
  have hmem : number ∈ w.waiting.map Prod.fst := by simp [hwaiting]
  have hnodup := h.nodup
  rw [present, List.nodup_append] at hnodup
  obtain ⟨-, hqueue, hapart⟩ := hnodup
  refine ⟨?_, ?_, h.lt _ (List.mem_append_right _ hmem), hmem⟩
  · rw [hwaiting, List.map_append, List.map_cons, List.nodup_middle] at hqueue
    rw [List.map_append]
    exact (List.nodup_cons.mp hqueue).1
  · intro holder hholder
    exact hapart holder.run (by simp [hholder]) number hmem

end

/-- A move of the holder does not concern the other runs. -/
theorem HolderStep.progress_of_ne (h : HolderStep r w holder event next)
    (hholder : w.holder = some holder) (hrun : holder.run ≠ run) :
    progress next run = progress w run := by
  obtain ⟨hwaiting, -, hstarts⟩ := h.frame
  have hafter : ∀ after, next.holder = some after → after.run ≠ run := by
    intro after hafter
    rw [(h.same_run hholder after hafter).1]
    exact hrun
  have hbefore : ∀ other, w.holder = some other → other.run ≠ run := by
    intro other hother
    rw [hholder] at hother
    cases hother
    exact hrun
  rw [Watcher.progress_of_ne hafter, Watcher.progress_of_ne hbefore]
  exact expected_congr (by rw [hwaiting]) hstarts

/-- The start of a run makes it wait for its turn, as it is expected to before. -/
theorem progress_start (w : Watcher σ α) (args : α) (run : ℕ) :
    progress (w.start args).2 run = progress w run := by
  unfold Watcher.start
  split
  · rfl
  · have hexpected : (run ∈ (w.waiting ++ [(w.starts, args)]).map Prod.fst ∨
        w.starts + 1 ≤ run) ↔ run ∈ w.waiting.map Prod.fst ∨ w.starts ≤ run := by
      rw [List.map_append, List.mem_append, List.map_singleton, List.mem_singleton, or_assoc]
      exact or_congr_right (by omega)
    simp only [progress, expected, hexpected]

section

variable {earlier later : List (ℕ × α)} {args : α} {number : ℕ}

theorem Orderly.progress_of_waiting (h : Orderly tokens w)
    (hwaiting : w.waiting = earlier ++ (number, args) :: later) : progress w number = .waiting := by
  obtain ⟨-, hapart, -, hmem⟩ := h.of_waiting hwaiting
  rw [progress_of_ne hapart, expected_of_waiting hmem]

/-- A run that gives up waiting is over; the others wait as before. -/
theorem Orderly.progress_giveUp (h : Orderly tokens w)
    (hwaiting : w.waiting = earlier ++ (number, args) :: later) (run : ℕ) :
    progress { w with waiting := earlier ++ later } run =
      if run = number then .over else progress w run := by
  obtain ⟨hgone, hapart, hlt, -⟩ := h.of_waiting hwaiting
  split
  · rename_i hrun
    subst hrun
    exact (progress_of_ne (w := { w with waiting := earlier ++ later }) hapart).trans
      (expected_of_gone hgone hlt)
  · rename_i hrun
    have hsame : run ∈ (earlier ++ later).map Prod.fst ↔ run ∈ w.waiting.map Prod.fst := by
      rw [hwaiting]
      exact mem_removed_iff hrun
    simp only [progress, expected, hsame]

/-- A run whose turn has come acquires the resource; the others wait as before. -/
theorem progress_turn (hwaiting : w.waiting = earlier ++ (number, args) :: later)
    (hholder : w.holder = none) (run : ℕ) :
    progress (enter r { w with waiting := earlier ++ later } ⟨number, args, .acquiring⟩ .acquire
        .acquiring) run =
      if run = number then .turn .acquiring else progress w run := by
  have hnone : ∀ holder, w.holder = some holder → holder.run ≠ run := by simp [hholder]
  split
  · rename_i hrun
    exact if_pos hrun.symm
  · rename_i hrun
    have hturn : progress (enter r { w with waiting := earlier ++ later }
        ⟨number, args, .acquiring⟩ .acquire .acquiring) run =
          expected { w with waiting := earlier ++ later } run :=
      if_neg (Ne.symm hrun)
    rw [progress_of_ne hnone, hturn]
    refine expected_congr ?_ rfl
    rw [hwaiting]
    exact mem_removed_iff hrun

end

/-- What happens to a watcher is the next thing that a run does, or does not concern the run. -/
theorem Step.next_progress (h : Step r w label next) (horder : Orderly tokens w)
    (hpunctual : w.Punctual) (run : ℕ) :
    (Moment.course run ⟨w, label, next⟩ = [] ∧ progress next run = progress w run) ∨
      ∃ event, Moment.course run ⟨w, label, next⟩ = [(w.now, event)] ∧
        Next run w.retry (progress w run) w.now event (progress next run) := by
  cases h with
  | start args => exact .inl ⟨rfl, progress_start w args run⟩
  | stop =>
      refine .inl ⟨rfl, ?_⟩
      unfold Watcher.stop
      split <;> rfl
  | requestCheck | note | surroundings | time => exact .inl ⟨rfl, rfl⟩
  | say number ready =>
      exact .inl ⟨rfl, progress_congr (setState_holder ..) (setState_waiting ..) (setState_starts ..)⟩
  | @giveUp earlier later number args hwaiting _ =>
      rw [horder.progress_giveUp hwaiting]
      by_cases hrun : run = number
      · subst hrun
        refine .inr ⟨.gaveUp run, by simp [Moment.course, Event.run, Moment.now], ?_⟩
        rw [horder.progress_of_waiting hwaiting, if_pos rfl]
        exact .giveUp _
      · exact .inl ⟨by simp [Moment.course, Event.run, Ne.symm hrun], if_neg hrun⟩
  | @turn earlier later number args hwaiting _ hholder =>
      rw [progress_turn hwaiting hholder]
      by_cases hrun : run = number
      · subst hrun
        refine .inr ⟨.attempted run, by simp [Moment.course, Event.run, Moment.now], ?_⟩
        rw [horder.progress_of_waiting hwaiting, if_pos rfl]
        exact .first _
      · exact .inl ⟨by simp [Moment.course, Event.run, Ne.symm hrun], if_neg hrun⟩
  | @holder _ holder event hholder hmove =>
      have hstep := holderStep_of_holderMove? hmove
      by_cases hrun : holder.run = run
      · subst hrun
        rcases hstep.next_progress horder hholder hpunctual with ⟨rfl, hsame⟩ | hnext
        · exact .inl ⟨if_neg fun h => h.2 rfl, hsame⟩
        · exact .inr ⟨event, if_pos ⟨hstep.event_run, hnext.ne_worked⟩, hnext⟩
      · refine .inl ⟨if_neg fun h => hrun (hstep.event_run.symm.trans h.1), ?_⟩
        exact hstep.progress_of_ne hholder hrun

/-- No move concerns how long a pause lasts. -/
theorem HolderStep.retry_eq (h : HolderStep r w holder event next) : next.retry = w.retry := by
  cases h with
  | leave | interrupt | finish | retry => rfl
  | work =>
      unfold display
      dsimp only
      split <;> simp [setReady, setState_retry, withResource]
  | acquire =>
      simp only [afterAcquire, if_true]
      split <;> simp [enter, note, setReady, setState_retry, withResource]
  | refuse => simp [afterAcquire, toStage, note, setState_retry, withResource]
  | @release ending s =>
      cases ending <;> simp [afterRelease, toStage, setReady, note, setState_retry, withResource]

theorem Step.retry_eq (h : Step r w label next) : next.retry = w.retry := by
  cases h with
  | start | stop =>
      first | unfold Watcher.start | unfold Watcher.stop
      split <;> rfl
  | requestCheck | note | surroundings | time | giveUp | turn => rfl
  | say => exact setState_retry ..
  | holder _ hmove => exact (holderStep_of_holderMove? hmove).retry_eq

/-- A pause that begins is not over. -/
theorem HolderStep.punctual (h : HolderStep r w holder event next) (hpunctual : w.Punctual) :
    next.Punctual := by
  intro after wake hafter hstage
  cases h with
  | leave => cases hafter
  | work =>
      rw [display_holder] at hafter
      rw [display_now]
      exact hpunctual after wake hafter hstage
  | acquire =>
      rw [holder_afterAcquire] at hafter
      cases hafter
      cases hstage
  | refuse =>
      cases hafter
      cases hstage
      exact Nat.le_add_right _ _
  | interrupt | finish | retry =>
      cases hafter
      cases hstage
  | @release ending =>
      cases ending with
      | interrupted => cases hafter
      | finished | failed =>
          cases hafter
          cases hstage
          simp [afterRelease, toStage, setReady, note, setState_now, wakeTime]

theorem Step.punctual (h : Step r w label next) (hprompt : Moment.Prompt r ⟨w, label, next⟩)
    (hpunctual : w.Punctual) : next.Punctual := by
  cases h with
  | start args =>
      unfold Watcher.start
      split <;> exact hpunctual
  | stop =>
      unfold Watcher.stop
      split <;> exact hpunctual
  | requestCheck | note | surroundings | giveUp => exact hpunctual
  | say =>
      rw [Punctual, setReady, setState_holder, setState_now]
      exact hpunctual
  | time => exact (hprompt rfl).2
  | turn =>
      intro after wake hafter hstage
      cases hafter
      cases hstage
  | holder _ hmove => exact (holderStep_of_holderMove? hmove).punctual hpunctual

theorem HolderStep.notes_eq (h : HolderStep r w holder event next) (hholder : w.holder = some holder) :
    next.notes.items.reverse = w.notes.items.reverse ++
      Moment.notes r (⟨w, .move event, next⟩ : Moment σ α) := by
  cases h with
  | leave | interrupt | finish | retry => simp [Moment.notes, Event.notes, afterDrive, enter, withResource]
  | work htask _ hact =>
      rw [display_notes, Feed.items_publishAll, List.reverse_append, List.reverse_reverse]
      simp [Moment.notes, deedNotes, hholder, htask, hact, withResource]
  | acquire =>
      simp only [afterAcquire, if_true, Moment.notes, Event.notes]
      split <;> simp [enter, note, Feed.publish, setReady, setState_notes, withResource]
  | refuse =>
      simp [Moment.notes, Event.notes, afterAcquire, toStage, note, Feed.publish, setState_notes,
        withResource]
  | @release ending =>
      cases ending <;>
        simp [Moment.notes, Event.notes, afterRelease, toStage, setReady, note, Feed.publish,
          setState_notes, withResource]

theorem Step.notes_eq (h : Step r w label next) :
    next.notes.items.reverse =
      w.notes.items.reverse ++ Moment.notes r ⟨w, label, next⟩ := by
  cases h with
  | start args =>
      unfold Watcher.start
      split <;> simp [Moment.notes]
  | stop =>
      unfold Watcher.stop
      split <;> simp [Moment.notes]
  | requestCheck | surroundings | time =>
      simp [Moment.notes, Watcher.requestCheck, withResource]
  | note => simp [Moment.notes, Watcher.note, Feed.publish]
  | say => simp [Moment.notes, setReady, setState_notes]
  | giveUp => simp [Moment.notes, Event.notes]
  | turn => simp [Moment.notes, Event.notes, enter]
  | holder hholder hmove => exact (holderStep_of_holderMove? hmove).notes_eq hholder

/-! ## Waiting for the first turn -/

/-- While a live run waits, another one has its turn; or else there was, at this very moment, a reason
for the turn to come. -/
def Prepared (moments : List (Moment σ α)) (w : Watcher σ α) (run : ℕ) : Prop :=
  w.live = some run → run ∈ w.waiting.map Prod.fst → w.holder = none →
    ∃ m ∈ moments, Cause run m.label m.watcher.starts ∧ m.now = w.now

theorem Prepared.of_same {moments : List (Moment σ α)} (h : Prepared moments w run)
    (m : Moment σ α) (hlive : next.live = w.live)
    (hwaiting : next.waiting.map Prod.fst ⊆ w.waiting.map Prod.fst) (hholder : next.holder = w.holder)
    (hnow : next.now = w.now) : Prepared (moments ++ [m]) next run := by
  intro hrun hmem hnone
  obtain ⟨m', hm', hcause, htime⟩ := h (hlive ▸ hrun) (hwaiting hmem) (hholder ▸ hnone)
  exact ⟨m', List.mem_append_left _ hm', hcause, htime.trans hnow.symm⟩

/-- At rest no pause is over. -/
theorem lt_of_rest {wake : ℕ} (hrest : move? r w = none) (hholder : w.holder = some holder)
    (hstage : holder.stage = .pausing wake) : w.now < wake := by
  have hmove := holderMove?_of_rest hrest hholder
  rw [holderMove?, hstage] at hmove
  dsimp only at hmove
  split at hmove
  · cases hmove
  · split at hmove
    · cases hmove
    · rename_i hle
      exact Nat.lt_of_not_le hle

end

/-! ## Histories -/

section

variable {r : Resource σ α} {first last : Watcher σ α} {moments : List (Moment σ α)}

theorem History.run (h : History r first moments last) :
    Run r first (moments.map Moment.label) last := by
  induction h with
  | nil => exact .nil _
  | snoc _ hstep ih =>
      rw [List.map_append]
      exact .snoc ih hstep

/-- What has happened before a moment. -/
theorem History.before {earlier later : List (Moment σ α)} {m : Moment σ α}
    (h : History r first moments last) (hmoments : moments = earlier ++ m :: later) :
    History r first earlier m.watcher ∧ Step r m.watcher m.label m.next := by
  induction h generalizing later with
  | nil => exact absurd hmoments (by simp)
  | snoc hhistory hstep ih =>
      -- the moment is the last one, or it is one of those before
      rcases later.eq_nil_or_concat' with rfl | ⟨later, final, rfl⟩
      · obtain ⟨rfl, hmoment⟩ := List.append_inj' hmoments rfl
        cases hmoment
        exact ⟨hhistory, hstep⟩
      · rw [← List.cons_append, ← List.append_assoc] at hmoments
        exact ih (List.append_inj' hmoments rfl).1

theorem History.notes_eq (h : History r first moments last) :
    last.notes.items.reverse =
      first.notes.items.reverse ++ moments.flatMap (Moment.notes r) := by
  induction h with
  | nil => simp
  | snoc _ hstep ih =>
      rw [hstep.notes_eq, ih]
      simp

theorem History.retry_eq (h : History r first moments last) : last.retry = first.retry := by
  induction h with
  | nil => rfl
  | snoc _ hstep ih => exact hstep.retry_eq.trans ih

theorem History.punctual (h : History r first moments last) (hfresh : first.Fresh)
    (hprompt : ∀ m ∈ moments, m.Prompt r) : last.Punctual := by
  induction h with
  | nil =>
      intro holder wake hholder
      rw [hfresh.holder] at hholder
      cases hholder
  | snoc _ hstep ih =>
      obtain ⟨hearlier, hlast⟩ := List.forall_mem_append.mp hprompt
      exact hstep.punctual (hlast _ (List.mem_singleton_self _)) (ih hearlier)

theorem History.course (h : History r first moments last) (hfresh : first.Fresh)
    (hprompt : ∀ m ∈ moments, m.Prompt r) {run : ℕ} (hrun : first.starts ≤ run) :
    Course run first.retry (course run moments) (progress last run) := by
  induction h with
  | nil =>
      have hwaiting : progress first run = .waiting := by
        rw [progress_of_ne (by simp [hfresh.holder])]
        exact if_pos (.inr hrun)
      rw [hwaiting]
      exact .nil
  | snoc hhistory hstep ih =>
      obtain ⟨hearlier, -⟩ := List.forall_mem_append.mp hprompt
      have hcourse := ih hearlier
      rw [Watcher.course, List.flatMap_append, List.flatMap_singleton]
      rcases hstep.next_progress (hhistory.run.orderly hfresh)
        (hhistory.punctual hfresh hearlier) run with ⟨hnone, hsame⟩ | ⟨event, hevent, hnext⟩
      · rw [hnone, List.append_nil, hsame]
        exact hcourse
      · rw [hhistory.retry_eq] at hnext
        rw [hevent]
        exact hcourse.snoc hnext

theorem History.trans {middle : Watcher σ α} {moments' : List (Moment σ α)}
    (h : History r first moments middle) (h' : History r middle moments' last) :
    History r first (moments ++ moments') last := by
  induction h' with
  | nil => simpa using h
  | snoc _ hstep ih =>
      rw [← List.append_assoc]
      exact .snoc ih hstep

theorem History.single {w next : Watcher σ α} {label : Label α} (h : Step r w label next) :
    History r w [⟨w, label, next⟩] next :=
  .snoc (.nil w) h

/-- Settling is a history, in which no time passes. -/
theorem exists_history_settle (r : Resource σ α) (w : Watcher σ α) :
    ∃ moments, History r w moments (w.settle r) ∧ ∀ m ∈ moments, m.Prompt r := by
  fun_induction settle r w with
  | case1 w move h _ _ ih =>
      obtain ⟨moments, hhistory, hprompt⟩ := ih
      refine ⟨_, (History.single (step_of_move? h)).trans hhistory, ?_⟩
      exact List.forall_mem_append.mpr ⟨by simp [Moment.Prompt], hprompt⟩
  | case2 w move h _ => exact ⟨_, History.single (step_of_move? h), by simp [Moment.Prompt]⟩
  | case3 w h => exact ⟨[], .nil w, by simp⟩

theorem move?_settle_of_retry (r : Resource σ α) {w : Watcher σ α} (hretry : 0 < w.retry) :
    (w.settle r).move? r = none := by
  have hstep : ∀ (w : Watcher σ α) event next, 0 < w.retry → w.move? r = some (event, next) →
      0 < next.retry ∧ (event.beginsPause = true → 0 < w.retry) := by
    intro w event next hretry hmove
    rw [(step_of_move? hmove).retry_eq]
    exact ⟨hretry, fun _ => hretry⟩
  exact move?_settle_of r hstep hretry

/-- The next moment with a move is not beyond the end of a pause. -/
theorem nextMoment?_of_pausing {w : Watcher σ α} {holder : Holder α} {wake : ℕ}
    (hholder : w.holder = some holder) (hstage : holder.stage = .pausing wake) (hlt : w.now < wake)
    (limit : ℕ) : w.nextMoment? r limit = if wake ≤ limit then some wake else none := by
  have hdue : w.due? r = some wake := by simp [due?, hholder, hstage]
  have hmax : max (w.now + 1) wake = wake := by omega
  simp only [nextMoment?, hdue, Option.bind_some, hmax]

/-- Letting time pass from rest is a history, and time passes promptly. -/
theorem exists_history_advanceUntil (r : Resource σ α) (found : Watcher σ α → Bool) (limit : ℕ)
    (w : Watcher σ α) (hretry : 0 < w.retry) (hrest : w.move? r = none) :
    ∃ moments, History r w moments (w.advanceUntil r found limit).2 ∧
      ∀ m ∈ moments, m.Prompt r := by
  fun_induction advanceUntil r found limit w with
  | case1 w hfound => exact ⟨[], .nil w, by simp⟩
  | case2 w hfound moment hmoment _ ih =>
      obtain ⟨moves, hmoves, hpromptMoves⟩ := exists_history_settle r { w with now := moment }
      have hretry' : 0 < (w.passTo r moment).retry := hmoves.retry_eq ▸ hretry
      obtain ⟨later, hlater, hpromptLater⟩ := ih hretry' (move?_settle_of_retry r hretry)
      have htime : Step r w .time { w with now := moment } :=
        .time (Nat.le_of_lt (nextMoment?_bounds hmoment).1)
      refine ⟨_, ((History.single htime).trans hmoves).trans hlater, ?_⟩
      refine List.forall_mem_append.mpr ⟨List.forall_mem_append.mpr ⟨?_, hpromptMoves⟩, hpromptLater⟩
      rintro m hm
      cases List.mem_singleton.mp hm
      refine fun _ => ⟨hrest, fun holder wake hholder hstage => ?_⟩
      rw [nextMoment?_of_pausing hholder hstage (lt_of_rest hrest hholder hstage)] at hmoment
      split at hmoment
      · cases hmoment
        exact Nat.le_refl _
      · cases hmoment
  | case3 w hfound hmoment =>
      refine ⟨_, History.single (.time (Nat.le_max_left w.now limit)), ?_⟩
      rintro m hm
      cases List.mem_singleton.mp hm
      refine fun _ => ⟨hrest, fun holder wake hholder hstage => ?_⟩
      have hlt := lt_of_rest hrest hholder hstage
      rw [nextMoment?_of_pausing hholder hstage hlt] at hmoment
      split at hmoment
      · cases hmoment
      · rename_i hlimit
        exact Nat.max_le.mpr ⟨Nat.le_of_lt hlt, Nat.le_of_not_le hlimit⟩

/-! ## The schedule -/

end

/-- A watcher when time has passed. -/
def waited (w : Watcher σ α) (moment : ℕ) : Watcher σ α :=
  { w with now := moment }

end Watcher
end Uplink
