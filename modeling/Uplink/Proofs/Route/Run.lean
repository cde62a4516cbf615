import Uplink.Proofs.Watcher.Readiness
import Uplink.Route.Station

/-!
# Runs of a route over a slow shell

The watcher of a route is started and stopped, time passes, the watcher moves, the shell answers, and
calls come from outside, in any order that the one checker allows.  A run that was stopped may do a
little more before it is interrupted; nobody can tell when it is.

Over such a checker a watcher has few moves: a run takes its turn, acquires the checker at once, goes
from one part of a cycle to the next, and is interrupted in the end.  It never fails and never pauses.
-/

namespace Uplink
namespace Route
namespace Station

/-- No cycle has the checker. -/
def NoCycle (s : Station) : Prop :=
  ∀ answers answer, s.use ≠ some ⟨.cycle, answers, answer⟩

section

variable {ρ : Type} {s : Station}

theorem NoCycle.of_none (h : s.use = none) : s.NoCycle := by
  simp [NoCycle, h]

theorem Proceeded.outside {nextCheck : ℕ} {call : Call} {answers : List Answer} {step : Next ρ}
    {outcome : Option ρ × Station} (h : Proceeded nextCheck (.outside call) answers step outcome) :
    outcome.2.NoCycle ∧ outcome.2.nextCheck = nextCheck := by
  cases h with
  | goesOn _ huse hcheck => exact ⟨by simp [NoCycle, huse], hcheck⟩
  | ends _ huse hcheck => exact ⟨.of_none huse, hcheck⟩

/-- A call from outside has the checker for itself, and does not put off a cycle. -/
theorem noCycle_take (s : Station) (call : Call) :
    (s.take call).2.NoCycle ∧ (s.take call).2.nextCheck = s.nextCheck := by
  cases call with
  | check config =>
      exact (proceeded_proceed s (.outside (.check config)) (fun _ => checkNext config) []).outside
  | output key command anew =>
      exact (proceeded_proceed s (.outside (.output key command anew))
        (outputNext key command anew) []).outside

theorem noCycle_resume (s : Station) (answers : List Answer) (answer : Answer) (call : Call) :
    (s.resume answers answer call).2.NoCycle ∧
      (s.resume answers answer call).2.nextCheck = s.nextCheck := by
  cases call with
  | check config =>
      exact (proceeded_hear s (.outside (.check config)) (fun _ => checkNext config) answers
        answer).outside
  | output key command anew =>
      exact (proceeded_hear s (.outside (.output key command anew)) (outputNext key command anew)
        answers answer).outside

/-- A run that is interrupted lets its cycle go. -/
theorem noCycle_enter_release (s : Station) (run : ℕ) (config : Config) (now : ℕ) :
    (enter .release run config now s).NoCycle := by
  unfold enter
  split
  · contradiction
  · exact .of_none rfl
  · rename_i hother
    exact fun answers answer huse => hother answers answer rfl huse

end
end Station

namespace Watch

open Watcher (Event Stage Holder)

/-- What happens to a watch: calls of its owner with their success, its own moves, work of a run that
was stopped and not interrupted yet, answers of the shell, and the calls from outside. -/
inductive Label where
  | start (config : Config) (success : Bool)
  | stop (success : Bool)
  | time (moment : ℕ)
  | move (event : Event)
  | late
  | answered (answer : Answer)
  | take (call : Call)
  | resume
  | abandon
  | checkReady

/-- The calls from outside, and what becomes of them. -/
def Label.IsOutside : Label → Prop
  | .take _ | .resume | .abandon | .checkReady => True
  | _ => False

/-- One thing that may happen to a watch. -/
inductive Step : Watch → Label → Watch → Prop where
  | start (w : Watch) (config : Config) :
      Step w (.start config (w.start config).1.isOk) (w.start config).2
  | stop (w : Watch) : Step w (.stop w.stop.1.isOk) w.stop.2
  | time {w : Watch} {moment : ℕ} : w.now ≤ moment → Step w (.time moment) { w with now := moment }
  | move {w next : Watch} {event : Event} :
      Watcher.Step Station.resource w (.move event) next → Step w (.move event) next
  | late {w : Watch} {holder : Holder Config} {s : Station} {deed : Watcher.Deed} :
      w.holder = some holder → holder.stage = .driving → w.isCancelled holder.run = true →
      w.resource.drive holder.args w.now = .work s deed →
        Step w .late ((w.withResource s).display holder.run deed)
  | answered {w : Watch} {use : Use} (answer : Answer) :
      w.resource.use = some use → use.answer = none →
        Step w (.answered answer) (w.withResource (w.resource.answered use answer))
  | take {w : Watch} (call : Call) : w.resource.use = none →
      Step w (.take call) (w.reply (w.resource.take call))
  | resume {w : Watch} {call : Call} {answers : List Answer} {answer : Answer} :
      w.resource.use = some ⟨.outside call, answers, some answer⟩ →
        Step w .resume (w.reply (w.resource.resume answers answer call))
  | abandon {w : Watch} {call : Call} {answers : List Answer} {answer : Option Answer} :
      w.resource.use = some ⟨.outside call, answers, answer⟩ →
        Step w .abandon (w.withResource w.resource.leave)
  | checkReady (w : Watch) : Step w .checkReady w

/-- A watch, and what happens to it next. -/
structure Moment where
  watch : Watch
  label : Label

/-- A row of things that happen to a watch. -/
inductive Run : Watch → List Moment → Watch → Prop where
  | nil (w : Watch) : Run w [] w
  | snoc {first last next : Watch} {moments : List Moment} {label : Label} :
      Run first moments last → Step last label next → Run first (moments ++ [⟨last, label⟩]) next

/-- A watch that was never started, with nobody at the checker. -/
structure Fresh (w : Watch) : Prop where
  watcher : Watcher.Fresh w
  use : w.resource.use = none

/-- Nothing is to be done at the moment, and nobody waits for the shell. -/
structure AtRest (w : Watch) : Prop where
  move : w.move? Station.resource = none
  use : w.resource.use = none

/-- Time passes only at rest, and not beyond the next moment with a move. -/
def Moment.Prompt (m : Moment) : Prop :=
  ∀ moment, m.label = .time moment →
    m.watch.AtRest ∧ ∀ due, m.watch.due? Station.resource = some due → moment ≤ due

/-! ## The moves -/

/-- The moves of a watch. -/
inductive Move (w : Watch) : Event → Watch → Prop where
  | giveUp {earlier later : List (ℕ × Config)} {run : ℕ} {args : Config} :
      w.waiting = earlier ++ (run, args) :: later → w.isCancelled run = true →
        Move w (.gaveUp run) { w with waiting := earlier ++ later }
  | turn {earlier later : List (ℕ × Config)} {run : ℕ} {args : Config} :
      w.waiting = earlier ++ (run, args) :: later → w.isCancelled run = false → w.holder = none →
        Move w (.attempted run)
          { w with waiting := earlier ++ later, holder := some ⟨run, args, .acquiring⟩ }
  | leave {run : ℕ} {args : Config} : w.holder = some ⟨run, args, .acquiring⟩ →
      w.isCancelled run = true → Move w (.left run) { w with holder := none }
  | acquire {run : ℕ} {args : Config} : w.holder = some ⟨run, args, .acquiring⟩ →
      w.isCancelled run = false →
        Move w (.acquired run)
          { w with
            resource := { w.resource with nextCheck := w.now }
            holder := some ⟨run, args, .driving⟩ }
  | work {run : ℕ} {args : Config} {s : Station} {deed : Watcher.Deed} :
      w.holder = some ⟨run, args, .driving⟩ → w.isCancelled run = false →
      Station.Part args w.now w.resource s deed →
        Move w (.worked run) ((w.withResource s).display run deed)
  | interrupt {run : ℕ} {args : Config} : w.holder = some ⟨run, args, .driving⟩ →
      w.isCancelled run = true →
        Move w (.ended run .interrupted)
          { w with
            resource := Station.enter .release run args w.now w.resource
            holder := some ⟨run, args, .releasing .interrupted⟩ }
  | release {run : ℕ} {args : Config} : w.holder = some ⟨run, args, .releasing .interrupted⟩ →
      Move w (.released run .interrupted) { w with holder := none }

/-- What is so of the run whose turn it is, and of the cycle that has the checker.  The run has not
failed, so it neither pauses nor ends in any other way than by a stop.  The cycle is one of the run
that drives, and it is not at its end. -/
structure Kept (w : Watch) : Prop where
  stage : ∀ holder, w.holder = some holder →
    holder.stage = .acquiring ∨ holder.stage = .driving ∨ holder.stage = .releasing .interrupted
  cycle : ∀ answers answer, w.resource.use = some ⟨.cycle, answers, answer⟩ →
    ∃ holder, w.holder = some holder ∧ holder.stage = .driving ∧
      ∀ status, checkNext holder.args answers ≠ .done status

section

variable {w next : Watch} {event : Event} {label : Label} {holder : Holder Config} {task : Watcher.Task}
  {config : Config} {now : ℕ} {permit : Bool} {s s' : Station} {deed : Watcher.Deed} {success : Bool}

theorem act_eq_work (h : Station.resource.act task config now permit s = .work s' deed) :
    task = .drive ∧ s.drive config now = .work s' deed := by
  cases task with
  | drive => exact ⟨rfl, h⟩
  | acquire | release => cases h

theorem act_eq_finish (h : Station.resource.act task config now permit s = .finish s' success) :
    task ≠ .drive ∧ s' = s ∧ success = true := by
  cases task with
  | acquire | release =>
      cases h
      exact ⟨nofun, rfl, rfl⟩
  | drive =>
      have hdrive : s.drive config now = .finish s' success := h
      unfold Station.drive at hdrive
      split at hdrive
      · split at hdrive <;> cases hdrive
      · generalize s.hear .cycle (fun _ => checkNext config) _ _ = heard at hdrive
        obtain ⟨status | status, s⟩ := heard <;> cases hdrive
      · cases hdrive
      · cases hdrive

/-- A move of a watcher over the checker is one of these. -/
theorem move_of_step (hkept : Kept w) (h : Watcher.Step Station.resource w (.move event) next) :
    Move w event next := by
  cases h with
  | giveUp hwaiting hcancelled => exact .giveUp hwaiting hcancelled
  | turn hwaiting hlive hholder => exact .turn hwaiting hlive hholder
  | @holder _ holder _ hholder hmove =>
      obtain ⟨run, args, stage⟩ := holder
      have hstages := hkept.stage _ hholder
      cases Watcher.holderStep_of_holderMove? hmove with
      | leave hcancelled hstage =>
          rcases hstage with rfl | ⟨wake, rfl⟩
          · exact .leave hholder hcancelled
          · simp at hstages
      | work htask hcancelled hact =>
          obtain ⟨rfl, hdrive⟩ := act_eq_work hact
          have hlive : w.isCancelled run = false :=
            eq_false_of_ne_true fun h => nomatch hcancelled h
          have hstage : stage = .driving := by
            rcases hstages with rfl | rfl | rfl
            · cases htask
            · rfl
            · cases htask
          subst hstage
          exact .work hholder hlive (Station.part_of_drive hdrive)
      | acquire hstage hlive hact =>
          obtain ⟨-, rfl, -⟩ := act_eq_finish hact
          cases hstage
          exact .acquire hholder hlive
      | refuse _ _ hact => cases (act_eq_finish hact).2.2
      | interrupt hstage hcancelled =>
          cases hstage
          exact .interrupt hholder hcancelled
      | finish _ _ hact => exact absurd rfl (act_eq_finish hact).1
      | release hstage hact =>
          obtain ⟨-, rfl, -⟩ := act_eq_finish hact
          cases hstage
          obtain ⟨rfl⟩ : _ = Watcher.Ending.interrupted := by simpa using hstages
          exact .release hholder
      | retry hstage _ _ =>
          cases hstage
          simp at hstages

/-! ## What is kept -/

theorem Kept.of_same (h : Kept w) (hholder : next.holder = w.holder)
    (hresource : next.resource = w.resource) : Kept next where
  stage := hholder ▸ h.stage
  cycle := by
    rw [hholder, hresource]
    exact h.cycle

theorem Kept.of_noCycle (h : Kept w) (hholder : next.holder = w.holder)
    (hresource : next.resource.NoCycle) : Kept next where
  stage := hholder ▸ h.stage
  cycle answers answer huse := absurd huse (hresource answers answer)

/-- The checker is not used by a cycle while no run drives. -/
theorem Kept.noCycle (h : Kept w) (hholder : ∀ holder, w.holder = some holder →
    holder.stage ≠ .driving) : w.resource.NoCycle := by
  intro answers answer huse
  obtain ⟨holder, hsome, hstage, -⟩ := h.cycle answers answer huse
  exact hholder holder hsome hstage

/-- A part of a cycle is done by the run that drives. -/
theorem Kept.work (h : Kept w) (hholder : w.holder = some holder) (hstage : holder.stage = .driving)
    (hpart : Station.Part holder.args w.now w.resource s deed) :
    Kept ((w.withResource s).display holder.run deed) := by
  have hholder' : ((w.withResource s).display holder.run deed).holder = some holder :=
    (Watcher.display_holder ..).trans hholder
  constructor
  case stage => exact fun other hother => h.stage other (hholder.trans (hholder'.symm.trans hother))
  case cycle =>
    intro answers answer huse
    rw [Watcher.display_resource] at huse
    refine ⟨holder, hholder', hstage, ?_⟩
    cases hpart with
    | begins _ _ huse' _ =>
        cases huse'.symm.trans huse
        exact nofun
    | goesOn _ hnext huse' _ =>
        cases huse'.symm.trans huse
        exact hnext
    | ends _ _ huse' _ => cases huse'.symm.trans huse

theorem Move.kept (h : Move w event next) (hkept : Kept w) : Kept next := by
  cases h with
  | giveUp => exact hkept.of_same rfl rfl
  | turn _ _ hholder =>
      constructor
      case stage =>
        rintro _ ⟨⟩
        exact .inl rfl
      case cycle =>
        intro answers answer huse
        exact absurd huse (hkept.noCycle (by simp [hholder]) answers answer)
  | leave hholder | release hholder =>
      constructor
      case stage => nofun
      case cycle =>
        intro answers answer huse
        exact absurd huse (hkept.noCycle (by simp [hholder]) answers answer)
  | acquire hholder _ =>
      constructor
      case stage =>
        rintro _ ⟨⟩
        exact .inr (.inl rfl)
      case cycle =>
        intro answers answer huse
        exact absurd huse (hkept.noCycle (by simp [hholder]) answers answer)
  | work hholder _ hpart => exact hkept.work hholder rfl hpart
  | @interrupt run args _ _ =>
      constructor
      case stage =>
        rintro _ ⟨⟩
        exact .inr (.inr rfl)
      case cycle =>
        intro answers answer huse
        exact absurd huse (Station.noCycle_enter_release _ run args _ answers answer)

theorem Step.kept (h : Step w label next) (hkept : Kept w) : Kept next := by
  cases h with
  | start config =>
      unfold Watcher.start
      split <;> exact hkept.of_same rfl rfl
  | stop =>
      unfold Watcher.stop
      split <;> exact hkept.of_same rfl rfl
  | time | checkReady => exact hkept.of_same rfl rfl
  | move hmove => exact (move_of_step hkept hmove).kept hkept
  | late hholder hstage _ hdrive => exact hkept.work hholder hstage (Station.part_of_drive hdrive)
  | @answered use answer huse hanswer =>
      constructor
      case stage => exact hkept.stage
      case cycle =>
        obtain ⟨user, answers, _⟩ := use
        rintro _ _ ⟨⟩
        exact hkept.cycle _ _ huse
  | take call huse => exact hkept.of_noCycle rfl (Station.noCycle_take _ call).1
  | resume huse => exact hkept.of_noCycle rfl (Station.noCycle_resume _ _ _ _).1
  | abandon huse => exact hkept.of_noCycle rfl (.of_none rfl)

/-- The live run is there, once, and its number is new. -/
theorem Step.orderly {tokens : Watcher.Tokens} (h : Step w label next)
    (horderly : Watcher.Orderly tokens w) : ∃ tokens, Watcher.Orderly tokens next := by
  cases h with
  | start config => exact ⟨_, horderly.start config⟩
  | stop => exact ⟨_, horderly.stop⟩
  | move hmove => exact ⟨_, horderly.step hmove⟩
  | late hholder hstage hcancelled hdrive =>
      refine ⟨tokens, horderly.of_same ?_ ?_ ?_ ?_ ?_⟩
      · exact Watcher.display_live ..
      · exact Watcher.display_starts ..
      · exact Watcher.started_display _ horderly.started
      · exact Watcher.display_holder ..
      · exact Watcher.display_waiting ..
  | time | answered | take | resume | abandon | checkReady =>
      exact ⟨tokens, horderly.of_same rfl rfl rfl rfl rfl⟩

end

section

variable {first last : Watch} {moments : List Moment}

theorem Fresh.kept (h : Fresh first) : Kept first where
  stage := by simp [h.watcher.holder]
  cycle := by simp [h.use]

theorem Run.kept (h : Run first moments last) (hfresh : Fresh first) : Kept last := by
  induction h with
  | nil => exact hfresh.kept
  | snoc _ hstep ih => exact hstep.kept ih

theorem Run.orderly (h : Run first moments last) (hfresh : Fresh first) :
    ∃ tokens, Watcher.Orderly tokens last := by
  induction h with
  | nil => exact ⟨_, .of_fresh hfresh.watcher⟩
  | snoc _ hstep ih =>
      obtain ⟨tokens, horderly⟩ := ih
      exact hstep.orderly horderly

end
end Watch
end Route
end Uplink
