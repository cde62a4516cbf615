import Mathlib.Data.List.Induction
import Uplink.Proofs.Route.Run

/-!
# Readiness and cycles

A cycle is completed when the run that drives has looked at its last answer.  It belongs to that run.
The watch is ready if and only if the last cycle that the present run completed has found the
interface up and the route in place; what other runs completed does not count, nor what is found by
checks from outside.

What is published is the notes of the checks that are completed, one for each.
-/

namespace Uplink
namespace Route
namespace Watch

open Watcher (Event Holder)

/-- A cycle that is completed. -/
structure Cycle where
  /-- The run that it belongs to. -/
  run : ℕ
  /-- The configuration of the run. -/
  config : Config
  /-- What the shell answered to its commands, the first one first. -/
  answers : List Answer
  /-- What came of it. -/
  status : Status
  /-- The time of its completion. -/
  time : ℕ

/-- The cycle that is completed when the run that drives works. -/
def completed? (w : Watch) : Option Cycle :=
  match w.holder, w.resource.use with
  | some holder, some ⟨.cycle, answers, some answer⟩ =>
    match checkNext holder.args (answers ++ [answer]) with
    | .done status => some ⟨holder.run, holder.args, answers ++ [answer], status, w.now⟩
    | _ => none
  | _, _ => none

/-- The cycle that is completed at a moment. -/
def Moment.cycle? (m : Moment) : Option Cycle :=
  match m.label with
  | .move (.worked _) | .late => m.watch.completed?
  | _ => none

/-- What a call from outside ends with at a moment. -/
def Moment.reply? (m : Moment) : Option Reply :=
  match m.label, m.watch.resource.use with
  | .take call, _ => (m.watch.resource.take call).1
  | .resume, some ⟨.outside call, answers, some answer⟩ =>
    (m.watch.resource.resume answers answer call).1
  | _, _ => none

/-- The notes of the checks that are completed at a moment. -/
def Moment.notes (m : Moment) : List Note :=
  m.cycle?.toList.map (fun cycle => cycle.status.note) ++ m.reply?.toList.flatMap Reply.notes

/-- The cycles that were completed. -/
def cycles (moments : List Moment) : List Cycle :=
  moments.filterMap Moment.cycle?

/-- The cycles that the live run completed. -/
def currentCycles (moments : List Moment) (w : Watch) : List Cycle :=
  (cycles moments).filter fun cycle => w.live = some cycle.run

/-- What makes a cycle ready: two commands were asked for their output and both succeeded, the traffic
has its heading, and a line of the route table has the network for its first column. -/
def Cycle.Found (cycle : Cycle) : Prop :=
  ∃ stats table : CommandOutput, cycle.answers = [.ok stats, .ok table] ∧ stats.code = 0 ∧
    table.code = 0 ∧ Text.contains stats.output statsMark = true ∧
    ∃ line ∈ table.output.toList.splitOn '\n',
      Text.firstColumn? line = some cycle.config.subnet.toList

/-! ## What a check finds -/

section

variable {config : Config} {answers : List Answer} {answer : Answer} {command text : String}
  {status : Status}

theorem told_eq_ok_iff :
    told command answer = .ok text ↔
      ∃ output, answer = .ok output ∧ output.code = 0 ∧ output.output = text := by
  cases answer with
  | error failure => simp [told, OutputCache.keep]
  | ok output =>
      by_cases hcode : output.code = 0
      · simp [told, OutputCache.keep, hcode]
      · simp [told, OutputCache.keep, hcode]

theorem mending_ne_ready (hstatus : status ≠ .ready) :
    mending command status answers ≠ .done .ready := by
  cases answers with
  | nil => exact nofun
  | cons answer answers =>
      intro h
      cases h
      exact hstatus rfl

/-- A check comes out ready on two answers: the traffic of an interface, and a route table that has
the network. -/
theorem checkNext_eq_ready_iff :
    checkNext config answers = .done .ready ↔
      ∃ stats table rest, answers = .ok stats :: .ok table :: rest ∧ stats.code = 0 ∧
        table.code = 0 ∧ Text.contains stats.output statsMark = true ∧
        hasRoute table.output config.subnet = true := by
  constructor
  · intro h
    unfold checkNext at h
    split at h
    · cases h
    · rename_i stats answers
      split at h
      · rename_i heading hstats
        split at h
        · rename_i hmark
          unfold tableNext at h
          split at h
          · cases h
          · rename_i table answers
            split at h
            · rename_i routes htable
              split at h
              · rename_i hroute
                obtain ⟨stats, rfl, hstatsCode, rfl⟩ := told_eq_ok_iff.mp hstats
                obtain ⟨table, rfl, htableCode, rfl⟩ := told_eq_ok_iff.mp htable
                exact ⟨stats, table, answers, rfl, hstatsCode, htableCode, hmark, hroute⟩
              · exact absurd h (mending_ne_ready nofun)
            · cases h
        · cases h
      · split at h
        · exact absurd h (mending_ne_ready nofun)
        · cases h
      · cases h
  · rintro ⟨stats, table, rest, rfl, hstatsCode, htableCode, hmark, hroute⟩
    have hstats : told statsCommand (.ok stats) = .ok stats.output :=
      told_eq_ok_iff.mpr ⟨stats, rfl, hstatsCode, rfl⟩
    have htable : told tableCommand (.ok table) = .ok table.output :=
      told_eq_ok_iff.mpr ⟨table, rfl, htableCode, rfl⟩
    simp only [checkNext, tableNext, hstats, htable, hmark, hroute, if_pos]

/-- Where the next answer is the last one, a check comes out ready on two answers exactly. -/
theorem eq_pair_of_ready (hready : checkNext config (answers ++ [answer]) = .done .ready)
    (hopen : ∀ status, checkNext config answers ≠ .done status) :
    ∃ stats table, answers ++ [answer] = [.ok stats, .ok table] ∧ stats.code = 0 ∧
      table.code = 0 ∧ Text.contains stats.output statsMark = true ∧
      hasRoute table.output config.subnet = true := by
  obtain ⟨stats, table, rest, hanswers, hstatsCode, htableCode, hmark, hroute⟩ :=
    checkNext_eq_ready_iff.mp hready
  refine ⟨stats, table, ?_, hstatsCode, htableCode, hmark, hroute⟩
  cases rest using List.reverseRecOn with
  | nil => exact hanswers
  | append_singleton rest last =>
      -- the check was at its end before
      have hbefore : answers = .ok stats :: .ok table :: rest := by
        rw [← List.cons_append, ← List.cons_append] at hanswers
        exact (List.append_inj' hanswers rfl).1
      exact absurd (checkNext_eq_ready_iff.mpr
        ⟨stats, table, rest, hbefore, hstatsCode, htableCode, hmark, hroute⟩) (hopen .ready)

theorem hasRoute_iff {table subnet : String} :
    hasRoute table subnet = true ↔
      ∃ line ∈ table.toList.splitOn '\n', Text.firstColumn? line = some subnet.toList := by
  simp [hasRoute]

end

/-! ## What a part of a cycle shows -/

/-- What is shown of the end of a cycle. -/
def deedOf : Option Cycle → Watcher.Deed
  | none => {}
  | some cycle => { notes := [cycle.status.note], ready := some (cycle.status = .ready) }

section

variable {w next : Watch} {holder : Holder Config} {cycle : Cycle} {s : Station}
  {deed : Watcher.Deed} {event : Event} {label : Label} {m : Moment} {moments : List Moment}
  {tokens : Watcher.Tokens}

theorem completed?_eq_some_iff :
    w.completed? = some cycle ↔
      ∃ holder answers answer status, w.holder = some holder ∧
        w.resource.use = some ⟨.cycle, answers, some answer⟩ ∧
        checkNext holder.args (answers ++ [answer]) = .done status ∧
        cycle = ⟨holder.run, holder.args, answers ++ [answer], status, w.now⟩ := by
  unfold completed?
  constructor
  · intro h
    split at h
    · rename_i holder answers answer hholder huse
      split at h
      · rename_i status hnext
        cases h
        exact ⟨holder, answers, answer, status, hholder, huse, hnext, rfl⟩
      · cases h
    · cases h
  · rintro ⟨holder, answers, answer, status, hholder, huse, hnext, rfl⟩
    simp only [hholder, huse, hnext]

theorem completed?_of_free (huse : w.resource.use = none) : w.completed? = none := by
  simp [completed?, huse]

theorem completed?_of_open {answers : List Answer} {answer : Answer}
    (hholder : w.holder = some holder)
    (huse : w.resource.use = some ⟨.cycle, answers, some answer⟩)
    (hopen : ∀ status, checkNext holder.args (answers ++ [answer]) ≠ .done status) :
    w.completed? = none := by
  rw [Option.eq_none_iff_forall_ne_some]
  intro cycle hcycle
  obtain ⟨other, _, _, status, hother, huse', hdone, -⟩ := completed?_eq_some_iff.mp hcycle
  cases hholder.symm.trans hother
  cases huse.symm.trans huse'
  exact hopen status hdone

/-- A part of a cycle shows nothing, unless it is the end. -/
theorem deed_of_part (hholder : w.holder = some holder)
    (hpart : Station.Part holder.args w.now w.resource s deed) : deed = deedOf w.completed? := by
  cases hpart with
  | begins huse _ _ _ =>
      rw [completed?_of_free huse]
      rfl
  | goesOn huse hopen _ _ =>
      rw [completed?_of_open hholder huse hopen]
      rfl
  | ends huse hdone _ _ =>
      rw [completed?_eq_some_iff.mpr ⟨holder, _, _, _, hholder, huse, hdone, rfl⟩]
      rfl

/-- Who works publishes the note of the cycle that is completed. -/
theorem notes_work (hholder : w.holder = some holder)
    (hpart : Station.Part holder.args w.now w.resource s deed) :
    ((w.withResource s).display holder.run deed).notes =
      w.notes.publishAll (w.completed?.toList.map fun cycle => cycle.status.note) := by
  rw [Watcher.display_notes, deed_of_part hholder hpart]
  cases w.completed? <;> rfl

/-- What is published at a moment is the notes of the checks that are completed. -/
theorem Step.notes (h : Step w label next) (hkept : Kept w) :
    next.notes = w.notes.publishAll (Moment.notes ⟨w, label⟩) := by
  cases h with
  | start config =>
      unfold Watcher.start
      split <;> rfl
  | stop =>
      unfold Watcher.stop
      split <;> rfl
  | time | answered | abandon | checkReady => rfl
  | take | @resume call answers answer huse =>
      simp only [Moment.notes, Moment.cycle?, Moment.reply?, reply, *]
      rfl
  | move hmove =>
      cases move_of_step hkept hmove with
      | work hholder _ hpart =>
          rw [notes_work hholder hpart]
          simp [Moment.notes, Moment.cycle?, Moment.reply?]
      | giveUp | turn | leave | acquire | interrupt | release => rfl
  | late hholder _ _ hdrive =>
      rw [notes_work hholder (Station.part_of_drive hdrive)]
      simp [Moment.notes, Moment.cycle?, Moment.reply?]

/-! ## The state and the cycles of the live run -/

theorem cycles_concat (moments : List Moment) (m : Moment) :
    cycles (moments ++ [m]) = cycles moments ++ m.cycle?.toList := by
  rw [cycles, List.filterMap_append]
  cases hcycle : m.cycle? with
  | none => simp [cycles, hcycle]
  | some cycle => simp [cycles, hcycle]

theorem currentCycles_concat (hlive : next.live = w.live) :
    currentCycles (moments ++ [m]) next =
      currentCycles moments w ++ m.cycle?.toList.filter fun cycle => w.live = some cycle.run := by
  rw [currentCycles, cycles_concat, List.filter_append, hlive]
  rfl

/-- The state is true to the last cycle of the live run. -/
structure Faithful (moments : List Moment) (w : Watch) : Prop where
  ready : w.state = .ready ↔
    ∃ cycle, (currentCycles moments w).getLast? = some cycle ∧ cycle.status = .ready
  lt : ∀ cycle ∈ cycles moments, cycle.run < w.starts

theorem Faithful.of_same (h : Faithful moments w) (hcycle : m.cycle? = none)
    (hstate : next.state = w.state) (hlive : next.live = w.live) (hstarts : next.starts = w.starts) :
    Faithful (moments ++ [m]) next := by
  constructor
  case ready =>
    rw [hstate, currentCycles_concat hlive, hcycle]
    simpa using h.ready
  case lt =>
    rw [cycles_concat, hcycle, hstarts]
    simpa using h.lt

/-- Where no cycle belongs to the live run, the watch is not ready. -/
theorem Faithful.of_none (h : Faithful moments w) (hcycle : m.cycle? = none)
    (hstate : next.state ≠ .ready) (hlive : ∀ run, next.live = some run → w.starts ≤ run)
    (hstarts : w.starts ≤ next.starts) : Faithful (moments ++ [m]) next := by
  have hcycles : cycles (moments ++ [m]) = cycles moments := by
    rw [cycles_concat, hcycle]
    exact List.append_nil _
  have hnone : currentCycles (moments ++ [m]) next = [] := by
    rw [currentCycles, hcycles, List.filter_eq_nil_iff]
    intro cycle hmem hrun
    have hle := hlive cycle.run (of_decide_eq_true hrun)
    exact Nat.not_lt.mpr hle (h.lt cycle hmem)
  constructor
  case ready => simp [hnone, hstate]
  case lt =>
    rw [hcycles]
    exact fun cycle hmem => Nat.lt_of_lt_of_le (h.lt cycle hmem) hstarts

/-- Work sets the state by the cycle that is completed, if its run is live. -/
theorem Faithful.work (h : Faithful moments w) (horderly : Watcher.Orderly tokens w)
    (hholder : w.holder = some holder)
    (hpart : Station.Part holder.args w.now w.resource s deed) (hcycle : m.cycle? = w.completed?) :
    Faithful (moments ++ [m]) ((w.withResource s).display holder.run deed) := by
  have hlive : ((w.withResource s).display holder.run deed).live = w.live :=
    Watcher.display_live ..
  have hstarts : ((w.withResource s).display holder.run deed).starts = w.starts :=
    Watcher.display_starts ..
  have hdeed := deed_of_part hholder hpart
  cases hcompleted : w.completed? with
  | none =>
      rw [hcompleted] at hdeed hcycle
      refine h.of_same hcycle ?_ hlive hstarts
      rw [hdeed]
      rfl
  | some cycle =>
      rw [hcompleted] at hdeed hcycle
      obtain ⟨other, _, _, _, hother, -, -, hrun⟩ := completed?_eq_some_iff.mp hcompleted
      cases hholder.symm.trans hother
      have hrun : cycle.run = holder.run := congrArg Cycle.run hrun
      have hpresent : holder.run ∈ w.present := by simp [Watcher.present, hholder]
      constructor
      case ready =>
        rw [currentCycles_concat hlive, hcycle]
        by_cases hcurrent : w.live = some holder.run
        · have hstarted : w.started = true := by
            rw [horderly.started, hcurrent]
            rfl
          rw [Watcher.display_state_of_live (w := w.withResource s) hcurrent hstarted
            (congrArg Watcher.Deed.ready hdeed)]
          simp [hcurrent, hrun]
        · -- the run was stopped, so the state is not its own any more
          have hcancelled : (w.withResource s).isCancelled holder.run = true :=
            Watcher.isCancelled_iff.mpr hcurrent
          have hother : w.live ≠ some cycle.run := hrun ▸ hcurrent
          rw [Watcher.display_state_of_isCancelled hcancelled]
          simpa [hother, Watcher.withResource] using h.ready
      case lt =>
        rw [cycles_concat, hcycle, hstarts]
        intro other hmem
        rcases List.mem_append.mp hmem with hmem | hmem
        · exact h.lt other hmem
        · rw [List.mem_singleton.mp hmem, hrun]
          exact horderly.lt _ hpresent

theorem Step.faithful (h : Step w label next) (hkept : Kept w)
    (horderly : Watcher.Orderly tokens w) (hfaithful : Faithful moments w) :
    Faithful (moments ++ [⟨w, label⟩]) next := by
  cases h with
  | start config =>
      unfold Watcher.start
      split
      · exact hfaithful.of_same rfl rfl rfl rfl
      · refine hfaithful.of_none rfl nofun ?_ (Nat.le_succ _)
        rintro _ ⟨⟩
        exact Nat.le_refl _
  | stop =>
      unfold Watcher.stop
      split
      · exact hfaithful.of_none rfl nofun nofun (Nat.le_refl _)
      · exact hfaithful.of_same rfl rfl rfl rfl
  | time | answered | take | resume | abandon | checkReady =>
      exact hfaithful.of_same rfl rfl rfl rfl
  | move hmove =>
      cases move_of_step hkept hmove with
      | work hholder _ hpart => exact hfaithful.work horderly hholder hpart rfl
      | giveUp | turn | leave | acquire | interrupt | release =>
          exact hfaithful.of_same rfl rfl rfl rfl
  | late hholder _ _ hdrive =>
      exact hfaithful.work horderly hholder (Station.part_of_drive hdrive) rfl

/-- What comes from outside leaves the state as it is. -/
theorem Step.state_of_isOutside (h : Step w label next) (houtside : label.IsOutside) :
    next.state = w.state := by
  cases h with
  | take | resume | abandon | checkReady => rfl
  | start | stop | time | move | late | answered => exact houtside.elim

/-! ## Whose cycles they are -/

/-- A run was started with a configuration. -/
def StartOf (moments : List Moment) (run : ℕ) (config : Config) : Prop :=
  ∃ m ∈ moments, m.label = .start config true ∧ m.watch.starts = run

theorem StartOf.concat {run : ℕ} {config : Config} (h : StartOf moments run config) :
    StartOf (moments ++ [m]) run config := by
  obtain ⟨m', hmem, hm'⟩ := h
  exact ⟨m', List.mem_append_left _ hmem, hm'⟩

/-- Every run that is there was started with its configuration. -/
structure Begun (moments : List Moment) (w : Watch) : Prop where
  waiting : ∀ entry ∈ w.waiting, StartOf moments entry.1 entry.2
  holder : ∀ holder, w.holder = some holder → StartOf moments holder.run holder.args

theorem Begun.of_subset (h : Begun moments w) (hwaiting : next.waiting ⊆ w.waiting)
    (hholder : ∀ holder, next.holder = some holder →
      (holder.run, holder.args) ∈ w.waiting ∨
        ∃ before, w.holder = some before ∧ before.run = holder.run ∧ before.args = holder.args) :
    Begun (moments ++ [m]) next where
  waiting entry hmem := (h.waiting entry (hwaiting hmem)).concat
  holder holder hsome := by
    rcases hholder holder hsome with hmem | ⟨before, hbefore, hrun, hargs⟩
    · exact (h.waiting _ hmem).concat
    · rw [← hrun, ← hargs]
      exact (h.holder before hbefore).concat

theorem Begun.of_same (h : Begun moments w) (hwaiting : next.waiting = w.waiting)
    (hholder : next.holder = w.holder) : Begun (moments ++ [m]) next := by
  refine h.of_subset (fun _ => by rw [hwaiting]; exact id) ?_
  intro holder hsome
  exact .inr ⟨holder, hholder.symm.trans hsome, rfl, rfl⟩

theorem Move.begun (h : Move w event next) (hbegun : Begun moments w) :
    Begun (moments ++ [m]) next := by
  have hmiddle : ∀ {earlier later : List (ℕ × Config)} {entry : ℕ × Config},
      w.waiting = earlier ++ entry :: later → earlier ++ later ⊆ w.waiting := by
    intro earlier later entry hwaiting
    rw [hwaiting]
    exact ((List.sublist_cons_self entry later).append_left earlier).subset
  cases h with
  | giveUp hwaiting _ =>
      exact hbegun.of_subset (hmiddle hwaiting) fun holder hsome => .inr ⟨holder, hsome, rfl, rfl⟩
  | turn hwaiting _ _ =>
      refine hbegun.of_subset (hmiddle hwaiting) ?_
      rintro _ ⟨⟩
      exact .inl (by simp [hwaiting])
  | leave | release => exact hbegun.of_subset (fun _ => id) nofun
  | acquire hholder _ | interrupt hholder _ =>
      refine hbegun.of_subset (fun _ => id) ?_
      rintro _ ⟨⟩
      exact .inr ⟨_, hholder, rfl, rfl⟩
  | work => exact hbegun.of_same (Watcher.display_waiting ..) (Watcher.display_holder ..)

theorem Step.begun (h : Step w label next) (hkept : Kept w) (hbegun : Begun moments w) :
    Begun (moments ++ [⟨w, label⟩]) next := by
  cases h with
  | start config =>
      unfold Watcher.start
      split
      · exact hbegun.of_same rfl rfl
      · rename_i hidle
        constructor
        case waiting =>
          intro entry hmem
          rcases List.mem_append.mp hmem with hmem | hmem
          · exact (hbegun.waiting entry hmem).concat
          · rw [List.mem_singleton.mp hmem]
            refine ⟨_, List.mem_append_right _ List.mem_cons_self, ?_, rfl⟩
            rfl
        case holder => exact fun holder hsome => (hbegun.holder holder hsome).concat
  | stop =>
      unfold Watcher.stop
      split <;> exact hbegun.of_same rfl rfl
  | move hmove => exact (move_of_step hkept hmove).begun hbegun
  | late => exact hbegun.of_same (Watcher.display_waiting ..) (Watcher.display_holder ..)
  | time | answered | take | resume | abandon | checkReady => exact hbegun.of_same rfl rfl

/-- A cycle that is completed is one of the run that drives, and is ready if and only if it found
everything in place. -/
theorem found_iff_of_completed (hkept : Kept w) (hbegun : Begun moments w)
    (h : w.completed? = some cycle) :
    (cycle.status = .ready ↔ cycle.Found) ∧ StartOf moments cycle.run cycle.config := by
  obtain ⟨holder, answers, answer, status, hholder, huse, hdone, rfl⟩ :=
    completed?_eq_some_iff.mp h
  refine ⟨?_, hbegun.holder holder hholder⟩
  obtain ⟨other, hother, -, hopen⟩ := hkept.cycle _ _ huse
  cases hholder.symm.trans hother
  constructor
  · rintro rfl
    obtain ⟨stats, table, hanswers, hstats, htable, hmark, hroute⟩ := eq_pair_of_ready hdone hopen
    exact ⟨stats, table, hanswers, hstats, htable, hmark, hasRoute_iff.mp hroute⟩
  · rintro ⟨stats, table, hanswers, hstats, htable, hmark, hline⟩
    have hready := checkNext_eq_ready_iff.mpr
      ⟨stats, table, [], hanswers, hstats, htable, hmark, hasRoute_iff.mpr hline⟩
    cases hdone.symm.trans hready
    rfl

theorem cycle?_eq_some (h : m.cycle? = some cycle) : m.watch.completed? = some cycle := by
  unfold Moment.cycle? at h
  split at h
  · exact h
  · exact h
  · cases h

end

section

variable {first last : Watch} {moments : List Moment}

theorem Fresh.faithful (h : Fresh first) : Faithful [] first where
  ready := by simp [currentCycles, cycles, h.watcher.state]
  lt := by simp [cycles]

theorem Run.faithful (h : Run first moments last) (hfresh : Fresh first) :
    Faithful moments last := by
  induction h with
  | nil => exact hfresh.faithful
  | snoc hrun hstep ih =>
      obtain ⟨tokens, horderly⟩ := hrun.orderly hfresh
      exact hstep.faithful (hrun.kept hfresh) horderly ih

theorem Run.begun (h : Run first moments last) (hfresh : Fresh first) : Begun moments last := by
  induction h with
  | nil => exact ⟨by simp [hfresh.watcher.waiting], by simp [hfresh.watcher.holder]⟩
  | snoc hrun hstep ih => exact hstep.begun (hrun.kept hfresh) ih

/-- Every cycle belongs to a run that was started with its configuration, and is ready if and only if
it found everything in place. -/
theorem Run.found_iff (h : Run first moments last) (hfresh : Fresh first) :
    ∀ cycle ∈ cycles moments,
      (cycle.status = .ready ↔ cycle.Found) ∧ StartOf moments cycle.run cycle.config := by
  induction h with
  | nil => simp [cycles]
  | @snoc last next moments label hrun hstep ih =>
      intro cycle hmem
      rw [cycles_concat] at hmem
      have hone : (cycle.status = .ready ↔ cycle.Found) ∧
          StartOf moments cycle.run cycle.config := by
        rcases List.mem_append.mp hmem with hmem | hmem
        · exact ih cycle hmem
        · have hcompleted := cycle?_eq_some (Option.mem_toList.mp hmem)
          exact found_iff_of_completed (hrun.kept hfresh) (hrun.begun hfresh) hcompleted
      exact ⟨hone.1, hone.2.concat⟩

/-- What was published is the notes of the checks that were completed. -/
theorem Run.notes (h : Run first moments last) (hfresh : Fresh first) :
    last.notes = first.notes.publishAll (moments.flatMap Moment.notes) := by
  induction h with
  | nil => rfl
  | snoc hrun hstep ih =>
      rw [hstep.notes (hrun.kept hfresh), ih]
      simp [Feed.publishAll]

end
end Watch
end Route
end Uplink
