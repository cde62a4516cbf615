import Mathlib.Data.List.Nodup
import Uplink.Proofs.Route.Readiness

/-!
# Cycles at a fixed interval

Where the shell answers at once and the watch is prompt, nobody has the checker while time passes.
Then a run completes a cycle at the time of its start, and again each time the interval is over.
What comes from outside, and what is left of earlier runs, does not change these times.
-/

namespace Uplink
namespace Route
namespace Watch

open Watcher (Event Holder)

/-- The times of some cycles that begin at a time and follow each other at an interval. -/
def grid (start interval count : ℕ) : List ℕ :=
  (List.range count).map fun k => start + k * interval

/-- How far a run is that was started at a time, and the times of its cycles so far. -/
inductive OnTime (start run : ℕ) (config : Config) (times : List ℕ) (w : Watch) : Prop where
  | waiting (mem : (run, config) ∈ w.waiting) (times : times = []) (now : w.now = start)
  | acquiring (holder : w.holder = some ⟨run, config, .acquiring⟩) (times : times = [])
      (now : w.now = start)
  | driving (count : ℕ) (holder : w.holder = some ⟨run, config, .driving⟩)
      (times : times = grid start config.interval.toNat count)
      (next : w.resource.nextCheck = start + count * config.interval.toNat)
      (ge : start ≤ w.now) (le : w.now ≤ w.resource.nextCheck)
      (since : w.resource.nextCheck ≤ w.now + config.interval.toNat)
      (busy : ∀ answers answer, w.resource.use = some ⟨.cycle, answers, answer⟩ →
        w.now = w.resource.nextCheck)

theorem grid_succ (start interval count : ℕ) :
    grid start interval (count + 1) = grid start interval count ++ [start + count * interval] := by
  simp [grid, List.range_succ]

section

variable {w next : Watch} {holder : Holder Config} {event : Event} {label : Label} {run start : ℕ}
  {config : Config} {times : List ℕ} {moments : List Moment} {tokens : Watcher.Tokens}

/-! ## Rest -/

/-- At rest the run whose turn it is is live, and drives. -/
theorem driving_of_atRest (hkept : Kept w) (hrest : w.AtRest) (hholder : w.holder = some holder) :
    w.live = some holder.run ∧ holder.stage = .driving := by
  have hmove := Watcher.holderMove?_of_rest hrest.move hholder
  rcases hkept.stage holder hholder with hstage | hstage | hstage
  · rw [Watcher.holderMove?, hstage] at hmove
    dsimp only at hmove
    split at hmove <;> cases hmove
  · rw [Watcher.holderMove?, hstage] at hmove
    dsimp only at hmove
    split at hmove
    · cases hmove
    · rename_i hlive
      exact ⟨Watcher.live_of_not_isCancelled (eq_false_of_ne_true hlive), hstage⟩
  · rw [Watcher.holderMove?, hstage] at hmove
    cases hmove

/-- At rest no run waits for its turn but behind another. -/
theorem exists_holder_of_atRest (hrest : w.AtRest) (hwaiting : w.waiting ≠ []) :
    ∃ holder, w.holder = some holder := by
  have hmove := hrest.move
  unfold Watcher.move? at hmove
  split at hmove
  · split at hmove
    · cases hmove
    · split at hmove
      · cases hmove
      · rename_i holder hholder
        exact ⟨holder, hholder⟩
  · contradiction

/-- At rest the next cycle is awaited, and not due yet. -/
theorem lt_nextCheck_of_atRest (hrest : w.AtRest) (hlive : w.live = some run)
    (hholder : w.holder = some ⟨run, config, .driving⟩) :
    w.now < w.resource.nextCheck ∧ w.due? Station.resource = some w.resource.nextCheck := by
  have hmove := Watcher.holderMove?_of_rest hrest.move hholder
  have hcancelled : ¬ w.isCancelled run = true := by simp [Watcher.isCancelled, hlive]
  rw [Watcher.holderMove?] at hmove
  dsimp only at hmove
  rw [if_neg hcancelled] at hmove
  obtain ⟨due, hact⟩ := Watcher.pursue_eq_none hmove
  have hdrive : w.resource.drive config w.now = .wait due := hact
  rw [Station.drive, hrest.use] at hdrive
  dsimp only at hdrive
  split at hdrive
  · rename_i hlt
    cases hdrive
    refine ⟨hlt, ?_⟩
    rw [Watcher.due?, hholder]
    dsimp only
    rw [hact]
  · cases hdrive

/-! ## The run that was started -/

theorem ne_of_waiting (horderly : Watcher.Orderly tokens w) (hholder : w.holder = some holder)
    (hmem : (run, config) ∈ w.waiting) : holder.run ≠ run := by
  have hnodup := horderly.nodup
  rw [Watcher.present, hholder] at hnodup
  rintro rfl
  exact (List.nodup_cons.mp hnodup).1 (List.mem_map_of_mem hmem)

theorem eq_of_waiting (horderly : Watcher.Orderly tokens w) {other : Config}
    (hmem : (run, config) ∈ w.waiting) (hmem' : (run, other) ∈ w.waiting) : config = other := by
  have hnodup := (List.nodup_append.mp horderly.nodup).2.1
  have heq := List.inj_on_of_nodup_map hnodup hmem hmem' rfl
  exact congrArg Prod.snd heq

/-- At rest the live run does not wait for its turn: a run before it would be interrupted. -/
theorem not_mem_waiting (hkept : Kept w) (horderly : Watcher.Orderly tokens w)
    (hlive : w.live = some run) (hrest : w.AtRest) : (run, config) ∉ w.waiting := by
  intro hmem
  obtain ⟨holder, hholder⟩ := exists_holder_of_atRest hrest (List.ne_nil_of_mem hmem)
  have hsame := (driving_of_atRest hkept hrest hholder).1
  exact ne_of_waiting horderly hholder hmem (Option.some.inj (hsame.symm.trans hlive))

/-- What concerns neither the runs nor the time leaves a run on time, as long as no cycle begins
before it is due. -/
theorem OnTime.of_same (h : OnTime start run config times w) (hwaiting : next.waiting = w.waiting)
    (hholder : next.holder = w.holder) (hnow : next.now = w.now)
    (hcheck : next.resource.nextCheck = w.resource.nextCheck)
    (huse : ∀ answers answer, next.resource.use = some ⟨.cycle, answers, answer⟩ →
      w.resource.nextCheck ≤ w.now ∨
        ∃ answers answer, w.resource.use = some ⟨.cycle, answers, answer⟩) :
    OnTime start run config times next := by
  cases h with
  | waiting mem times now => exact .waiting (hwaiting ▸ mem) times (hnow.trans now)
  | acquiring holder times now => exact .acquiring (hholder.trans holder) times (hnow.trans now)
  | driving count holder times check ge le since busy =>
      refine .driving count (hholder.trans holder) times (hcheck.trans check) ?_ ?_ ?_ ?_
      · rwa [hnow]
      · rwa [hnow, hcheck]
      · rwa [hnow, hcheck]
      · intro answers answer hcycle
        rw [hnow, hcheck]
        rcases huse answers answer hcycle with hdue | ⟨answers, answer, hbefore⟩
        · exact Nat.le_antisymm le hdue
        · exact busy answers answer hbefore

/-- A run that does not have its turn waits for it. -/
theorem OnTime.waiting_of_ne (h : OnTime start run config times w)
    (hne : ∀ holder, w.holder = some holder → holder.run = run → holder.stage ≠ .acquiring ∧
      holder.stage ≠ .driving) :
    (run, config) ∈ w.waiting ∧ times = [] ∧ w.now = start := by
  cases h with
  | waiting mem times now => exact ⟨mem, times, now⟩
  | acquiring holder _ _ => exact absurd rfl (hne _ holder rfl).1
  | driving count holder _ _ _ _ _ _ => exact absurd rfl (hne _ holder rfl).2

theorem OnTime.time {moment : ℕ} (h : OnTime start run config times w) (hkept : Kept w)
    (horderly : Watcher.Orderly tokens w) (hlive : w.live = some run) (hle : w.now ≤ moment)
    (hprompt : Moment.Prompt ⟨w, .time moment⟩) :
    OnTime start run config times { w with now := moment } := by
  obtain ⟨hrest, hdue⟩ := hprompt moment rfl
  cases h with
  | waiting mem _ _ => exact absurd mem (not_mem_waiting hkept horderly hlive hrest)
  | acquiring holder _ _ => exact absurd (driving_of_atRest hkept hrest holder).2 nofun
  | driving count holder times check ge le since busy =>
      obtain ⟨-, hnext⟩ := lt_nextCheck_of_atRest hrest hlive holder
      refine .driving count holder times check (Nat.le_trans ge hle) (hdue _ hnext)
        (Nat.le_trans since (Nat.add_le_add_right hle _)) ?_
      intro answers answer hcycle
      rw [show w.resource.use = none from hrest.use] at hcycle
      cases hcycle

/-- The times of the cycles that the live run completed. -/
def currentTimes (moments : List Moment) (w : Watch) : List ℕ :=
  (currentCycles moments w).map Cycle.time

theorem currentTimes_concat {m : Moment} (hlive : next.live = w.live) (hcycle : m.cycle? = none) :
    currentTimes (moments ++ [m]) next = currentTimes moments w := by
  rw [currentTimes, currentCycles_concat hlive, hcycle]
  simp [currentTimes]

/-- A run that drives begins a cycle when it is due, and completes it at the same time. -/
theorem OnTime.work {m : Moment} {s : Station} {deed : Watcher.Deed}
    (h : OnTime start run config (currentTimes moments w) w) (horderly : Watcher.Orderly tokens w)
    (hpos : 0 < config.interval.toNat) (hlive : w.live = some run) {args : Config}
    (hholder : w.holder = some ⟨run, args, .driving⟩)
    (hpart : Station.Part args w.now w.resource s deed) (hcycle : m.cycle? = w.completed?) :
    OnTime start run config
      (currentTimes (moments ++ [m]) ((w.withResource s).display run deed))
      ((w.withResource s).display run deed) := by
  have hnow : ((w.withResource s).display run deed).now = w.now := Watcher.display_now ..
  have hresource : ((w.withResource s).display run deed).resource = s :=
    Watcher.display_resource ..
  have hlive' : ((w.withResource s).display run deed).live = w.live := Watcher.display_live ..
  have hholder' : ((w.withResource s).display run deed).holder = w.holder :=
    Watcher.display_holder ..
  have hwaiting : ((w.withResource s).display run deed).waiting = w.waiting :=
    Watcher.display_waiting ..
  cases hpart with
  | begins huse hdue _ hcheck =>
      rw [currentTimes_concat hlive' (hcycle.trans (completed?_of_free huse))]
      refine h.of_same hwaiting hholder' hnow ?_ fun _ _ _ => .inl hdue
      rw [hresource, hcheck]
  | goesOn huse hopen _ hcheck =>
      rw [currentTimes_concat hlive' (hcycle.trans (completed?_of_open hholder huse hopen))]
      refine h.of_same hwaiting hholder' hnow ?_ fun _ _ _ => .inr ⟨_, _, huse⟩
      rw [hresource, hcheck]
  | @ends answers answer status huse hdone huse' hcheck =>
      have hcompleted := completed?_eq_some_iff.mpr ⟨_, _, _, _, hholder, huse, hdone, rfl⟩
      cases h with
      | waiting mem _ _ => exact absurd rfl (ne_of_waiting horderly hholder mem)
      | acquiring holder _ _ => cases hholder.symm.trans holder
      | driving count holder times check ge le since busy =>
          cases hholder.symm.trans holder
          have hend := busy _ _ huse
          have hmore : w.now + max 1 config.interval.toNat =
              start + (count + 1) * config.interval.toNat := by
            rw [hend, check, Nat.max_eq_right hpos, Nat.succ_mul, Nat.add_assoc]
          refine .driving (count + 1) (hholder'.trans holder) ?_ ?_ ?_ ?_ ?_ ?_
          · rw [currentTimes, currentCycles_concat hlive', hcycle, hcompleted, grid_succ, ← times,
              ← check, ← hend]
            simp [currentTimes, hlive]
          · rw [hresource, hcheck, hmore]
          · rwa [hnow]
          · rw [hnow, hresource, hcheck]
            exact Nat.le_add_right _ _
          · refine Nat.le_of_eq ?_
            rw [hnow, hresource, hcheck, Nat.max_eq_right hpos]
          · intro _ _ hcycle
            rw [hresource, huse'] at hcycle
            cases hcycle

theorem Move.onTime (h : Move w event next) (horderly : Watcher.Orderly tokens w)
    (hpos : 0 < config.interval.toNat) (hlive : w.live = some run)
    (honTime : OnTime start run config (currentTimes moments w) w) :
    OnTime start run config (currentTimes (moments ++ [⟨w, .move event⟩]) next) next := by
  have hother : ∀ {other}, w.isCancelled other = true → other ≠ run := by
    rintro _ hcancelled rfl
    exact Watcher.isCancelled_iff.mp hcancelled hlive
  have hsame : ∀ {other}, w.isCancelled other = false → other = run := by
    intro other hother
    exact Option.some.inj ((Watcher.live_of_not_isCancelled hother).symm.trans hlive)
  cases h with
  | @giveUp earlier later other args hwaiting hcancelled =>
      rw [currentTimes_concat rfl rfl]
      cases honTime with
      | waiting mem times now =>
          refine .waiting ?_ times now
          rw [hwaiting] at mem
          have hne : (run, config) ≠ (other, args) := fun heq =>
            hother hcancelled (congrArg Prod.fst heq).symm
          simpa [hne] using mem
      | acquiring holder times now => exact .acquiring holder times now
      | driving count holder times check ge le since busy =>
          exact .driving count holder times check ge le since busy
  | @turn earlier later other args hwaiting hcurrent hholder =>
      rw [currentTimes_concat rfl rfl]
      obtain rfl := hsame hcurrent
      cases honTime with
      | waiting mem times now =>
          have hmem : (other, args) ∈ w.waiting := by simp [hwaiting]
          obtain rfl := eq_of_waiting horderly mem hmem
          exact .acquiring rfl times now
      | acquiring holder _ _ => cases hholder.symm.trans holder
      | driving count holder _ _ _ _ _ _ => cases hholder.symm.trans holder
  | leave hholder hcancelled | interrupt hholder hcancelled =>
      rw [currentTimes_concat rfl rfl]
      obtain ⟨mem, times, now⟩ := honTime.waiting_of_ne fun holder hsome hrun => by
        cases hholder.symm.trans hsome
        exact absurd hrun (hother hcancelled)
      exact .waiting mem times now
  | release hholder =>
      rw [currentTimes_concat rfl rfl]
      obtain ⟨mem, times, now⟩ := honTime.waiting_of_ne fun holder hsome _ => by
        cases hholder.symm.trans hsome
        exact ⟨nofun, nofun⟩
      exact .waiting mem times now
  | acquire hholder hcurrent =>
      rw [currentTimes_concat rfl rfl]
      obtain rfl := hsame hcurrent
      cases honTime with
      | waiting mem _ _ => exact absurd rfl (ne_of_waiting horderly hholder mem)
      | acquiring holder times now =>
          cases hholder.symm.trans holder
          refine .driving 0 rfl times ?_ (Nat.le_of_eq now.symm) (Nat.le_refl _)
            (Nat.le_add_right _ _) fun _ _ _ => rfl
          rw [Nat.zero_mul]
          exact now
      | driving count holder _ _ _ _ _ _ => cases hholder.symm.trans holder
  | work hholder hcurrent hpart =>
      obtain rfl := hsame hcurrent
      exact honTime.work horderly hpos hlive hholder hpart rfl

/-- A run that was stopped may still complete a cycle, which is none of the live run. -/
theorem OnTime.late {m : Moment} {s : Station} {deed : Watcher.Deed}
    (h : OnTime start run config (currentTimes moments w) w) (hlive : w.live = some run)
    (hholder : w.holder = some holder) (hcancelled : w.isCancelled holder.run = true)
    (hcycle : m.cycle? = w.completed?) :
    OnTime start run config
      (currentTimes (moments ++ [m]) ((w.withResource s).display holder.run deed))
      ((w.withResource s).display holder.run deed) := by
  have hother : holder.run ≠ run := by
    rintro rfl
    exact Watcher.isCancelled_iff.mp hcancelled hlive
  have hnone : m.cycle?.toList.filter (fun cycle => w.live = some cycle.run) = [] := by
    rw [hcycle, List.filter_eq_nil_iff]
    intro cycle hmem
    obtain ⟨before, _, _, _, hbefore, -, -, rfl⟩ :=
      completed?_eq_some_iff.mp (Option.mem_toList.mp hmem)
    cases hholder.symm.trans hbefore
    rw [hlive]
    simpa using hother.symm
  have htimes : currentTimes (moments ++ [m]) ((w.withResource s).display holder.run deed) =
      currentTimes moments w := by
    have hlive' : ((w.withResource s).display holder.run deed).live = w.live :=
      Watcher.display_live ..
    rw [currentTimes, currentCycles_concat hlive', hnone, List.append_nil]
    rfl
  rw [htimes]
  obtain ⟨mem, times, now⟩ := h.waiting_of_ne fun before hbefore hrun => by
    cases hholder.symm.trans hbefore
    exact absurd hrun hother
  refine .waiting ?_ times ?_
  · rwa [Watcher.display_waiting]
  · rwa [Watcher.display_now]

theorem Step.onTime (h : Step w label next) (hkept : Kept w) (horderly : Watcher.Orderly tokens w)
    (hpos : 0 < config.interval.toNat) (hlive : w.live = some run) (hstop : label ≠ .stop true)
    (hprompt : Moment.Prompt ⟨w, label⟩)
    (honTime : OnTime start run config (currentTimes moments w) w) :
    next.live = some run ∧
      OnTime start run config (currentTimes (moments ++ [⟨w, label⟩]) next) next := by
  have hstarted : w.started = true := by
    rw [horderly.started, hlive]
    rfl
  cases h with
  | start config =>
      have hsame : (w.start config).2 = w := by rw [Watcher.start, if_pos hstarted]
      rw [hsame, currentTimes_concat rfl rfl]
      exact ⟨hlive, honTime⟩
  | stop =>
      rw [Watcher.stop, if_pos hstarted] at hstop
      exact absurd rfl hstop
  | time hle =>
      rw [currentTimes_concat rfl rfl]
      exact ⟨hlive, honTime.time hkept horderly hlive hle hprompt⟩
  | move hmove =>
      have hmoved := move_of_step hkept hmove
      refine ⟨?_, hmoved.onTime horderly hpos hlive honTime⟩
      cases hmoved with
      | work => exact (Watcher.display_live ..).trans hlive
      | giveUp | turn | leave | acquire | interrupt | release => exact hlive
  | late hholder _ hcancelled _ =>
      exact ⟨(Watcher.display_live ..).trans hlive, honTime.late hlive hholder hcancelled rfl⟩
  | @answered use answer huse hanswer =>
      rw [currentTimes_concat rfl rfl]
      refine ⟨hlive, honTime.of_same rfl rfl rfl rfl ?_⟩
      obtain ⟨user, answers, _⟩ := use
      rintro _ _ ⟨⟩
      exact .inr ⟨_, _, huse⟩
  | take call huse =>
      obtain ⟨hnone, hcheck⟩ := Station.noCycle_take w.resource call
      rw [currentTimes_concat rfl rfl]
      exact ⟨hlive, honTime.of_same rfl rfl rfl hcheck
        fun _ _ hcycle => absurd hcycle (hnone _ _)⟩
  | @resume call answers answer huse =>
      obtain ⟨hnone, hcheck⟩ := Station.noCycle_resume w.resource answers answer call
      rw [currentTimes_concat rfl rfl]
      exact ⟨hlive, honTime.of_same rfl rfl rfl hcheck
        fun _ _ hcycle => absurd hcycle (hnone _ _)⟩
  | abandon =>
      rw [currentTimes_concat rfl rfl]
      refine ⟨hlive, honTime.of_same rfl rfl rfl rfl ?_⟩
      rintro _ _ ⟨⟩
  | checkReady =>
      rw [currentTimes_concat rfl rfl]
      exact ⟨hlive, honTime⟩

/-- A start that succeeds puts its run on time. -/
theorem onTime_start {m : Moment} (hfaithful : Faithful moments w)
    (hok : (w.start config).1.isOk = true) (hcycle : m.cycle? = none) :
    (w.start config).2.live = some w.starts ∧
      OnTime w.now w.starts config (currentTimes (moments ++ [m]) (w.start config).2)
        (w.start config).2 := by
  unfold Watcher.start at hok ⊢
  split at hok
  · cases hok
  · rename_i hidle
    rw [if_neg hidle]
    refine ⟨rfl, .waiting (by simp) ?_ rfl⟩
    -- every cycle so far belongs to an earlier run
    rw [currentTimes, currentCycles, cycles_concat, hcycle, List.map_eq_nil_iff,
      List.filter_eq_nil_iff]
    intro cycle hmem hrun
    have hlt := hfaithful.lt cycle (by simpa using hmem)
    have heq : w.starts = cycle.run := by simpa using hrun
    exact absurd hlt (Nat.not_lt.mpr (Nat.le_of_eq heq))

end

section

variable {first last : Watch} {moments earlier later : List Moment} {m : Moment} {config : Config}

theorem Run.onTime (h : Run first moments last) (hfresh : Fresh first)
    (hpos : 0 < config.interval.toNat) (hmoments : moments = earlier ++ m :: later)
    (hstart : m.label = .start config true) (hstop : ∀ m' ∈ later, m'.label ≠ .stop true)
    (hprompt : ∀ m' ∈ later, m'.Prompt) :
    last.live = some m.watch.starts ∧
      OnTime m.watch.now m.watch.starts config (currentTimes moments last) last := by
  induction h generalizing later with
  | nil => simp at hmoments
  | @snoc last next moments label hrun hstep ih =>
      cases later using List.reverseRecOn with
      | nil =>
          obtain ⟨rfl, hm⟩ := List.append_inj' hmoments rfl
          cases hm
          cases hstep with
          | start config' =>
              obtain ⟨rfl, hok⟩ := Label.start.inj hstart
              exact onTime_start (hrun.faithful hfresh) hok rfl
          | _ => cases hstart
      | append_singleton later m' =>
          rw [← List.cons_append, ← List.append_assoc] at hmoments
          obtain ⟨hbefore, hm'⟩ := List.append_inj' hmoments rfl
          cases hm'
          obtain ⟨hlive, honTime⟩ := ih hbefore (fun x hx => hstop x (List.mem_append_left _ hx))
            (fun x hx => hprompt x (List.mem_append_left _ hx))
          obtain ⟨tokens, horderly⟩ := hrun.orderly hfresh
          exact hstep.onTime (hrun.kept hfresh) horderly hpos hlive (hstop ⟨last, label⟩ (by simp))
            (hprompt ⟨last, label⟩ (by simp)) honTime

/-- At rest a run that is on time has completed every cycle that was due. -/
theorem OnTime.times_eq {w : Watch} {start run : ℕ} {times : List ℕ}
    (h : OnTime start run config times w) (hkept : Kept w)
    {tokens : Watcher.Tokens} (horderly : Watcher.Orderly tokens w) (hlive : w.live = some run)
    (hrest : w.AtRest) :
    times =
      grid start config.interval.toNat ((w.now - start) / config.interval.toNat + 1) := by
  cases h with
  | waiting mem _ _ => exact absurd mem (not_mem_waiting hkept horderly hlive hrest)
  | acquiring holder _ _ => exact absurd (driving_of_atRest hkept hrest holder).2 nofun
  | driving count holder times check ge le since _ =>
      have hlt := (lt_nextCheck_of_atRest hrest hlive holder).1
      rw [check] at hlt since
      cases count with
      | zero => omega
      | succ count =>
          rw [Nat.succ_mul] at hlt since
          have hcount : (w.now - start) / config.interval.toNat = count := by
            refine Nat.div_eq_of_lt_le ?_ ?_
            · omega
            · rw [Nat.succ_mul]
              omega
          rw [times, hcount]

/-- Whatever the shell answers and whenever it does, and whatever else happens to a watch: it is ready
if and only if it is started and the last cycle that was completed by the live run was ready.  A cycle
is ready if and only if it found the interface up and the route in place, by the configuration that
its run was started with.  Each check that is completed publishes its note, and nothing else does.
What comes from outside leaves readiness as it is.  Where the shell answers at once, a run that was
started has completed, at rest, one cycle at the time of its start and one more each time the interval
was over. -/
theorem Run.readiness (hrun : Run first moments last) (hfresh : Fresh first) :
    (last.ready = true ↔ last.started = true ∧
      ∃ cycle, (currentCycles moments last).getLast? = some cycle ∧ cycle.status = .ready) ∧
    (∀ cycle ∈ cycles moments,
      (cycle.status = .ready ↔ cycle.Found) ∧ StartOf moments cycle.run cycle.config) ∧
    last.notes = first.notes.publishAll (moments.flatMap Moment.notes) ∧
    (∀ label next, Step last label next → label.IsOutside → next.ready = last.ready) ∧
    ∀ earlier m later config, moments = earlier ++ m :: later → m.label = .start config true →
      0 < config.interval → (∀ m' ∈ later, m'.label ≠ .stop true ∧ m'.Prompt) → last.AtRest →
        currentTimes moments last =
          grid m.watch.now config.interval.toNat
            ((last.now - m.watch.now) / config.interval.toNat + 1) := by
  have hready : last.ready = true ↔ last.state = .ready := by simp [Watcher.ready]
  refine ⟨?_, hrun.found_iff hfresh, hrun.notes hfresh, ?_, ?_⟩
  · rw [hready, ← (hrun.faithful hfresh).ready]
    refine ⟨fun hstate => ⟨?_, hstate⟩, And.right⟩
    rw [Watcher.started, hstate]
    rfl
  · intro label next hstep houtside
    rw [Watcher.ready, Watcher.ready, hstep.state_of_isOutside houtside]
  · intro earlier m later config hmoments hstart hpos hlater hrest
    have hpos : 0 < config.interval.toNat := UInt64.lt_iff_toNat_lt.mp hpos
    obtain ⟨hlive, honTime⟩ := hrun.onTime hfresh hpos hmoments hstart
      (fun m' hm' => (hlater m' hm').1) (fun m' hm' => (hlater m' hm').2)
    obtain ⟨tokens, horderly⟩ := hrun.orderly hfresh
    exact honTime.times_eq (hrun.kept hfresh) horderly hlive hrest

end

/-! ## A route that is lost -/

/-- The shell answers whoever has the checker. -/
def hears (w : Watch) (answer : Answer) : Watch :=
  match w.resource.use with
  | some use => w.withResource (w.resource.answered use answer)
  | none => w

theorem step_hears {w : Watch} (answer : Answer)
    (h : w.resource.use.map (fun use => use.answer.isNone) = some true) :
    Step w (.answered answer) (hears w answer) := by
  obtain ⟨use, huse, hnone⟩ := Option.map_eq_some_iff.mp h
  rw [hears, huse]
  exact .answered answer huse (Option.isNone_iff_eq_none.mp hnone)

theorem step_moved {w : Watch} (event : Event)
    (h : (w.move? Station.resource).map Prod.fst = some event) :
    Step w (.move event) (w.moved Station.resource) :=
  .move (Watcher.step_moved event h)

/-- A network that is looked for every ten milliseconds. -/
def briskConfig : Config where
  interval := 10

/-- A watch that was never started. -/
def idleWatch : Watch where
  name := "pppd"
  retry := 5000
  resource := {}

/-- The traffic of an interface that is up. -/
def trafficAnswer : Answer :=
  .ok ⟨0, "PACK VJCOMP  VJUNC"⟩

/-- A route table with the network. -/
def tableAnswer : Answer :=
  .ok ⟨0, "172.29.12.0 0.0.0.0"⟩

/-- The interface cannot be looked at. -/
def brokenAnswer : Answer :=
  .error (.closed "pppstats")

/-- The run has its turn, and drives. -/
def drivingWatch : Watch :=
  ((idleWatch.start briskConfig).2.moved Station.resource).moved Station.resource

/-- The traffic is asked for. -/
def askingWatch : Watch :=
  drivingWatch.moved Station.resource

/-- The interface is up, and the route table is asked for. -/
def upWatch : Watch :=
  (askingWatch.hears trafficAnswer).moved Station.resource

/-- The route is in place. -/
def routedWatch : Watch :=
  (upWatch.hears tableAnswer).moved Station.resource

/-- The interval is over, and the traffic is asked for again. -/
def againWatch : Watch :=
  Watcher.moved Station.resource { routedWatch with now := 10 }

/-- The interface is gone. -/
def lostWatch : Watch :=
  (againWatch.hears brokenAnswer).moved Station.resource

/-- How the route was found and lost. -/
def lostMoments : List Moment :=
  [⟨idleWatch, .start briskConfig true⟩,
    ⟨(idleWatch.start briskConfig).2, .move (.attempted 0)⟩,
    ⟨(idleWatch.start briskConfig).2.moved Station.resource, .move (.acquired 0)⟩,
    ⟨drivingWatch, .move (.worked 0)⟩,
    ⟨askingWatch, .answered trafficAnswer⟩,
    ⟨askingWatch.hears trafficAnswer, .move (.worked 0)⟩,
    ⟨upWatch, .answered tableAnswer⟩,
    ⟨upWatch.hears tableAnswer, .move (.worked 0)⟩,
    ⟨routedWatch, .time 10⟩,
    ⟨{ routedWatch with now := 10 }, .move (.worked 0)⟩,
    ⟨againWatch, .answered brokenAnswer⟩,
    ⟨againWatch.hears brokenAnswer, .move (.worked 0)⟩]

theorem run_routed : Run idleWatch (lostMoments.take 8) routedWatch := by
  have hstart := (Run.nil idleWatch).snoc (.start idleWatch briskConfig)
  have hturn := hstart.snoc (step_moved (.attempted 0) rfl)
  have hdriving := hturn.snoc (step_moved (.acquired 0) rfl)
  have hasking := hdriving.snoc (step_moved (.worked 0) (by decide +kernel))
  have hheard := hasking.snoc (step_hears trafficAnswer (by decide +kernel))
  have hup := hheard.snoc (step_moved (.worked 0) (by decide +kernel))
  have htable := hup.snoc (step_hears tableAnswer (by decide +kernel))
  exact htable.snoc (step_moved (.worked 0) (by decide +kernel))

theorem run_lost : Run idleWatch lostMoments lostWatch := by
  have hle : routedWatch.now ≤ 10 := by decide +kernel
  have htime := run_routed.snoc (.time hle)
  have hagain := htime.snoc (step_moved (.worked 0) (by decide +kernel))
  have hbroken := hagain.snoc (step_hears brokenAnswer (by decide +kernel))
  exact hbroken.snoc (step_moved (.worked 0) (by decide +kernel))

theorem atRest_of_eval {w : Watch}
    (h : ((w.move? Station.resource).isNone && w.resource.use.isNone) = true) : w.AtRest := by
  rw [Bool.and_eq_true, Option.isNone_iff_eq_none, Option.isNone_iff_eq_none] at h
  exact ⟨h.1, h.2⟩

/-- The route is found at once and lost ten milliseconds later. -/
theorem Run.readiness_lost :
    currentTimes lostMoments lostWatch = [0, 10] ∧ routedWatch.ready = true ∧
      lostWatch.ready = false := by
  obtain ⟨hready, -, -, -, htimes⟩ := run_lost.readiness ⟨⟨rfl, rfl, rfl, rfl⟩, rfl⟩
  refine ⟨?_, by decide +kernel, ?_⟩
  · have hrest : routedWatch.AtRest := atRest_of_eval (by decide +kernel)
    have hdue : routedWatch.due? Station.resource = some 10 := by decide +kernel
    refine htimes [] _ _ briskConfig rfl rfl (by decide) ?_ (atRest_of_eval (by decide +kernel))
    simp only [List.forall_mem_cons, Moment.Prompt]
    simpa [hdue] using hrest
  · have hlast : (currentCycles lostMoments lostWatch).getLast?.map Cycle.status = some .error := by
      decide +kernel
    obtain ⟨cycle, hcycle, hstatus⟩ := Option.map_eq_some_iff.mp hlast
    refine eq_false_of_ne_true fun h => ?_
    obtain ⟨-, other, hother, hready⟩ := hready.mp h
    cases hcycle.symm.trans hother
    cases hstatus.symm.trans hready

end Watch
end Route
end Uplink
