import Uplink.Proofs.Modem.Sayings
import Uplink.Proofs.Watcher.Lifecycle
import Uplink.Proofs.Watcher.Ownership

/-!
# Runs of a modem

A modem is watched and stopped by its owner, its transport changes by itself, and its watcher moves.
What the modem says is handled in one kind of move only, when a chunk is read; that happens while the
live run drives the transport.  To begin anew makes the search for the identity begin anew, and is
refused while a run is live.
-/

namespace Uplink

namespace Feed

variable {α : Type}

/-- What was published since the feed was another one. -/
def since (before after : Feed α) : List α :=
  (after.items.take (after.items.length - before.items.length)).reverse

@[simp]
theorem since_self (feed : Feed α) : feed.since feed = [] := by
  simp [since]

@[simp]
theorem since_publishAll (feed : Feed α) (items : List α) :
    feed.since (feed.publishAll items) = items := by
  rw [since, items_publishAll]
  simp

end Feed

namespace Modem

/-- What happens to a modem: its owner begins to watch it, the transport changes, or something happens
to the watcher. -/
inductive Label where
  | begin (success : Bool)
  | transport
  | watcher (label : Watcher.Label Unit)

/-- The owner starts the watcher by `begin` only, and of the resource the transport is all that changes
by itself. -/
def Admitted : Watcher.Label Unit → Prop
  | .start _ _ | .surroundings => False
  | _ => True

/-- One thing that may happen to a modem. -/
inductive Step : Watched → Label → Watched → Prop where
  | begin (w : Watched) : Step w (.begin w.begin.1.isOk) w.begin.2
  | transport (w : Watched) (transport : Transport) :
      Step w .transport (w.withResource { w.resource with transport })
  | watcher {w next : Watched} {label : Watcher.Label Unit} :
      Watcher.Step Session.resource w label next → Admitted label → Step w (.watcher label) next

/-- A modem, what happens to it, and the modem afterwards. -/
structure Moment where
  modem : Watched
  label : Label
  next : Watched

/-- A row of things that happen to a modem. -/
inductive Run : Watched → List Moment → Watched → Prop where
  | nil (w : Watched) : Run w [] w
  | snoc {first last next : Watched} {moments : List Moment} {label : Label} :
      Run first moments last → Step last label next →
        Run first (moments ++ [⟨last, label, next⟩]) next

/-! ## The watcher of a modem -/

/-- The live run drives the transport. -/
def Driving (w : Watched) : Prop :=
  ∃ holder, w.holder = some holder ∧ holder.stage = .driving ∧ w.live = some holder.run

section

variable {w next first middle last : Watched} {label : Label} {moments moments' : List Moment}

theorem Run.single (h : Step w label next) : Run w [⟨w, label, next⟩] next :=
  .snoc (.nil w) h

theorem Run.trans (h : Run first moments middle) (h' : Run middle moments' last) :
    Run first (moments ++ moments') last := by
  induction h' with
  | nil => rwa [List.append_nil]
  | snoc _ hstep ih =>
      rw [← List.append_assoc]
      exact ih.snoc hstep

theorem Run.of_concat {m : Moment} (h : Run first (moments ++ [m]) last) :
    Run first moments m.modem ∧ Step m.modem m.label m.next ∧ last = m.next := by
  generalize hrow : moments ++ [m] = row at h
  cases h with
  | nil => simp at hrow
  | snoc hrun hstep =>
      obtain ⟨rfl, hm⟩ := List.append_inj' hrow rfl
      cases hm
      exact ⟨hrun, hstep, rfl⟩

theorem Run.of_append {later : List Moment} (h : Run first (moments ++ later) last) :
    ∃ middle, Run first moments middle ∧ Run middle later last := by
  induction later using List.reverseRecOn generalizing last with
  | nil => exact ⟨last, by simpa using h, .nil last⟩
  | append_singleton later m ih =>
      rw [← List.append_assoc] at h
      obtain ⟨hrun, hlast, rfl⟩ := h.of_concat
      obtain ⟨middle, hfirst, hsecond⟩ := ih hrun
      exact ⟨middle, hfirst, hsecond.snoc hlast⟩

/-- A run consists of what comes up to a moment, that moment, and what comes after it. -/
theorem Run.split {earlier later : List Moment} {m : Moment}
    (h : Run first (earlier ++ m :: later) last) :
    Run first earlier m.modem ∧ Step m.modem m.label m.next ∧ Run m.next later last := by
  induction later using List.reverseRecOn generalizing last with
  | nil =>
      obtain ⟨hrun, hstep, rfl⟩ := h.of_concat
      exact ⟨hrun, hstep, .nil _⟩
  | append_singleton later m' ih =>
      rw [← List.cons_append, ← List.append_assoc] at h
      obtain ⟨hrun, hlast, rfl⟩ := h.of_concat
      obtain ⟨hearlier, hstep, hlater⟩ := ih hrun
      exact ⟨hearlier, hstep, hlater.snoc hlast⟩

/-- What comes up to a moment of a run is a run, and the moment is a step. -/
theorem Run.moment {m : Moment} (h : Run first moments last) (hm : m ∈ moments) :
    ∃ earlier later, moments = earlier ++ m :: later ∧ Run first earlier m.modem ∧
      Step m.modem m.label m.next := by
  obtain ⟨earlier, later, rfl⟩ := List.append_of_mem hm
  obtain ⟨hearlier, hstep, -⟩ := h.split
  exact ⟨earlier, later, rfl, hearlier, hstep⟩

/-- To begin is to start the watcher with a search that begins anew, or it is refused. -/
theorem begin_cases (w : Watched) :
    (w.started = true ∧ w.begin.1.isOk = false ∧ w.begin.2 = w) ∨
      (w.started = false ∧ w.begin.1.isOk = true ∧
        w.begin.2 = ((w.withResource { w.resource with tracker := {} }).start ()).2) := by
  unfold Watched.begin
  split
  · rename_i hstarted
    exact .inl ⟨hstarted, rfl, rfl⟩
  · rename_i hstarted
    have hidle : (w.withResource { w.resource with tracker := {} }).started = false :=
      eq_false_of_ne_true hstarted
    refine .inr ⟨eq_false_of_ne_true hstarted, ?_, rfl⟩
    simp [Watcher.start, hidle, Except.isOk, Except.toBool]

theorem resource_begin {w : Watched} (h : w.started = false) :
    w.begin.2.resource = { w.resource with tracker := {} } := by
  rw [Watched.begin, h, if_neg Bool.false_ne_true, Watcher.start]
  split <;> rfl

theorem now_begin (w : Watched) : w.begin.2.now = w.now := by
  unfold Watched.begin Watcher.start
  split
  · rfl
  · split <;> rfl

theorem Step.exists_watcherRun (h : Step w label next) :
    ∃ labels, Watcher.Run Session.resource w labels next := by
  cases h with
  | begin =>
      rcases begin_cases w with ⟨-, -, hsame⟩ | ⟨-, -, hstart⟩
      · rw [hsame]
        exact ⟨[], .nil w⟩
      · rw [hstart]
        have hforget := Watcher.Run.single (r := Session.resource)
          (.surroundings w { w.resource with tracker := {} })
        exact ⟨_, hforget.snoc (.start _ ())⟩
  | transport transport => exact ⟨_, .single (.surroundings w { w.resource with transport })⟩
  | watcher hstep _ => exact ⟨_, .single hstep⟩

theorem Run.exists_watcherRun (h : Run first moments last) :
    ∃ labels, Watcher.Run Session.resource first labels last := by
  induction h with
  | nil => exact ⟨[], .nil _⟩
  | snoc _ hstep ih =>
      obtain ⟨labels, hrun⟩ := ih
      obtain ⟨more, hmore⟩ := hstep.exists_watcherRun
      exact ⟨_, hrun.trans hmore⟩

/-- A live run makes the watcher one that is started, and the run whose turn it is was started. -/
structure Numbered (w : Watched) : Prop where
  started : w.started = w.live.isSome
  lt : ∀ holder, w.holder = some holder → holder.run < w.starts

theorem Run.numbered (hfresh : first.Fresh) (h : Run first moments last) : Numbered last := by
  obtain ⟨labels, hrun⟩ := h.exists_watcherRun
  have horderly := hrun.orderly hfresh
  refine ⟨horderly.started, ?_⟩
  intro holder hholder
  refine horderly.lt holder.run ?_
  simp [Watcher.present, hholder]

end

/-! ## What a step does about what the modem says -/

namespace Session

/-- The chunk that is read next. -/
def chunk? (s : Session) : Option (List UInt8) :=
  match s.requests, s.transport.read readLimit with
  | [], (.data chunk, _) => some chunk
  | _, _ => none

/-- Nothing was heard: neither a byte, nor a line, nor an event. -/
structure Silent (s next : Session) : Prop where
  lines : next.lines = s.lines
  tracker : next.tracker = s.tracker
  events : next.events = s.events

theorem Silent.refl (s : Session) : s.Silent s :=
  ⟨rfl, rfl, rfl⟩

/-- A chunk was taken. -/
structure Took (s : Session) (chunk : List UInt8) (next : Session) : Prop where
  lines : next.lines = (s.lines.push chunk).1
  tracker : next.tracker = (discuss s.tracker (s.lines.push chunk).2).1
  events : next.events =
    s.events.publishAll ((discuss s.tracker (s.lines.push chunk).2).2.filterMap Saying.event?)

section

variable {s next : Session} {task : Watcher.Task} {now : ℕ} {permit success : Bool}
  {deed : Watcher.Deed}

theorem silent_ask (s : Session) (request : Request) : s.Silent (s.ask request).1 := by
  unfold ask
  split <;> exact ⟨rfl, rfl, rfl⟩

/-- The modem works by reading a chunk, or it is not heard. -/
theorem drive_cases (h : s.drive now = .work next deed) : deed.ready = none ∧
    ((∃ chunk, s.chunk? = some chunk ∧ s.Took chunk next ∧
      deed.notes = (discuss s.tracker (s.lines.push chunk).2).2.filterMap Saying.note?) ∨
    s.chunk? = none ∧ s.Silent next) := by
  unfold drive at h
  unfold chunk?
  split at h
  · rename_i request rest hrequests
    cases h
    refine ⟨rfl, .inr ⟨by rw [hrequests], ?_⟩⟩
    have hsilent := silent_ask { s with requests := rest } request
    exact ⟨hsilent.lines, hsilent.tracker, hsilent.events⟩
  · rename_i hrequests
    split at h
    · cases h
    · rename_i chunk transport hread
      have hreceive := receive_eq { s with transport } chunk
      simp only [hreceive] at h
      cases h
      exact ⟨rfl, .inl ⟨chunk, by rw [hrequests, hread], ⟨rfl, rfl, rfl⟩, rfl⟩⟩
    · rename_i transport hread
      split at h
      · cases h
      · cases h
        exact ⟨rfl, .inr ⟨by rw [hrequests, hread], rfl, rfl, rfl⟩⟩

theorem act_eq_work (h : resource.act task () now permit s = .work next deed) :
    task = .drive ∧ s.drive now = .work next deed := by
  cases task with
  | acquire =>
      simp only [resource, act, acquire] at h
      split at h <;> cases h
  | drive => exact ⟨rfl, h⟩
  | release => cases h

/-- Whatever a task comes to its end, nothing is heard then. -/
theorem silent_of_finish (h : resource.act task () now permit s = .finish next success) :
    s.Silent next := by
  cases task with
  | acquire =>
      simp only [resource, act, acquire] at h
      split at h <;> cases h <;> exact ⟨rfl, rfl, rfl⟩
  | drive =>
      simp only [resource, act, drive] at h
      split at h
      · cases h
      · split at h
        · cases h
          exact ⟨rfl, rfl, rfl⟩
        · cases h
        · split at h <;> cases h
  | release =>
      cases h
      exact ⟨rfl, rfl, rfl⟩

end
end Session

/-- The chunk that is read in a step. -/
def read? (w : Watched) : Label → Option (List UInt8)
  | .watcher (.move (.worked _)) => w.resource.chunk?
  | _ => none

/-- The modem begins to be watched. -/
def Label.begins : Label → Bool
  | .begin success => success
  | _ => false

/-- A connection begins. -/
def Label.opens : Label → Bool
  | .watcher (.move (.acquired _)) => true
  | _ => false

/-- Nothing is read when a connection begins. -/
theorem read?_of_opens {label : Label} (h : label.opens = true) (w : Watched) :
    read? w label = none := by
  unfold Label.opens at h
  split at h
  · rfl
  · cases h

/-- What a step of the watcher does about what the modem says. -/
inductive Touch (w : Watched) (label : Label) (next : Watched) : Prop where
  | open (opens : label.opens = true) (lines : next.resource.lines = {})
      (tracker : next.resource.tracker = w.resource.tracker)
  | read (chunk : List UInt8) (reads : read? w label = some chunk) (driving : Driving w)
      (took : w.resource.Took chunk next.resource)
      (notes : next.notes = w.notes.publishAll
        ((discuss w.resource.tracker (w.resource.lines.push chunk).2).2.filterMap Saying.note?))
      (holder : next.holder = w.holder) (live : next.live = w.live)
  | apart (opens : label.opens = false) (reads : read? w label = none)
      (silent : w.resource.Silent next.resource)

section

variable {w next : Watched} {holder : Watcher.Holder Unit} {event : Watcher.Event} {label : Label}

theorem live_of_isCancelled_eq_false {run : ℕ} (h : w.isCancelled run = false) :
    w.live = some run := by
  simpa [Watcher.isCancelled] using h

theorem display_of_quiet (w : Watched) (run : ℕ) {deed : Watcher.Deed} (h : deed.ready = none) :
    (w.display run deed).notes = w.notes.publishAll deed.notes ∧
      (w.display run deed).resource = w.resource := by
  refine ⟨?_, Watcher.display_resource ..⟩
  unfold Watcher.display
  rw [h]

theorem silent_afterRelease (holder : Watcher.Holder Unit) (ending : Watcher.Ending)
    (w : Watched) : (Watcher.afterRelease holder ending w).2.resource = w.resource := by
  cases ending with
  | interrupted => rfl
  | finished => exact Watcher.setState_resource ..
  | failed => exact Watcher.setState_resource ..

/-- Only the run that drives the transport works. -/
theorem driving_of_work {task : Watcher.Task} {s : Session} {deed : Watcher.Deed}
    (hholder : w.holder = some holder) (htask : holder.stage.task? = some task)
    (hcancelled : w.isCancelled holder.run = true → task = .release)
    (hact : Session.resource.act task holder.args w.now w.permit w.resource = .work s deed) :
    Driving w ∧ w.resource.drive w.now = .work s deed := by
  obtain ⟨rfl, hdrive⟩ := Session.act_eq_work hact
  have hstage : holder.stage = .driving := by
    cases hstage : holder.stage <;> simp [Watcher.Stage.task?, hstage] at htask ⊢
  have hlive : w.live = some holder.run := by
    refine live_of_isCancelled_eq_false (eq_false_of_ne_true ?_)
    intro h
    cases hcancelled h
  exact ⟨⟨holder, hholder, hstage, hlive⟩, hdrive⟩

theorem touch_of_holderStep (h : Watcher.HolderStep Session.resource w holder event next)
    (hholder : w.holder = some holder) : Touch w (.watcher (.move event)) next := by
  cases h with
  | leave => exact .apart rfl rfl (.refl _)
  | retry => exact .apart rfl rfl (.refl _)
  | interrupt => exact .apart rfl rfl (.refl _)
  | @work task s deed htask hcancelled hact =>
      obtain ⟨hdriving, hdrive⟩ := driving_of_work hholder htask hcancelled hact
      obtain ⟨hquiet, ⟨chunk, hchunk, htook, hdeed⟩ | ⟨hnone, hsilent⟩⟩ :=
        Session.drive_cases hdrive
      · obtain ⟨hnotes, hresource⟩ := display_of_quiet (w.withResource s) holder.run hquiet
        rw [hdeed] at hnotes
        refine .read chunk hchunk hdriving ?_ hnotes
          (Watcher.display_holder ..) (Watcher.display_live ..)
        rw [hresource]
        exact htook
      · refine .apart rfl hnone ?_
        rw [Watcher.display_resource]
        exact hsilent
  | @acquire s hstage hlive hact =>
      have hsilent := Session.silent_of_finish hact
      refine .open rfl ?_ ?_
      · rw [Watcher.afterAcquire, if_pos rfl]
        rfl
      · rw [Watcher.afterAcquire, if_pos rfl]
        exact (congrArg Session.tracker (Watcher.setState_resource ..)).trans hsilent.tracker
  | @refuse s hstage hlive hact =>
      have hsilent := Session.silent_of_finish hact
      have hresource : (Watcher.afterAcquire Session.resource holder (w.withResource s)
          false).2.resource = s := Watcher.setState_resource ..
      refine .apart rfl rfl ?_
      rw [hresource]
      exact hsilent
  | finish hstage hlive hact =>
      exact .apart rfl rfl (Session.silent_of_finish hact)
  | release hstage hact =>
      refine .apart rfl rfl ?_
      rw [silent_afterRelease]
      exact Session.silent_of_finish hact

/-- Each step opens a connection, reads a chunk on one, or leaves what the modem says alone; or the
modem begins to be watched, the search for the identity begins anew, and no run was live. -/
theorem Step.touch (h : Step w label next) (hnumbered : Numbered w) :
    (label.begins = false ∧ Touch w label next) ∨
      label = .begin true ∧ w.live = none ∧ next.resource.lines = w.resource.lines ∧
        next.resource.tracker = {} ∧ next.resource.events = w.resource.events := by
  cases h with
  | transport => exact .inl ⟨rfl, .apart rfl rfl ⟨rfl, rfl, rfl⟩⟩
  | begin =>
      rcases begin_cases w with ⟨-, hrefused, hsame⟩ | ⟨hidle, hok, -⟩
      · rw [hsame]
        exact .inl ⟨hrefused, .apart rfl rfl (.refl _)⟩
      · have hnone : w.live = none := by
          have hstarted := hnumbered.started
          rw [hidle] at hstarted
          simpa using hstarted.symm
        refine .inr ⟨congrArg Label.begin hok, hnone, ?_⟩
        rw [resource_begin hidle]
        exact ⟨rfl, rfl, rfl⟩
  | watcher hstep hadmitted =>
      refine .inl ⟨rfl, ?_⟩
      cases hstep with
      | start | surroundings => exact absurd hadmitted id
      | stop =>
          have hresource : w.stop.2.resource = w.resource := by
            unfold Watcher.stop
            split <;> rfl
          exact .apart rfl rfl (by rw [hresource]; exact .refl _)
      | say =>
          refine .apart rfl rfl ?_
          rw [Watcher.setReady, Watcher.setState_resource]
          exact .refl _
      | requestCheck | note | time | giveUp | turn => exact .apart rfl rfl (.refl _)
      | holder hholder hmove =>
          exact touch_of_holderStep (Watcher.holderStep_of_holderMove? hmove) hholder

/-- The turn and the live run stay as they are. -/
def Steady (w next : Watched) : Prop :=
  next.holder = w.holder ∧ next.live = w.live

theorem Steady.driving_iff (h : Steady w next) : Driving next ↔ Driving w := by
  rw [Driving, Driving, h.1, h.2]

theorem not_driving_of_stage {stage : Watcher.Stage} (hstage : stage ≠ .driving)
    (hnext : next.holder = some { holder with stage }) : ¬ Driving next := by
  rintro ⟨other, hother, hdriving, -⟩
  rw [hnext] at hother
  cases hother
  exact hstage hdriving

theorem not_driving_of_holder (hnext : next.holder = none) : ¬ Driving next := by
  rintro ⟨holder, hholder, -⟩
  rw [hnext] at hholder
  cases hholder

theorem not_driving_of_live (hnext : next.live = none) : ¬ Driving next := by
  rintro ⟨holder, -, -, hlive⟩
  rw [hnext] at hlive
  cases hlive

theorem steady_or_of_holderStep (h : Watcher.HolderStep Session.resource w holder event next)
    (hopens : (Label.watcher (.move event)).opens = false) : Steady w next ∨ ¬ Driving next := by
  cases h with
  | leave => exact .inr (not_driving_of_holder rfl)
  | work => exact .inl ⟨Watcher.display_holder .., Watcher.display_live ..⟩
  | acquire => cases hopens
  | refuse => exact .inr (not_driving_of_stage (by simp) rfl)
  | interrupt => exact .inr (not_driving_of_stage (by simp) rfl)
  | finish => exact .inr (not_driving_of_stage (by simp) rfl)
  | retry => exact .inr (not_driving_of_stage (by simp) rfl)
  | @release ending s _ hstage _ =>
      rcases Watcher.holder_afterRelease holder ending (w.withResource s) with hgone | ⟨wake, hpause⟩
      · exact .inr (not_driving_of_holder hgone)
      · exact .inr (not_driving_of_stage (by simp) hpause)

/-- A run does not come to drive the transport but by an acquisition: the turn and the live run stay as
they are, or no run drives it afterwards. -/
theorem Step.steady_or (h : Step w label next) (hnumbered : Numbered w)
    (hopens : label.opens = false) : Steady w next ∨ ¬ Driving next := by
  cases h with
  | transport => exact .inl ⟨rfl, rfl⟩
  | begin =>
      rcases begin_cases w with ⟨-, -, hsame⟩ | ⟨hidle, -, hstart⟩
      · rw [hsame]
        exact .inl ⟨rfl, rfl⟩
      · -- the new run is live, and has another number than the one whose turn it is
        refine .inr ?_
        have hstarted : (w.withResource { w.resource with tracker := {} }).started = false := hidle
        rw [hstart, Watcher.start, hstarted]
        rintro ⟨holder, hholder, -, hlive⟩
        have hlt := hnumbered.lt holder hholder
        exact absurd (Option.some.inj hlive) (Nat.ne_of_gt hlt)
  | watcher hstep hadmitted =>
      cases hstep with
      | start | surroundings => exact absurd hadmitted id
      | stop =>
          unfold Watcher.stop
          split
          · exact .inr (not_driving_of_live rfl)
          · exact .inl ⟨rfl, rfl⟩
      | say => exact .inl ⟨Watcher.setState_holder .., Watcher.setState_live ..⟩
      | requestCheck | note | time | giveUp => exact .inl ⟨rfl, rfl⟩
      | turn => exact .inr (not_driving_of_stage (by simp) rfl)
      | holder hholder hmove =>
          exact steady_or_of_holderStep (Watcher.holderStep_of_holderMove? hmove) hopens

end
end Modem
end Uplink
