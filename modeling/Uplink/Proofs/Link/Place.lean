import Uplink.Proofs.Link.Interleaving

/-!
# The place of the waiting command

One command at a time has the place where the next response goes.  A submission takes it when it is
empty.  The command loses it to a response, to the end of the connection, or to a write that fails;
nothing else takes it away, and it is told which of these it was.

The write that fails may be that of another command: one that has had its response, or has lost its
connection, before its write was over.  And when a submitter gives up while its command has the place,
the command keeps it.  Without these two, a command has the place exactly as long as its own
submitter waits.
-/

namespace Uplink
namespace Link
namespace Desk

/-- The ways in which a command loses the place, with what its submitter is told. -/
inductive Freed (d : Desk) (pending : Pending) : Label → Except Failure Answer → Prop where
  /-- The first response of a chunk goes to the command. -/
  | answered {run : ℕ} {response : String} {rest : List String} :
      (Moment.mk d (.watcher (.move (.worked run)))).cut = response :: rest →
        Freed d pending (.watcher (.move (.worked run))) (.ok ⟨pending.command, response⟩)
  | closed {run : ℕ} {ending : Watcher.Ending} :
      Freed d pending (.watcher (.move (.released run ending)))
        (.error (.closed d.exchange.name))
  | failed {failure : Failure} : Freed d pending (.failed pending.id failure) (.error failure)
  /-- The write fails of a submission whose own end is noted already. -/
  | displaced {id : ℕ} {failure : Failure} : id ≠ pending.id → id ∈ d.exchange.settled →
      Freed d pending (.failed id failure) (.error (.closed d.exchange.name))

/-- No submitter gives up while its command has the place. -/
def Patient (moments : List Moment) : Prop :=
  ∀ moment ∈ moments, ∀ id, moment.label = .abandon id → moment.desk.exchange.open? ≠ some id

/-- Whether the connection empties the place at a moment: with a response, or at its end. -/
def Moment.clears (moment : Moment) : Bool :=
  match moment.label with
  | .watcher (.move (.worked _)) => !moment.cut.isEmpty
  | .watcher (.move (.released _ _)) => true
  | _ => false

/-- The connection never empties the place while the command there waits for the writer or writes. -/
def Prompt (moments : List Moment) : Prop :=
  ∀ moment ∈ moments, moment.clears = true → ∀ submission ∈ moment.desk.underway,
    moment.desk.exchange.open? = some submission.id → submission.phase = .waiting

instance (moments : List Moment) : Decidable (Prompt moments) :=
  inferInstanceAs (Decidable (∀ moment ∈ moments, moment.clears = true →
    ∀ submission ∈ moment.desk.underway,
      moment.desk.exchange.open? = some submission.id → submission.phase = .waiting))

/-- Whoever waits for the writer or writes has the place. -/
def Written (d : Desk) : Prop :=
  ∀ submission ∈ d.underway, submission.phase ≠ .waiting →
    d.exchange.open? = some submission.id

end Desk

/-! ## What is told -/

namespace Exchange

variable {x : Exchange} {pending : Pending}

theorem mem_outcomes_settlePending (hawaited : pending.awaited = true)
    (outcome : Except Failure Answer) :
    (pending.id, outcome) ∈ (x.settlePending pending outcome).outcomes := by
  rw [settlePending_of_awaited _ _ hawaited]
  exact List.mem_cons_self

/-- Responses that nobody waits for end no submission. -/
theorem outcomes_foldl_complete (h : x.pending = none) (responses : List String) :
    (responses.foldl complete x).outcomes = x.outcomes := by
  induction responses generalizing x with
  | nil => rfl
  | cons response responses ih =>
      rw [List.foldl_cons, ih (x.pending_complete response), x.complete_of_none h]

/-- The first response goes to the command that waits. -/
theorem mem_outcomes_foldl_complete (hpending : x.pending = some pending)
    (hawaited : pending.awaited = true) (response : String) (rest : List String) :
    (pending.id, .ok ⟨pending.command, response⟩) ∈
      ((response :: rest).foldl complete x).outcomes := by
  rw [List.foldl_cons, outcomes_foldl_complete (x.pending_complete response),
    x.complete_of_some hpending]
  exact mem_outcomes_settlePending hawaited _

/-- A chunk that completes no response leaves the place alone. -/
theorem pending_receive_of_eq_nil {chunk : List UInt8}
    (h : Link.responses (x.framer.push chunk).2 = []) : (x.receive chunk).1.pending = x.pending := by
  rw [receive_eq, h]
  rfl

theorem pending_receive_of_ne_nil {chunk : List UInt8}
    (h : Link.responses (x.framer.push chunk).2 ≠ []) : (x.receive chunk).1.pending = none := by
  rw [receive_eq]
  exact pending_foldl_complete _ h

theorem vacate_of_some (hpending : x.pending = some pending) :
    x.vacate = x.settlePending pending (.error (.closed x.name)) := by
  rw [vacate, hpending]

/-- The end of the connection takes the place from the command there. -/
theorem shut_of_some (hpending : x.pending = some pending) :
    x.shut = { x with transport := x.transport.disconnect }.settlePending pending
      (.error (.closed x.name)) := by
  simp only [shut, hpending]

theorem mem_outcomes_failWrite {id : ℕ} (hpending : x.pending = some pending)
    (hawaited : pending.awaited = true) (hne : id ≠ pending.id) (failure : Failure) :
    (pending.id, .error (.closed x.name)) ∈ (x.failWrite id failure).outcomes := by
  refine List.mem_cons_of_mem _ (List.mem_filter.mpr ⟨?_, by simpa using Ne.symm hne⟩)
  rw [vacate_of_some hpending]
  exact mem_outcomes_settlePending hawaited _

end Exchange

/-! ## One step -/

namespace Desk

section

variable {d next : Desk} {label : Label} {pending : Pending}

/-- What the watcher does to the exchange leaves the command in the place, or frees it. -/
theorem freed_of_touch {label : Watcher.Label Unit} {x : Exchange}
    (htouch : Touch d.exchange label x) (hpending : d.exchange.pending = some pending) :
    x.pending = some pending ∨
      x.pending = none ∧ ∃ told, Freed d pending (.watcher label) told ∧
        (pending.awaited = true → (pending.id, told) ∈ x.outcomes) := by
  cases htouch with
  | idle | acquire | refuse | lose => exact .inl hpending
  | @read run chunk transport hread =>
      rw [Exchange.receive_eq]
      cases hresponses : responses (d.exchange.framer.push chunk).2 with
      | nil => exact .inl hpending
      | cons response rest =>
          refine .inr ⟨Exchange.pending_foldl_complete _ (List.cons_ne_nil _ _), _,
            .answered ((cut_of_chunk hread).trans hresponses), fun hawaited => ?_⟩
          refine Exchange.mem_outcomes_foldl_complete ?_ hawaited response rest
          exact hpending
  | shut =>
      refine .inr ⟨d.exchange.pending_shut, _, .closed, fun hawaited => ?_⟩
      rw [Exchange.shut_of_some hpending]
      exact Exchange.mem_outcomes_settlePending hawaited _

/-- A command in the place stays there, with its submitter or without, or loses it in one of the
ways. -/
theorem Step.place (h : Step d label next) (hkept : Kept d.exchange d.ids)
    (hpending : d.exchange.pending = some pending) :
    next.exchange.pending = some pending ∨
      label = .abandon pending.id ∧
        next.exchange.pending = some { pending with awaited := false } ∨
      next.exchange.pending = none ∧ ∃ told, Freed d pending label told ∧
        (pending.awaited = true → (pending.id, told) ∈ next.exchange.outcomes) := by
  cases h with
  | submit command =>
      rcases d.submit_cases command with ⟨failure, -, hsubmit⟩ | ⟨-, hfree, -⟩
      · rw [hsubmit]
        exact .inl hpending
      · rw [hpending] at hfree
        cases hfree
  | take | written | resume | transport => exact .inl hpending
  | @failed id failure writing =>
      refine .inr (.inr ⟨d.exchange.pending_failWrite id failure, ?_⟩)
      by_cases hid : id = pending.id
      · subst hid
        exact ⟨_, .failed, fun _ => List.mem_cons_self⟩
      · -- the other submission has lost the place before
        have hsettled : id ∈ d.exchange.settled := by
          refine (hkept.replied id (mem_ids_of_mem writing)).resolve_left ?_
          rw [Exchange.open?, hpending]
          exact fun hopen => hid (Option.some.inj hopen).symm
        exact ⟨_, .displaced hid hsettled, fun hawaited =>
          Exchange.mem_outcomes_failWrite hpending hawaited hid failure⟩
  | @abandon id _ =>
      have hleave : (d.abandon id).exchange.pending =
          some (if pending.id = id then { pending with awaited := false } else pending) :=
        congrArg (Option.map _) hpending
      rw [hleave]
      split
      · rename_i hid
        exact .inr (.inl ⟨congrArg _ hid.symm, rfl⟩)
      · exact .inl rfl
  | watcher step admits =>
      rcases freed_of_touch (touch_of_step step (ne_surroundings_of_admits admits)) hpending with
        hsame | hfreed
      · exact .inl hsame
      · exact .inr (.inr hfreed)

/-- No step of the watcher puts a command into the place. -/
theorem pending_eq_none_of_touch {label : Watcher.Label Unit} {x x' : Exchange}
    (htouch : Touch x label x') (hfree : x.pending = none) : x'.pending = none := by
  cases htouch with
  | idle | acquire | refuse | lose => exact hfree
  | @read run chunk transport hread =>
      by_cases hcut : responses (x.framer.push chunk).2 = []
      · exact (Exchange.pending_receive_of_eq_nil (x := { x with transport }) hcut).trans hfree
      · exact Exchange.pending_receive_of_ne_nil hcut
  | shut => exact x.pending_shut

/-- Only a submission to a link that is ready takes the empty place. -/
theorem Step.place_of_free (h : Step d label next) (hfree : d.exchange.pending = none)
    (hpending : next.exchange.pending = some pending) :
    d.link.ready = true ∧ label = .submit pending.command ∧
      pending = ⟨d.exchange.submissions, pending.command, true⟩ := by
  have hempty : next.exchange.pending ≠ none := by simp [hpending]
  cases h with
  | submit command =>
      rcases d.submit_cases command with ⟨failure, -, hsubmit⟩ | ⟨hready, -, hsubmit⟩
      · rw [hsubmit] at hempty
        exact absurd hfree hempty
      · rw [hsubmit] at hpending
        cases hpending
        exact ⟨hready, rfl, rfl⟩
  | take | written | resume | transport => exact absurd hfree hempty
  | failed => exact absurd (d.exchange.pending_failWrite _ _) hempty
  | abandon => exact absurd (congrArg (Option.map _) hfree) hempty
  | watcher step admits =>
      have htouch := touch_of_step step (ne_surroundings_of_admits admits)
      exact absurd (pending_eq_none_of_touch htouch hfree) hempty

/-- Only its submitter changes a command that keeps the place. -/
theorem Step.eq_or_left {before : Pending} (h : Step d label next) (hkept : Kept d.exchange d.ids)
    (hbefore : d.exchange.pending = some before) (hpending : next.exchange.pending = some pending) :
    pending = before ∨ label = .abandon before.id ∧ pending = { before with awaited := false } := by
  rcases h.place hkept hbefore with hsame | ⟨hlabel, hleft⟩ | ⟨hfree, -⟩
  · exact .inl (Option.some.inj (hpending.symm.trans hsame))
  · exact .inr ⟨hlabel, Option.some.inj (hpending.symm.trans hleft)⟩
  · rw [hpending] at hfree
    cases hfree

/-- Unless the connection empties the place, the watcher leaves it alone. -/
theorem open?_of_touch {label : Watcher.Label Unit} {x : Exchange}
    (htouch : Touch d.exchange label x) (hclears : (Moment.mk d (.watcher label)).clears = false) :
    x.open? = d.exchange.open? := by
  cases htouch with
  | idle | acquire | refuse | lose => rfl
  | @read run chunk transport hread =>
      have hnone : responses (d.exchange.framer.push chunk).2 = [] := by
        simpa [Moment.clears, cut_of_chunk hread] using hclears
      exact congrArg (Option.map Pending.id) (Exchange.pending_receive_of_eq_nil hnone)
  | shut => cases hclears

/-- While no writing is hurried, whoever waits for the writer or writes keeps the place. -/
theorem Written.step (h : Written d) (hstep : Step d label next)
    (hprompt : (Moment.mk d label).clears = true → ∀ submission ∈ d.underway,
      d.exchange.open? = some submission.id → submission.phase = .waiting) : Written next := by
  -- the place is as before, or nobody but those who wait is left
  have hsame : ∀ {d' : Desk}, d'.exchange.open? = d.exchange.open? →
      (∀ submission ∈ d'.underway, submission ∈ d.underway) → Written d' := by
    intro d' hopen hunderway submission hmem hphase
    rw [hopen]
    exact h submission (hunderway submission hmem) hphase
  have hcleared : (Moment.mk d label).clears = true → ∀ submission ∈ d.underway,
      submission.phase = .waiting := by
    intro hclears submission hmem
    by_contra hphase
    exact hphase (hprompt hclears submission hmem (h submission hmem hphase))
  cases hstep with
  | submit command =>
      rcases d.submit_cases command with ⟨failure, -, hsubmit⟩ | ⟨-, hfree, hsubmit⟩
      · rw [hsubmit]
        exact hsame rfl fun _ hmem => hmem
      · rw [hsubmit]
        intro submission hmem hphase
        rcases List.mem_append.mp hmem with hmem | hmem
        · have hopen := h submission hmem hphase
          rw [Exchange.open?, hfree] at hopen
          cases hopen
        · cases List.mem_singleton.mp hmem
          rfl
  | @take id free queued =>
      intro submission hmem hphase
      rcases mem_toPhase hmem with hbefore | rfl
      · exact h submission hbefore hphase
      · exact h ⟨id, .queued⟩ queued (by simp)
  | @written id writing stream =>
      intro submission hmem hphase
      rcases mem_toPhase hmem with hbefore | rfl
      · exact h submission hbefore hphase
      · exact absurd rfl hphase
  | @failed id failure writing =>
      -- two of those who wait for the writer or write cannot both have the place
      intro submission hmem hphase
      obtain ⟨hmem, hid⟩ := List.mem_filter.mp hmem
      have hthis := h submission hmem hphase
      have hother : d.exchange.open? = some id := h ⟨id, .writing⟩ writing (by simp)
      rw [hother, Option.some.injEq] at hthis
      simp [hthis] at hid
  | resume => exact hsame rfl fun _ hmem => List.mem_of_mem_filter hmem
  | abandon => exact hsame (d.exchange.open?_leave _) fun _ hmem => List.mem_of_mem_filter hmem
  | transport => exact hsame rfl fun _ hmem => hmem
  | @watcher _ label step admits =>
      have htouch := touch_of_step step (ne_surroundings_of_admits admits)
      cases hclears : (Moment.mk d (.watcher label)).clears with
      | true => exact fun submission hmem hphase => absurd (hcleared hclears submission hmem) hphase
      | false => exact hsame (open?_of_touch htouch hclears) fun _ hmem => hmem

/-- A submission is told that the link is busy only if another command has the place. -/
theorem isSome_open?_of_busy (hkept : Kept d.exchange d.ids) {command : String}
    (h : (d.exchange.submissions, .error .busy) ∈ (d.submit command).exchange.outcomes) :
    ∃ id, d.exchange.open? = some id := by
  have hnew : ∀ outcome, (d.exchange.submissions, outcome) ∉ d.exchange.outcomes := by
    intro outcome hmem
    exact Nat.lt_irrefl _ (hkept.settled_lt _ (List.mem_map_of_mem (f := Prod.fst) hmem))
  rcases d.submit_cases command with ⟨failure, hbusy, hsubmit⟩ | ⟨-, -, hsubmit⟩
  · rw [hsubmit] at h
    rcases List.mem_cons.mp h with hhead | hmem
    · cases hhead
      obtain ⟨pending, hpending⟩ := Option.ne_none_iff_exists'.mp (hbusy rfl)
      exact ⟨pending.id, Exchange.open?_eq_some.mpr ⟨pending, hpending, rfl⟩⟩
    · exact absurd hmem (hnew _)
  · rw [hsubmit] at h
    exact absurd h (hnew _)

end

/-! ## A run -/

section

variable {first last : Desk} {moments : List Moment} {pending : Pending}

/-- A command in the place without its submitter was left there. -/
theorem Run.abandoned (hfresh : Fresh first) (hrun : Run first moments last)
    (hpending : last.exchange.pending = some pending) (hawaited : pending.awaited = false) :
    ∃ moment ∈ moments, moment.label = .abandon pending.id ∧
      moment.desk.exchange.open? = some pending.id := by
  induction hrun generalizing pending with
  | nil =>
      rw [hfresh.pending] at hpending
      cases hpending
  | @snoc last next moments label hrun hstep ih =>
      cases hplace : last.exchange.pending with
      | none =>
          obtain ⟨-, -, hnew⟩ := hstep.place_of_free hplace hpending
          rw [hnew] at hawaited
          cases hawaited
      | some before =>
          rcases hstep.eq_or_left (hrun.kept hfresh) hplace hpending with rfl | ⟨hlabel, rfl⟩
          · obtain ⟨moment, hmem, hleft⟩ := ih hplace hawaited
            exact ⟨moment, List.mem_append_left _ hmem, hleft⟩
          · exact ⟨_, List.mem_append_right _ List.mem_cons_self, hlabel,
              Exchange.open?_eq_some.mpr ⟨before, hplace, rfl⟩⟩

theorem Run.written (hfresh : Fresh first) (hrun : Run first moments last)
    (hprompt : Prompt moments) : Written last := by
  induction hrun with
  | nil =>
      intro submission hmem
      rw [hfresh.underway] at hmem
      cases hmem
  | snoc _ hstep ih =>
      refine (ih fun moment hmem => ?_).step hstep ?_
      · exact hprompt moment (List.mem_append_left _ hmem)
      · exact hprompt _ (List.mem_append_right _ List.mem_cons_self)

/-- In every interleaving, the command in the place is one whose submitter is under way, or has given
up while the command was there.  It loses the place in one of the listed ways and is told in which,
and only a submission to a link that is ready takes the place when it is empty.

If no submitter gives up while its command has the place, the submitter of the command there is under
way, and a submission finds the link busy only because of such a command.  If the connection never
empties the place while its command waits for the writer or writes, then a write that fails is that of
the command in the place. -/
theorem Run.place_owned (hfresh : Fresh first) (hrun : Run first moments last) :
    (∀ pending, last.exchange.pending = some pending →
      (pending.awaited = true ↔ pending.id ∈ last.ids) ∧
      (pending.awaited = false → ∃ moment ∈ moments, moment.label = .abandon pending.id ∧
        moment.desk.exchange.open? = some pending.id)) ∧
    (∀ label next, Step last label next →
      (∀ pending, last.exchange.pending = some pending →
        next.exchange.pending = some pending ∨
        label = .abandon pending.id ∧
          next.exchange.pending = some { pending with awaited := false } ∨
        next.exchange.pending = none ∧ ∃ told, Freed last pending label told ∧
          (pending.awaited = true → (pending.id, told) ∈ next.exchange.outcomes)) ∧
      (∀ pending, last.exchange.pending = none → next.exchange.pending = some pending →
        last.link.ready = true ∧ label = .submit pending.command ∧
          pending = ⟨last.exchange.submissions, pending.command, true⟩)) ∧
    (Patient moments →
      (∀ pending, last.exchange.pending = some pending → pending.id ∈ last.ids) ∧
      ∀ command,
        (last.exchange.submissions, .error .busy) ∈ (last.submit command).exchange.outcomes →
          ∃ id ∈ last.ids, last.exchange.open? = some id) ∧
    (Prompt moments → ∀ id failure next, Step last (.failed id failure) next →
      last.exchange.open? = some id) := by
  have hkept := hrun.kept hfresh
  have howned : Patient moments →
      ∀ pending, last.exchange.pending = some pending → pending.id ∈ last.ids := by
    intro hpatient pending hpending
    refine (hkept.awaited pending hpending).mp ?_
    by_contra hleft
    obtain ⟨moment, hmem, hlabel, hopen⟩ :=
      hrun.abandoned hfresh hpending (eq_false_of_ne_true hleft)
    exact hpatient moment hmem _ hlabel hopen
  refine ⟨?_, ?_, ?_, ?_⟩
  · intro pending hpending
    exact ⟨hkept.awaited pending hpending, hrun.abandoned hfresh hpending⟩
  · intro label next hstep
    exact ⟨fun pending => hstep.place hkept, fun pending => hstep.place_of_free⟩
  · intro hpatient
    refine ⟨howned hpatient, fun command hbusy => ?_⟩
    obtain ⟨id, hopen⟩ := isSome_open?_of_busy hkept hbusy
    obtain ⟨pending, hpending, rfl⟩ := Exchange.open?_eq_some.mp hopen
    exact ⟨pending.id, howned hpatient pending hpending, hopen⟩
  · intro hprompt id failure next hstep
    cases hstep with
    | failed writing => exact hrun.written hfresh hprompt ⟨id, .writing⟩ writing (by simp)

end

/-! ## A command that keeps the place, and one that loses it to another -/

/-- A desk after the next move of its watcher. -/
def moved (d : Desk) : Desk :=
  { d with link := Link.moved d.link }

theorem step_moved {d : Desk} (event : Watcher.Event)
    (h : (d.link.move? Exchange.resource).map Prod.fst = some event)
    (hadmits : d.Admits (.move event)) : Step d (.watcher (.move event)) d.moved := by
  obtain ⟨⟨event, next⟩, hmove, rfl⟩ := Option.map_eq_some_iff.mp h
  rw [moved, Link.moved, hmove]
  exact .watcher (Watcher.step_of_move? hmove) hadmits

/-- The peer of a desk sends some bytes. -/
def hear (d : Desk) (bytes : List UInt8) : Desk :=
  d.withExchange { d.exchange with transport := (d.exchange.transport.peerWrite bytes).2 }

theorem step_hear (d : Desk) (bytes : List UInt8) : Step d .transport (d.hear bytes) := by
  refine .transport ?_
  unfold Transport.peerWrite
  split <;> rfl

/-- A link that was never started, with nobody at the desk. -/
def idleDesk : Desk where
  link := pipedLink

/-- The link is ready. -/
def readyDesk : Desk where
  link := Link.moved (Link.moved (pipedLink.start ()).2)

/-- A command has the place and is being written. -/
def writingDesk : Desk :=
  (readyDesk.submit "a").toPhase 0 .writing

/-- The command is written. -/
def askedDesk : Desk :=
  writingDesk.toPhase 0 .waiting

/-- From the start of the link to the write of the first command. -/
def writingMoments : List Moment :=
  [⟨idleDesk, .watcher (.start () true)⟩,
    ⟨{ link := (pipedLink.start ()).2 }, .watcher (.move (.attempted 0))⟩,
    ⟨{ link := Link.moved (pipedLink.start ()).2 }, .watcher (.move (.acquired 0))⟩,
    ⟨readyDesk, .submit "a"⟩,
    ⟨readyDesk.submit "a", .take 0⟩]

theorem fresh_idleDesk : Fresh idleDesk :=
  ⟨⟨⟨rfl, rfl, rfl, rfl⟩, _, _, _, rfl⟩, rfl⟩

theorem run_writingMoments : Run idleDesk writingMoments writingDesk := by
  have hstart := Run.single (d := idleDesk) (.watcher (.start pipedLink ()) trivial)
  have hattempted := hstart.snoc (step_moved (.attempted 0) rfl trivial)
  have hacquired := hattempted.snoc
    (step_moved (.acquired 0) rfl fun _ hmem => absurd hmem List.not_mem_nil)
  have hsubmit := hacquired.snoc (.submit readyDesk "a")
  exact hsubmit.snoc (.take (by decide) (by decide))

theorem run_askedDesk : Run idleDesk (writingMoments ++ [⟨writingDesk, .written 0⟩]) askedDesk :=
  run_writingMoments.snoc (.written (by decide) (by decide))

/-- The response to the first command is read. -/
def answeredDesk : Desk :=
  (askedDesk.hear [60, 114, 62]).moved

/-- A second command has the place and is being written.  The submitter of the first one has not gone
on yet. -/
def secondDesk : Desk :=
  (answeredDesk.submit "b").toPhase 1 .writing

/-- From the start of the link to the write of the second command. -/
def secondMoments : List Moment :=
  writingMoments ++ [⟨writingDesk, .written 0⟩] ++ [⟨askedDesk, .transport⟩] ++
    [⟨askedDesk.hear [60, 114, 62], .watcher (.move (.worked 0))⟩] ++
    [⟨answeredDesk, .submit "b"⟩] ++ [⟨answeredDesk.submit "b", .take 1⟩]

theorem run_secondMoments : Run idleDesk secondMoments secondDesk := by
  have hheard := run_askedDesk.snoc (step_hear askedDesk [60, 114, 62])
  have hanswered := hheard.snoc (step_moved (.worked 0) (by decide +kernel) trivial)
  have hsubmit := hanswered.snoc (.submit answeredDesk "b")
  exact hsubmit.snoc (.take (by decide +kernel) (by decide +kernel))

theorem Run.place_owned_second :
    secondDesk.exchange.open? = some 1 ∧ secondDesk.ids = [0, 1] ∧
      ∀ id failure next, Step secondDesk (.failed id failure) next → id = 1 := by
  have hpatient : Patient secondMoments := by
    simp [Patient, secondMoments, writingMoments]
  have hprompt : Prompt secondMoments := by decide +kernel
  obtain ⟨-, -, howned, hwrite⟩ := run_secondMoments.place_owned fresh_idleDesk
  have hopen : secondDesk.exchange.open? = some 1 := by decide +kernel
  refine ⟨hopen, by decide +kernel, fun id failure next hstep => ?_⟩
  have hthis := hwrite hprompt id failure next hstep
  rw [hopen, Option.some.injEq] at hthis
  exact hthis.symm

/-- The submitter of the written command has given up. -/
def leftDesk : Desk :=
  askedDesk.abandon 0

/-- The response to the first command is read while its write is not over, and a second submission has
begun. -/
def hurriedDesk : Desk :=
  (writingDesk.hear [60, 114, 62]).moved.submit "b"

/-- The command of a submitter that gave up keeps the place: the next submission finds the link busy,
and the next response goes to nobody.  And a write that fails after its response came takes the place
from another command, whose submitter is told that the connection was closed. -/
theorem place_kept_and_lost :
    (∃ moments, Run idleDesk moments leftDesk ∧ leftDesk.ids = [] ∧
      leftDesk.exchange.open? = some 0 ∧
      (leftDesk.submit "b").exchange.outcomes = [(1, .error .busy)] ∧
      (Moment.mk (leftDesk.hear [60, 114, 62]) (.watcher (.move (.worked 0)))).cut = ["<r>"] ∧
      (leftDesk.hear [60, 114, 62]).moved.exchange.outcomes = [] ∧
      (leftDesk.hear [60, 114, 62]).moved.exchange.published = []) ∧
    ∃ moments, Run idleDesk moments hurriedDesk ∧ hurriedDesk.ids = [0, 1] ∧
      hurriedDesk.exchange.open? = some 1 ∧
      Step hurriedDesk (.failed 0 (.io "write" none)) (hurriedDesk.fail 0 (.io "write" none)) ∧
      (hurriedDesk.fail 0 (.io "write" none)).exchange.open? = none ∧
      (1, .error (.closed "piped")) ∈
        (hurriedDesk.fail 0 (.io "write" none)).exchange.outcomes := by
  constructor
  · refine ⟨_, run_askedDesk.snoc (.abandon (by decide)), rfl, rfl, rfl, ?_, ?_, ?_⟩
    · decide +kernel
    · decide +kernel
    · decide +kernel
  · have hheard := run_writingMoments.snoc (step_hear writingDesk [60, 114, 62])
    have hanswered := hheard.snoc (step_moved (.worked 0) (by decide +kernel) trivial)
    refine ⟨_, hanswered.snoc (.submit _ "b"), ?_, ?_, .failed ?_, ?_, ?_⟩
    · decide +kernel
    · decide +kernel
    · decide +kernel
    · decide +kernel
    · decide +kernel

end Desk
end Link
end Uplink
