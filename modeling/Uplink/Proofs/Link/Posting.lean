import Uplink.Proofs.Link.Mail

/-!
# Letters in one piece

`Watched.submit` writes the whole letter at once.  What happens to a link in this way is a run of a desk
with its letters, so what a stream takes in every interleaving is what it takes from such a link.
-/

namespace Uplink
namespace Link
namespace Mail

/-- Everyone under way waits for the response, and no write is under way. -/
structure AtEase (m : Mail) : Prop where
  desk : m.desk.AtEase
  done : ∀ letter ∈ m.letters, ¬ letter.IsOpen

section

variable {m : Mail} {letters : List Letter} {letter : Letter}

theorem over_concat (hover : ∀ other ∈ letters, ¬ other.IsOpen) (hletter : ¬ letter.IsOpen) :
    ∀ other ∈ letters ++ [letter], ¬ other.IsOpen := by
  refine List.forall_mem_append.mpr ⟨hover, ?_⟩
  simpa using hletter

/-- The letters see nothing of what the desk does apart from them. -/
theorem exists_run_aside {first last : Desk} {moments : List Desk.Moment}
    (hrun : Desk.Run first moments last) (haside : ∀ moment ∈ moments, moment.label.Aside)
    (letters : List Letter) (received looked : List UInt8) :
    ∃ parts, Run ⟨first, letters, received, looked⟩ parts ⟨last, letters, received, looked⟩ := by
  induction hrun with
  | nil => exact ⟨[], .nil _⟩
  | snoc _ hstep ih =>
      obtain ⟨hbefore, hnow⟩ := List.forall_mem_append.mp haside
      obtain ⟨parts, hparts⟩ := ih hbefore
      exact ⟨_, hparts.snoc (.aside hstep (hnow _ List.mem_cons_self))⟩

/-- All whose command has lost the place go on. -/
theorem exists_run_resume (hover : ∀ other ∈ m.letters, ¬ other.IsOpen)
    (hwaiting : ∀ submission ∈ m.desk.underway, submission.phase = .waiting) :
    ∃ moments last, Run m moments last ∧ last.desk.link = m.desk.link ∧ last.AtEase := by
  obtain ⟨moments, desk, hrun, hlink, hease, hresumes⟩ := Desk.exists_run_resume hwaiting
  have haside : ∀ moment ∈ moments, moment.label.Aside := by
    intro moment hmem
    obtain ⟨id, hid⟩ := hresumes moment hmem
    rw [hid]
    trivial
  obtain ⟨parts, hparts⟩ := exists_run_aside hrun haside m.letters m.received m.looked
  exact ⟨parts, _, hparts, hlink, hease, hover⟩

/-- The letter of the command in the place is written in one piece: it is taken up, the stream takes all
of it or nothing, and the write ends. -/
theorem exists_run_send (w : Watched) {x : Exchange} {id : ℕ} (hfree : x.pending = none)
    (hnew : id ∉ x.settled) (command : String) (hover : ∀ other ∈ letters, ¬ other.IsOpen)
    (received looked : List UInt8) :
    ∃ moments last,
      Run ⟨⟨w.withResource (x.reserve id command), [⟨id, .queued⟩]⟩,
        letters ++ [⟨id, Text.utf8 (x.framing.wrap command), [], .queued⟩], received, looked⟩
        moments last ∧
      last.desk.link = w.withResource (x.send id command) ∧ last.AtEase := by
  have htake : Run ⟨⟨w.withResource (x.reserve id command), [⟨id, .queued⟩]⟩,
      letters ++ [⟨id, Text.utf8 (x.framing.wrap command), [], .queued⟩], received, looked⟩ _ _ :=
    .single (.turn rfl (.take hover rfl) (Desk.step_take_sole _ id))
  rw [Exchange.send]
  split
  · rename_i transport hwrite
    obtain ⟨-, hopen⟩ := stream_of_write_ok hwrite
    have hput := htake.snoc (.put rfl rfl List.prefix_rfl hwrite)
    have hwritten := hput.snoc (.turn rfl (.written rfl (List.nil_append _))
      (Desk.step_written_sole id hopen))
    refine ⟨_, _, hwritten, rfl, ?_, over_concat hover (by simp [Letter.IsOpen])⟩
    intro submission hmem
    cases List.mem_singleton.mp hmem
    exact ⟨rfl, rfl⟩
  · rename_i failure transport hwrite
    obtain rfl := eq_of_write_error hwrite
    have hfailed := htake.snoc (.turn rfl (.failed rfl)
      (Desk.step_failed_sole w hfree hnew command failure))
    exact ⟨_, _, hfailed, rfl, Desk.atEase_nil _, over_concat hover (by simp [Letter.IsOpen])⟩

/-- A submission in one piece is a run of its parts. -/
theorem exists_run_submit (hkept : Desk.Kept m.desk.exchange m.desk.ids) (hease : m.AtEase)
    (command : String) :
    ∃ moments last, Run m moments last ∧ last.desk.link = m.desk.link.submit command ∧
      last.AtEase := by
  have hsubmit := Run.single (.submit m command)
  cases hready : m.desk.link.ready with
  | false =>
      rw [submit_of_not_ready hready] at hsubmit
      refine ⟨_, _, hsubmit, ?_, hease.desk.withExchange rfl, hease.done⟩
      simp [Watched.submit, hready, decline, Desk.withExchange, Desk.exchange, Exchange.conclude]
  | true =>
      cases hpending : m.desk.exchange.pending with
      | some pending =>
          have hresource : m.desk.link.resource.pending = some pending := hpending
          rw [submit_of_busy hready (by simp [hpending])] at hsubmit
          refine ⟨_, _, hsubmit, ?_, hease.desk.withExchange rfl, hease.done⟩
          simp [Watched.submit, hready, hresource, decline, Desk.withExchange, Desk.exchange,
            Exchange.conclude]
      | none =>
          have hresource : m.desk.link.resource.pending = none := hpending
          have hnew : m.desk.exchange.submissions ∉ m.desk.exchange.settled :=
            fun hmem => Nat.lt_irrefl _ (hkept.settled_lt _ hmem)
          obtain ⟨moments, last, hrun, hlink, hlast⟩ := exists_run_send m.desk.link
            (x := { m.desk.exchange with submissions := m.desk.exchange.submissions + 1 })
            hpending hnew command hease.done m.received m.looked
          rw [submit_of_accepts ⟨hready, hpending⟩, accept, hease.desk.underway_eq_nil hpending] at hsubmit
          refine ⟨_, last, hsubmit.trans hrun, ?_, hlast⟩
          simpa [Watched.submit, hready, hresource, Desk.exchange] using hlink

/-- When every submitter gives up, the one that is under way does, if there is one. -/
theorem exists_run_abandon (hkept : Desk.Kept m.desk.exchange m.desk.ids) (hease : m.AtEase) :
    ∃ moments last, Run m moments last ∧ last.desk.link = m.desk.link.abandon ∧ last.AtEase := by
  rcases Desk.abandon_cases hkept hease.desk with hlink | ⟨id, hid, hlink, hlast⟩
  · exact ⟨[], m, .nil m, hlink.symm, hease⟩
  · refine ⟨_, _, Run.single (.abandon hid), hlink, hlast, ?_⟩
    intro other hother
    obtain ⟨letter, hletter, rfl⟩ := List.mem_map.mp hother
    split
    · exact letter.not_isOpen_breakOff
    · exact hease.done letter hletter

/-- What the surroundings do to the transport: its peer looks at what was sent, or something else happens
that sends nothing. -/
def Around (t t' : Transport) : Prop :=
  t' = t.takeSent.2 ∨ t.Stirred t'

/-- Whatever the watcher does, no letter is begun by it. -/
theorem exists_step_watcher {label : Watcher.Label Unit} {desk : Desk}
    (hover : ∀ letter ∈ m.letters, ¬ letter.IsOpen)
    (hstep : Desk.Step m.desk (.watcher label) desk) :
    ∃ next, Step m (.desk (.watcher label)) next ∧ next.desk = desk ∧
      ∀ letter ∈ next.letters, ¬ letter.IsOpen := by
  by_cases hacquired : ∃ run, label = .move (.acquired run)
  · obtain ⟨run, rfl⟩ := hacquired
    exact ⟨_, .acquired hstep hover, rfl, by simp⟩
  · have haside : (Desk.Label.watcher label).Aside := by
      cases label with
      | move event =>
          cases event with
          | acquired run => exact hacquired ⟨run, rfl⟩
          | _ => trivial
      | _ => trivial
    exact ⟨_, .aside hstep haside, rfl, hover⟩

/-- What happens to a link in one piece is a run of a desk with its letters. -/
theorem exists_run_of_step {label : Link.Label} {next : Watched}
    (hkept : Desk.Kept m.desk.exchange m.desk.ids) (hease : m.AtEase)
    (hstep : Link.Step m.desk.link label next)
    (hsay : ∀ run ready, label ≠ .watcher (.say run ready))
    (haround : label = .transport → Around m.transport next.resource.transport) :
    ∃ moments last, Run m moments last ∧ last.desk.link = next ∧ last.AtEase := by
  cases hstep with
  | submit command => exact exists_run_submit hkept hease command
  | abandon => exact exists_run_abandon hkept hease
  | transport transport =>
      rcases haround rfl with hlook | hstirred
      · refine ⟨_, _, Run.single (.look m), ?_, hease.desk, hease.done⟩
        rw [Mail.transport] at hlook
        change transport = _ at hlook
        rw [hlook]
        rfl
      · exact ⟨_, _, Run.single (.transport hstirred), rfl, hease.desk, hease.done⟩
  | @watcher _ label hwatcher hsurroundings =>
      have hwaiting : ∀ submission ∈ m.desk.underway, submission.phase = .waiting :=
        fun submission hmem => (hease.desk submission hmem).1
      have hadmits := Desk.admits_of_waiting hwaiting hsurroundings fun run ready hlabel =>
        hsay run ready (congrArg _ hlabel)
      obtain ⟨between, hnext, hdesk, hover⟩ :=
        exists_step_watcher hease.done (.watcher hwatcher hadmits)
      obtain ⟨moments, last, hrun, hlink, hlast⟩ :=
        exists_run_resume hover (by rw [hdesk]; exact hwaiting)
      refine ⟨_, last, (Run.single hnext).trans hrun, ?_, hlast⟩
      rw [hlink, hdesk]

end

/-- Whatever happens to a link in one piece, it is what happens to the link of a desk with its letters, if
the surroundings send nothing. -/
theorem exists_run_of_run {first last : Watched} {moments : List Link.Moment}
    (hrun : Link.Run first moments last) (hfresh : Link.Fresh first)
    (hsay : ∀ moment ∈ moments, ∀ run ready, moment.label ≠ .watcher (.say run ready))
    (hsteady : Desk.Steady Around moments last) :
    ∃ parts mail, Run { desk := { link := first } } parts mail ∧ mail.desk.link = last ∧
      mail.AtEase := by
  induction hrun with
  | nil => exact ⟨[], _, .nil _, rfl, Desk.atEase_nil _, by simp⟩
  | @snoc last next moments label _ hstep ih =>
      obtain ⟨parts, mail, hparts, rfl, hease⟩ :=
        ih (fun moment hmem => hsay moment (List.mem_append_left _ hmem)) hsteady.of_concat
      have hkept := hparts.toDesk.kept ⟨hfresh, rfl⟩
      obtain ⟨more, final, hmore, hlink, hfinal⟩ := exists_run_of_step hkept hease hstep
        (hsay _ (List.mem_append_right _ List.mem_cons_self))
        (hsteady moments ⟨mail.desk.link, label⟩ [] rfl)
      exact ⟨_, final, hparts.trans hmore, hlink, hfinal⟩

end Mail
end Link
end Uplink
