import Uplink.Proofs.Link.Letters

/-!
# Admission

A submission is admitted if the link is ready and the place is free.  Otherwise it fails at once, and
nothing but its failure comes of it.  What a stream takes are the admitted commands between their
delimiters, in the order of their admission, as long as the writes go well; one that fails ends its
submission and frees the place.
-/

namespace Uplink
namespace Link
namespace Mail

section

variable {m next first last : Mail} {framing : Framing} {moments : List Moment}

/-- A write that fails is told to its submitter and takes the place from whoever has it. -/
theorem Step.eq_of_failed {id : ℕ} {failure : Failure}
    (h : Step m (.desk (.failed id failure)) next) :
    next.desk = m.desk.fail id failure ∧ next.received = m.received := by
  cases h with
  | turn _ _ step =>
      cases step
      exact ⟨rfl, rfl⟩
  | aside _ aside => exact aside.elim

theorem mem_outcomes_failWrite (x : Exchange) (id : ℕ) (failure : Failure)
    (outcome : Except Failure Answer) :
    (id, outcome) ∈ (x.failWrite id failure).outcomes ↔ outcome = .error failure := by
  simp [Exchange.failWrite, Exchange.conclude, Exchange.forget]

/-- In every interleaving of submissions, responses and connections, a submission to a link that is not
ready fails, and so does one that finds the place taken; the device, the command in the place, the
framer and the observers see nothing of it.  All others are admitted, and only during a connection.  At
most one submission waits for its response.

What the open stream has taken are the beginnings of the commands that were admitted on the connection,
each between its delimiters, in the order of their admission.  If no write broke off, it is a beginning
of them all, one after another, and when no write is under way it is all of them.

A write that fails ends its submission with its failure; the link is as ready as before, and the next
submission is admitted if it is. -/
theorem Run.admission (hfresh : Fresh framing first) (hrun : Run first moments last) :
    (∀ command,
      (last.desk.link.ready = false → last.submit command = last.decline .notReady) ∧
      (last.desk.link.ready = true → last.desk.exchange.pending ≠ none →
        last.submit command = last.decline .busy) ∧
      (last.Accepts → last.submit command = last.accept command)) ∧
    (last.Accepts → last.desk.Connected) ∧
    (∀ id ∈ last.desk.ids, id ∉ last.desk.exchange.settled →
      last.desk.exchange.open? = some id) ∧
    (∃ parts,
      List.Forall₂ (· <+: ·) parts
        ((admitted moments).map fun command => Text.utf8 (framing.decoded.wrap command)) ∧
      last.received = parts.flatten) ∧
    (Unbroken moments →
      last.received <+:
        (admitted moments).flatMap (fun command => Text.utf8 (framing.decoded.wrap command)) ∧
      ((∀ letter ∈ last.letters, ¬ letter.IsOpen) →
        last.received =
          (admitted moments).flatMap fun command => Text.utf8 (framing.decoded.wrap command))) ∧
    last.transport.Carries last.looked last.received ∧
    (∀ id failure next, Step last (.desk (.failed id failure)) next →
      (∀ outcome, (id, outcome) ∈ next.desk.exchange.outcomes ↔ outcome = .error failure) ∧
      next.transport = last.transport ∧ next.received = last.received ∧
      next.desk.link.ready = last.desk.link.ready ∧
      (last.desk.link.ready = true → next.Accepts)) := by
  obtain ⟨htexts, hfiled, hunbroken, hcarries⟩ := hrun.posted hfresh
  have hkept := hrun.toDesk.kept hfresh.desk
  refine ⟨?_, ?_, ?_, ?_, ?_, hcarries, ?_⟩
  · exact fun command => ⟨submit_of_not_ready, submit_of_busy, submit_of_accepts⟩
  · exact fun haccepts => hrun.toDesk.connected_of_ready hfresh.desk haccepts.1
  · exact fun id hid hsettled => (hkept.replied id hid).resolve_right hsettled
  · rw [← htexts]
    exact hfiled.exists_parts
  · intro hmoments
    rw [List.flatMap_def, ← htexts]
    exact ⟨hfiled.received_prefix (hunbroken hmoments), hfiled.received_eq (hunbroken hmoments)⟩
  · intro id failure next hstep
    obtain ⟨hdesk, hreceived⟩ := hstep.eq_of_failed
    have htransport : next.transport = last.transport := by
      rw [transport, hdesk]
      exact last.desk.exchange.frame_vacate.2.1
    have hready : next.desk.link.ready = last.desk.link.ready := by
      rw [hdesk]
      rfl
    have hfree : next.desk.exchange.pending = none := by
      rw [hdesk]
      exact last.desk.exchange.pending_failWrite id failure
    refine ⟨?_, htransport, hreceived, hready, fun hthis => ⟨hready.trans hthis, hfree⟩⟩
    rw [hdesk]
    exact mem_outcomes_failWrite last.desk.exchange id failure

end

/-! ## Two commands on one connection, the first in two pieces -/

/-- A carriage return ends a command. -/
def carriageFraming : Framing where
  commandEnd := "\\r"
  responseStart := "<"
  responseEnd := ">"

/-- A link over a pipe that was never started. -/
def carriageLink : Watched where
  name := "piped"
  retry := 1000
  resource := .of "piped" carriageFraming.decoded { target := .scripted [] }

/-- Nothing has happened yet. -/
def idleMail : Mail where
  desk := { link := carriageLink }

/-- The link is ready. -/
def readyMail : Mail where
  desk := { link := Link.moved (Link.moved (carriageLink.start ()).2) }

/-- A command is being written; another one came while it had the place. -/
def writingMail : Mail where
  desk := ((readyMail.desk.submit "a").submit "b").toPhase 0 .writing
  letters := [⟨0, [97, 13], [], .writing⟩]

/-- A piece of the first command is written. -/
def partMail : Mail :=
  { writingMail.withTransport (writingMail.transport.write [97]).2 with
    letters := [⟨0, [97, 13], [97], .writing⟩]
    received := [97] }

/-- The other piece is written too. -/
def wholeMail : Mail :=
  { partMail.withTransport (partMail.transport.write [13]).2 with
    letters := [⟨0, [97, 13], [97, 13], .writing⟩]
    received := [97, 13] }

/-- The write of the first command is over. -/
def sentMail : Mail :=
  { wholeMail with
    desk := wholeMail.desk.toPhase 0 .waiting
    letters := [⟨0, [97, 13], [97, 13], .written⟩] }

/-- The response to the first command has come. -/
def heardMail : Mail :=
  sentMail.withTransport (sentMail.transport.peerWrite [60, 114, 62]).2

/-- The response is read, and a third command is being written. -/
def thirdMail : Mail :=
  { heardMail with
    desk := (heardMail.desk.moved.submit "c").toPhase 2 .writing
    letters := [⟨0, [97, 13], [97, 13], .written⟩, ⟨2, [99, 13], [], .writing⟩] }

/-- The third command is written in one piece. -/
def bothMail : Mail :=
  { thirdMail.withTransport (thirdMail.transport.write [99, 13]).2 with
    letters := [⟨0, [97, 13], [97, 13], .written⟩, ⟨2, [99, 13], [99, 13], .writing⟩]
    received := [97, 13, 99, 13] }

/-- The write of the third command is over. -/
def doneMail : Mail :=
  { bothMail with
    desk := bothMail.desk.toPhase 2 .waiting
    letters := [⟨0, [97, 13], [97, 13], .written⟩, ⟨2, [99, 13], [99, 13], .written⟩] }

/-- From the start of the link to the first write. -/
def writingParts : List Moment :=
  [⟨idleMail, .desk (.watcher (.start () true))⟩,
    ⟨{ desk := { link := (carriageLink.start ()).2 } }, .desk (.watcher (.move (.attempted 0)))⟩,
    ⟨{ desk := { link := Link.moved (carriageLink.start ()).2 } },
      .desk (.watcher (.move (.acquired 0)))⟩,
    ⟨readyMail, .desk (.submit "a")⟩,
    ⟨readyMail.submit "a", .desk (.submit "b")⟩,
    ⟨(readyMail.submit "a").submit "b", .desk (.take 0)⟩]

/-- From the start of the link to the end of the first write. -/
def sentParts : List Moment :=
  writingParts ++ [⟨writingMail, .put [97]⟩] ++ [⟨partMail, .put [13]⟩] ++
    [⟨wholeMail, .desk (.written 0)⟩]

/-- From the start of the link to the end of the last write. -/
def doneParts : List Moment :=
  sentParts ++ [⟨sentMail, .desk .transport⟩] ++
    [⟨heardMail, .desk (.watcher (.move (.worked 0)))⟩] ++
    [⟨{ heardMail with desk := heardMail.desk.moved }, .desk (.submit "c")⟩] ++
    [⟨{ heardMail with desk := heardMail.desk.moved }.submit "c", .desk (.take 2)⟩] ++
    [⟨thirdMail, .put [99, 13]⟩] ++ [⟨bothMail, .desk (.written 2)⟩]

theorem fresh_idleMail : Fresh carriageFraming idleMail :=
  ⟨⟨⟨⟨rfl, rfl, rfl, rfl⟩, _, _, _, rfl⟩, rfl⟩, rfl, rfl, rfl, rfl, rfl⟩

theorem run_writingMail : Run idleMail writingParts writingMail := by
  have hstart : Run idleMail _ _ :=
    .single (.aside (.watcher (.start carriageLink ()) trivial) trivial)
  have hattempted := hstart.snoc (.aside (Desk.step_moved (.attempted 0) rfl trivial) trivial)
  have hacquired := hattempted.snoc
    (.acquired (Desk.step_moved (.acquired 0) rfl fun _ hmem => absurd hmem List.not_mem_nil)
      fun _ hmem => absurd hmem List.not_mem_nil)
  have hsubmits := (hacquired.snoc (.submit readyMail "a")).snoc (.submit _ "b")
  have hletters : ((readyMail.submit "a").submit "b").letters =
      [] ++ ⟨0, [97, 13], [], .queued⟩ :: [] := by decide +kernel
  have htake : Desk.Step ((readyMail.submit "a").submit "b").desk (.take 0) writingMail.desk :=
    .take (by decide +kernel) (by decide +kernel)
  exact hsubmits.snoc (.turn hletters (.take (by simp) rfl) htake)

theorem run_sentMail : Run idleMail sentParts sentMail := by
  have hpart : Step writingMail (.put [97]) partMail :=
    @Step.put writingMail [] [] _ [97] _ rfl rfl (by decide) rfl
  have hwhole : Step partMail (.put [13]) wholeMail :=
    @Step.put partMail [] [] _ [13] _ rfl rfl (by decide) rfl
  have hwritten : Desk.Step wholeMail.desk (.written 0) sentMail.desk :=
    .written (by decide +kernel) (by decide +kernel)
  have hsent : Step wholeMail (.desk (.written 0)) sentMail :=
    @Step.turn wholeMail [] [] _ _ _ _ rfl (.written rfl rfl) hwritten
  exact ((run_writingMail.snoc hpart).snoc hwhole).snoc hsent

theorem run_doneMail : Run idleMail doneParts doneMail := by
  have hheard : Run idleMail _ heardMail :=
    run_sentMail.snoc (.transport (Transport.stirred_peerWrite _ [60, 114, 62]))
  have hanswered := hheard.snoc
    (.aside (Desk.step_moved (.worked 0) (by decide +kernel) trivial) trivial)
  have hsubmit := hanswered.snoc (.submit _ "c")
  have hletters : ({ heardMail with desk := heardMail.desk.moved }.submit "c").letters =
      [⟨0, [97, 13], [97, 13], .written⟩] ++ ⟨2, [99, 13], [], .queued⟩ :: [] := by decide +kernel
  have htake : Desk.Step (heardMail.desk.moved.submit "c") (.take 2) thirdMail.desk :=
    .take (by decide +kernel) (by decide +kernel)
  have hthird := hsubmit.snoc (.turn hletters (.take (by decide) rfl) htake)
  have hwrite : (thirdMail.transport.write [99, 13]).1 = .ok () := by decide +kernel
  have hboth : Step thirdMail (.put [99, 13]) bothMail :=
    @Step.put thirdMail [_] [] _ [99, 13] _ rfl rfl (by decide) (Prod.ext hwrite rfl)
  have hwritten : Desk.Step bothMail.desk (.written 2) doneMail.desk :=
    .written (by decide +kernel) (by decide +kernel)
  have hdone : Step bothMail (.desk (.written 2)) doneMail :=
    @Step.turn bothMail [_] [] _ _ _ _ rfl (.written rfl rfl) hwritten
  exact (hthird.snoc hboth).snoc hdone

/-- The stream has taken the first command and the third one with their carriage returns, and nothing of
the second one, which found the place taken.  Had the peer hung up before the first write, the write
would have failed and left the place to the next command. -/
theorem Run.admission_pieces :
    admitted doneParts = ["a", "c"] ∧ doneMail.received = [97, 13, 99, 13] ∧
      sentMail.submit "d" = sentMail.decline .busy ∧
      ∀ failure next,
        Step (writingMail.withTransport writingMail.transport.hangUp) (.desk (.failed 0 failure)) next →
          next.Accepts := by
  have hadmitted : admitted doneParts = ["a", "c"] := by decide +kernel
  have hunbroken : Unbroken doneParts := by
    simp [Unbroken, connection, doneParts, sentParts, writingParts, Moment.opens, Moment.Breaks]
  obtain ⟨-, -, -, -, htaken, -⟩ := run_doneMail.admission fresh_idleMail
  obtain ⟨hsubmit, -⟩ := run_sentMail.admission fresh_idleMail
  have hhung := run_writingMail.snoc (.transport (Transport.stirred_hangUp writingMail.transport))
  obtain ⟨-, -, -, -, -, -, hfailed⟩ := hhung.admission fresh_idleMail
  refine ⟨hadmitted, ?_, ?_, ?_⟩
  · rw [(htaken hunbroken).2 (by decide), hadmitted]
    decide +kernel
  · exact (hsubmit "d").2.1 (by decide +kernel) (by decide +kernel)
  · intro failure next hstep
    exact (hfailed 0 failure next hstep).2.2.2.2 (by decide +kernel)

end Mail
end Link
end Uplink
