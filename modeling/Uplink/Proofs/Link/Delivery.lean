import Uplink.Proofs.Link.Run
import Uplink.Proofs.Link.Stream

/-!
# Where responses go

Every response that is cut out of the stream is delivered once: to the command that waits at that
moment, or else to the observers.  Of the responses of one chunk only the first one can meet a
command that waits.

The submissions keep the account: each of them has ended once, or is the one that waits.
-/

namespace Uplink
namespace Link

/-! ## Deliveries -/

/-- Where a response went. -/
inductive Delivery where
  /-- To the submitter of a command. -/
  | answered (id : ℕ) (answer : Answer)
  /-- To the observers. -/
  | published (response : String)
  deriving DecidableEq

namespace Delivery

def response : Delivery → String
  | answered _ answer => answer.response
  | published response => response

def answer? : Delivery → Option (ℕ × Answer)
  | answered id answer => some (id, answer)
  | published _ => none

def published? : Delivery → Option String
  | answered _ _ => none
  | published response => some response

end Delivery

/-- Where the responses of a chunk have to go: the first one to the command that waits, and the
others to the observers. -/
def route : Option Pending → List String → List Delivery
  | none, responses => responses.map .published
  | some _, [] => []
  | some pending, response :: responses =>
    .answered pending.id ⟨pending.command, response⟩ :: responses.map .published

/-- The responses that are cut out of the stream at a moment. -/
def Moment.cut (moment : Moment) : List String :=
  match moment.label with
  | .watcher (.move (.worked _)) =>
    match moment.link.resource.transport.read readLimit with
    | (.data chunk, _) => responses (moment.link.resource.framer.push chunk).2
    | _ => []
  | _ => []

/-- Where all responses of a run have to go. -/
def deliveries (moments : List Moment) : List Delivery :=
  moments.flatMap fun moment => route moment.link.resource.pending moment.cut

/-- The commands that are submitted in a run. -/
def submitted (moments : List Moment) : List String :=
  moments.filterMap fun moment =>
    match moment.label with
    | .submit command => some command
    | _ => none

namespace Exchange

/-- The submissions that ended well, in the order of their ends. -/
def answers (x : Exchange) : List (ℕ × Answer) :=
  x.outcomes.reverse.filterMap fun outcome =>
    outcome.2.toOption.map fun answer => (outcome.1, answer)

/-- The responses that were published, in order. -/
def published (x : Exchange) : List String :=
  x.responses.items.reverse

/-- The submissions that have ended, last first. -/
def settled (x : Exchange) : List ℕ :=
  x.outcomes.map Prod.fst

/-- The submission that waits. -/
def open? (x : Exchange) : Option ℕ :=
  x.pending.map Pending.id

end Exchange

/-- The state of a link after some submissions and deliveries: every submission has ended once or is
the one that waits, with a submitter; exactly the deliveries have been made, and each submission was
answered as the command it is. -/
structure Accounted (commands : List String) (made : List Delivery) (x : Exchange) : Prop where
  count : x.submissions = commands.length
  ledger : (x.open?.toList ++ x.settled).Perm (List.range commands.length)
  pending : ∀ pending, x.pending = some pending →
    pending.awaited = true ∧ commands[pending.id]? = some pending.command
  answers : x.answers = made.filterMap Delivery.answer?
  published : x.published = made.filterMap Delivery.published?
  own : ∀ id answer, .answered id answer ∈ made → commands[id]? = some answer.command

/-- Every response has one delivery, in order. -/
theorem map_response_route (pending : Option Pending) (responses : List String) :
    (route pending responses).map Delivery.response = responses := by
  have hpublished : ∀ responses : List String,
      (responses.map Delivery.published).map Delivery.response = responses := by
    intro responses
    rw [List.map_map]
    exact List.map_id responses
  cases pending with
  | none => exact hpublished responses
  | some pending =>
      cases responses with
      | nil => rfl
      | cons response responses => exact congrArg _ (hpublished responses)

theorem map_response_deliveries (moments : List Moment) :
    (deliveries moments).map Delivery.response = moments.flatMap Moment.cut := by
  rw [deliveries, List.map_flatMap]
  simp only [map_response_route]

/-! ## The account -/

namespace Exchange

variable (x : Exchange) (id : ℕ) (outcome : Except Failure Answer)

theorem settled_conclude : (x.conclude id outcome).settled = id :: x.settled :=
  rfl

theorem answers_conclude : (x.conclude id outcome).answers =
    x.answers ++ (outcome.toOption.map fun answer => (id, answer)).toList := by
  simp only [answers, conclude, List.reverse_cons, List.filterMap_append]
  cases outcome <;> rfl

theorem settlePending_of_awaited {pending : Pending} (h : pending.awaited = true) :
    x.settlePending pending outcome = { x with pending := none }.conclude pending.id outcome :=
  if_pos h

theorem pending_settlePending (pending : Pending) :
    (x.settlePending pending outcome).pending = none := by
  unfold settlePending
  dsimp only
  split <;> rfl

theorem complete_of_none (h : x.pending = none) (response : String) :
    x.complete response = { x with responses := x.responses.publish response } := by
  rw [complete, h]

theorem complete_of_some {pending : Pending} (h : x.pending = some pending) (response : String) :
    x.complete response = x.settlePending pending (.ok ⟨pending.command, response⟩) := by
  rw [complete, h]

/-- No command waits after a response. -/
theorem pending_complete (response : String) : (x.complete response).pending = none := by
  cases hpending : x.pending with
  | none =>
      rw [complete_of_none x hpending]
      exact hpending
  | some pending =>
      rw [complete_of_some x hpending]
      exact pending_settlePending _ _ _

/-- What the framer tells matters only for the responses in it. -/
theorem foldl_handle (events : List FrameEvent) (x : Exchange) :
    events.foldl handle x = (Link.responses events).foldl complete x := by
  induction events generalizing x with
  | nil => rfl
  | cons event events ih =>
      cases event with
      | response text => exact ih _
      | _ => exact ih _

theorem receive_eq (chunk : List UInt8) : (x.receive chunk).1 =
    (Link.responses (x.framer.push chunk).2).foldl complete
      { x with framer := (x.framer.push chunk).1 } :=
  foldl_handle _ _

/-- No command waits after some responses. -/
theorem pending_foldl_complete {responses : List String} (h : responses ≠ []) :
    (responses.foldl complete x).pending = none := by
  induction responses generalizing x with
  | nil => exact absurd rfl h
  | cons response responses ih =>
      cases responses with
      | nil => exact x.pending_complete response
      | cons => exact ih (x.complete response) (List.cons_ne_nil _ _)

end Exchange

namespace Accounted

variable {commands : List String} {made : List Delivery} {x : Exchange} {pending : Pending}

theorem fresh (name : String) (framing : Framing) (transport : Transport) :
    Accounted [] [] (Exchange.of name framing transport) where
  count := rfl
  ledger := .refl _
  pending := by
    intro pending hpending
    cases hpending
  answers := rfl
  published := rfl
  own := by simp

/-- Nothing about the transport or the framer is part of the account. -/
theorem of_parts (h : Accounted commands made x) (transport : Transport) (framer : Framer) :
    Accounted commands made { x with transport, framer } :=
  ⟨h.count, h.ledger, h.pending, h.answers, h.published, h.own⟩

/-- The command that waits is taken away, and its submission ends. -/
theorem settle (h : Accounted commands made x) (hpending : x.pending = some pending)
    {outcome : Except Failure Answer} {more : List Delivery}
    (hanswers : (outcome.toOption.map fun answer => (pending.id, answer)).toList =
      more.filterMap Delivery.answer?)
    (hpublished : more.filterMap Delivery.published? = [])
    (hown : ∀ id answer, .answered id answer ∈ more → commands[id]? = some answer.command) :
    Accounted commands (made ++ more) (x.settlePending pending outcome) := by
  rw [Exchange.settlePending_of_awaited _ _ (h.pending pending hpending).1]
  refine ⟨h.count, ?_, ?_, ?_, ?_, ?_⟩
  · -- the number of the submission stays at the head of the ledger
    have hledger := h.ledger
    rw [Exchange.open?, hpending] at hledger
    exact hledger
  · intro other hother
    cases hother
  · rw [Exchange.answers_conclude, List.filterMap_append, ← hanswers]
    exact congrArg (· ++ _) h.answers
  · rw [List.filterMap_append, hpublished, List.append_nil]
    exact h.published
  · intro id answer hmem
    rcases List.mem_append.mp hmem with hmem | hmem
    · exact h.own id answer hmem
    · exact hown id answer hmem

theorem answer (h : Accounted commands made x) (hpending : x.pending = some pending)
    (response : String) :
    Accounted commands (made ++ [.answered pending.id ⟨pending.command, response⟩])
      (x.complete response) := by
  rw [Exchange.complete_of_some x hpending]
  refine h.settle hpending rfl rfl ?_
  intro id answer hmem
  cases List.mem_singleton.mp hmem
  exact (h.pending pending hpending).2

theorem publish (h : Accounted commands made x) (hpending : x.pending = none)
    (response : String) :
    Accounted commands (made ++ [.published response]) (x.complete response) := by
  rw [Exchange.complete_of_none x hpending]
  refine ⟨h.count, h.ledger, h.pending, ?_, ?_, ?_⟩
  · rw [List.filterMap_append]
    exact h.answers.trans (List.append_nil _).symm
  · rw [List.filterMap_append, ← h.published]
    exact List.reverse_cons
  · intro id answer hmem
    rcases List.mem_append.mp hmem with hmem | hmem
    · exact h.own id answer hmem
    · cases List.mem_singleton.mp hmem

theorem publishAll (h : Accounted commands made x) (hpending : x.pending = none)
    (responses : List String) :
    Accounted commands (made ++ responses.map .published)
      (responses.foldl Exchange.complete x) := by
  induction responses generalizing made x with
  | nil => simpa using h
  | cons response responses ih =>
      rw [List.map_cons, ← List.singleton_append, ← List.append_assoc]
      exact ih (h.publish hpending response) (x.pending_complete response)

/-- The responses of a chunk are delivered as they have to be. -/
theorem complete (h : Accounted commands made x) (responses : List String) :
    Accounted commands (made ++ route x.pending responses)
      (responses.foldl Exchange.complete x) := by
  cases hpending : x.pending with
  | none => exact h.publishAll hpending responses
  | some pending =>
      cases responses with
      | nil => simpa [route] using h
      | cons response responses =>
          rw [route, ← List.singleton_append, ← List.append_assoc]
          exact (h.answer hpending response).publishAll (x.pending_complete response) responses

/-- Closing the transport delivers nothing. -/
theorem shut (h : Accounted commands made x) : Accounted commands made x.shut := by
  have hclosed := h.of_parts x.transport.disconnect x.framer
  unfold Exchange.shut
  dsimp only
  split
  · rename_i pending hpending
    rw [← List.append_nil made]
    exact hclosed.settle hpending rfl rfl (by simp)
  · exact hclosed

theorem getElem?_append {id : ℕ} {command : String} (h : commands[id]? = some command)
    (more : List String) : (commands ++ more)[id]? = some command := by
  obtain ⟨hlt, -⟩ := List.getElem?_eq_some_iff.mp h
  rw [List.getElem?_append_left hlt, h]

/-- One more submission has ended, or waits. -/
theorem ledger_append {ids : List ℕ} (h : ids.Perm (List.range commands.length))
    (command : String) :
    (commands.length :: ids).Perm (List.range (commands ++ [command]).length) := by
  rw [List.length_append, List.length_singleton, List.range_succ]
  exact (h.cons _).trans (List.perm_append_singleton _ _).symm

/-- A submission that fails at once has ended. -/
theorem decline (h : Accounted commands made x) (command : String) (failure : Failure) :
    Accounted (commands ++ [command]) made
      ({ x with submissions := x.submissions + 1 }.conclude x.submissions (.error failure)) := by
  refine ⟨?_, ?_, ?_, ?_, h.published, ?_⟩
  · rw [List.length_append, ← h.count]
    rfl
  · -- the new number stands behind that of the submission that waits, if there is one
    rw [Exchange.settled_conclude, h.count]
    exact List.perm_middle.trans (ledger_append h.ledger command)
  · intro pending hpending
    obtain ⟨hawaited, hcommand⟩ := h.pending pending hpending
    exact ⟨hawaited, getElem?_append hcommand _⟩
  · rw [Exchange.answers_conclude, ← h.answers]
    exact List.append_nil _
  · exact fun id answer hmem => getElem?_append (h.own id answer hmem) _

/-- A submission that is written waits, if no other one does. -/
theorem accept (h : Accounted commands made x) (hpending : x.pending = none) (command : String)
    (transport : Transport) :
    Accounted (commands ++ [command]) made
      { x with
        submissions := x.submissions + 1
        transport
        pending := some ⟨x.submissions, command, true⟩ } := by
  refine ⟨?_, ?_, ?_, h.answers, h.published, ?_⟩
  · rw [List.length_append, ← h.count]
    rfl
  · have hledger := h.ledger
    rw [Exchange.open?, hpending] at hledger
    rw [h.count]
    exact ledger_append hledger command
  · intro pending hsome
    cases hsome
    rw [h.count]
    exact ⟨rfl, List.getElem?_concat_length⟩
  · exact fun id answer hmem => getElem?_append (h.own id answer hmem) _

theorem submit {w : Watched} (h : Accounted commands made w.resource) (command : String) :
    Accounted (commands ++ [command]) made (w.submit command).resource := by
  unfold Watched.submit
  dsimp only [Watcher.withResource]
  split
  · exact h.decline command .notReady
  · split
    · exact h.decline command .busy
    · rename_i hfree
      have hpending : w.resource.pending = none := by simpa using hfree
      unfold Exchange.send
      dsimp only
      split
      · exact h.accept hpending command _
      · exact (h.decline command _).of_parts _ _

end Accounted

/-! ## A run -/

section

variable {commands : List String} {made : List Delivery} {w next : Watched}

theorem deliveries_append_singleton (moments : List Moment) (moment : Moment) :
    deliveries (moments ++ [moment]) =
      deliveries moments ++ route moment.link.resource.pending moment.cut := by
  rw [deliveries, List.flatMap_append, List.flatMap_singleton, deliveries]

theorem submitted_append_singleton (moments : List Moment) (moment : Moment) :
    submitted (moments ++ [moment]) = submitted moments ++ submitted [moment] :=
  List.filterMap_append

theorem route_nil (pending : Option Pending) : route pending [] = [] := by
  cases pending <;> rfl

/-- Only work cuts responses out of the stream. -/
theorem cut_of_ne_worked {label : Label} (h : ∀ run, label ≠ .watcher (.move (.worked run))) :
    (Moment.mk w label).cut = [] := by
  unfold Moment.cut
  split
  · rename_i run hlabel
    exact absurd hlabel (h run)
  · rfl

theorem cut_of_idle {label : Watcher.Label Unit} (h : Idle label) :
    (Moment.mk w (.watcher label)).cut = [] := by
  refine cut_of_ne_worked ?_
  rintro run hlabel
  cases hlabel
  exact h

theorem cut_of_read {run : ℕ} {chunk : List UInt8} {transport : Transport}
    (h : w.resource.transport.read readLimit = (.data chunk, transport)) :
    (Moment.mk w (.watcher (.move (.worked run)))).cut =
      responses (w.resource.framer.push chunk).2 := by
  simp only [Moment.cut, h]

/-- What the watcher does to the exchange delivers the responses that are cut. -/
theorem Accounted.touch {label : Watcher.Label Unit} {x : Exchange}
    (h : Accounted commands made w.resource) (htouch : Touch w.resource label x) :
    Accounted commands
      (made ++ route w.resource.pending (Moment.mk w (.watcher label)).cut) x := by
  cases htouch with
  | @read run chunk transport hread =>
      rw [cut_of_read hread, Exchange.receive_eq]
      exact (h.of_parts transport _).complete (responses (w.resource.framer.push chunk).2)
  | idle hidle =>
      rw [cut_of_idle hidle, route_nil, List.append_nil]
      exact h
  | acquire | refuse | lose =>
      rw [cut_of_ne_worked (by simp), route_nil, List.append_nil]
      exact h.of_parts _ _
  | shut =>
      rw [cut_of_ne_worked (by simp), route_nil, List.append_nil]
      exact h.shut

/-- A step delivers the responses that are cut. -/
theorem Accounted.step {label : Label} (h : Accounted commands made w.resource)
    (hstep : Step w label next) (hlabel : label ≠ .abandon) :
    Accounted (commands ++ submitted [⟨w, label⟩])
      (made ++ route w.resource.pending (Moment.mk w label).cut) next.resource := by
  cases hstep with
  | submit command =>
      rw [cut_of_ne_worked (by simp), route_nil, List.append_nil]
      exact h.submit command
  | abandon => exact absurd rfl hlabel
  | transport transport =>
      rw [cut_of_ne_worked (by simp), route_nil, List.append_nil]
      exact (List.append_nil commands).symm ▸ h.of_parts transport _
  | watcher hwatcher hsurroundings =>
      exact (List.append_nil commands).symm ▸ h.touch (touch_of_step hwatcher hsurroundings)

theorem Touch.pending_eq_none {label : Watcher.Label Unit} {x : Exchange}
    (h : Touch w.resource label x) (hcut : (Moment.mk w (.watcher label)).cut ≠ []) :
    x.pending = none := by
  cases h with
  | read hread =>
      rw [cut_of_read hread] at hcut
      rw [Exchange.receive_eq]
      exact Exchange.pending_foldl_complete _ hcut
  | idle hidle => exact absurd (cut_of_idle hidle) hcut
  | _ => exact absurd (cut_of_ne_worked (by simp)) hcut

/-- No command waits after a response was cut. -/
theorem Step.pending_eq_none {label : Label} (hstep : Step w label next)
    (hcut : (Moment.mk w label).cut ≠ []) : next.resource.pending = none := by
  cases hstep with
  | watcher hwatcher hsurroundings =>
      exact (touch_of_step hwatcher hsurroundings).pending_eq_none hcut
  | _ => exact absurd (cut_of_ne_worked (by simp)) hcut

theorem Run.accounted {first last : Watched} {moments : List Moment} (hfresh : Fresh first)
    (hrun : Run first moments last) (hawaited : ∀ moment ∈ moments, moment.label ≠ .abandon) :
    Accounted (submitted moments) (deliveries moments) last.resource := by
  induction hrun with
  | nil =>
      obtain ⟨name, framing, transport, hexchange⟩ := hfresh.exchange
      rw [hexchange]
      exact .fresh name framing transport
  | @snoc last next moments label _ hstep ih =>
      rw [submitted_append_singleton, deliveries_append_singleton]
      refine (ih fun moment hmem => ?_).step hstep ?_
      · exact hawaited moment (List.mem_append_left _ hmem)
      · exact hawaited ⟨last, label⟩ (List.mem_append_right _ List.mem_cons_self)

theorem Accounted.nodup_settled {x : Exchange} (h : Accounted commands made x) :
    x.settled.Nodup :=
  (List.nodup_append.mp (h.ledger.nodup_iff.mpr List.nodup_range)).2.1

/-- In every run of a link whose submitters do not give up, each response that is cut out of the
stream is delivered once.  The first one of a chunk goes to the command that waits, whose submission
ends with its own command and the response; every other one goes to the observers, in order.  Nothing
else is answered or published.  At every moment each submission has ended once or is the only one
that waits, and none waits after a response. -/
theorem Run.delivered {first last : Watched} {moments : List Moment} (hfresh : Fresh first)
    (hrun : Run first moments last) (hawaited : ∀ moment ∈ moments, moment.label ≠ .abandon) :
    (deliveries moments).map Delivery.response = moments.flatMap Moment.cut ∧
      Accounted (submitted moments) (deliveries moments) last.resource ∧
      last.resource.settled.Nodup ∧
      (∀ earlier moment later, moments = earlier ++ moment :: later →
        Accounted (submitted earlier) (deliveries earlier) moment.link.resource) ∧
      ∀ label next, Step last label next → (Moment.mk last label).cut ≠ [] →
        next.resource.pending = none := by
  have haccounted := hrun.accounted hfresh hawaited
  refine ⟨map_response_deliveries moments, haccounted, haccounted.nodup_settled, ?_, ?_⟩
  · rintro earlier moment later rfl
    refine (hrun.upTo rfl).accounted hfresh fun other hmem => ?_
    exact hawaited other (List.mem_append_left _ hmem)
  · intro label next hstep hcut
    exact hstep.pending_eq_none hcut

end

/-! ## A run with both kinds of deliveries -/

/-- A link that was never started, over a pipe. -/
def pipedLink : Watched where
  name := "piped"
  retry := 1000
  resource := .of "piped" { responseStart := "<", responseEnd := ">" } { target := .scripted [] }

/-- The link after its next move. -/
def moved (w : Watched) : Watched :=
  ((w.move? Exchange.resource).map Prod.snd).getD w

theorem step_moved {w : Watched} (event : Watcher.Event)
    (h : (w.move? Exchange.resource).map Prod.fst = some event) :
    Step w (.watcher (.move event)) (moved w) := by
  obtain ⟨⟨event, next⟩, hmove, rfl⟩ := Option.map_eq_some_iff.mp h
  rw [moved, hmove]
  exact .watcher (Watcher.step_of_move? hmove) (by simp)

/-- The link is ready, and a command waits. -/
def askedLink : Watched :=
  Watched.submit (moved (moved (pipedLink.start ()).2)) "ask"

/-- Two responses have arrived at once. -/
def toldLink : Watched :=
  askedLink.withResource { askedLink.resource with
    transport := (askedLink.resource.transport.peerWrite [60, 97, 62, 60, 98, 62]).2 }

/-- From the start of the link to the reading of both responses. -/
def askedMoments : List Moment :=
  [⟨pipedLink, .watcher (.start () true)⟩,
    ⟨(pipedLink.start ()).2, .watcher (.move (.attempted 0))⟩,
    ⟨moved (pipedLink.start ()).2, .watcher (.move (.acquired 0))⟩,
    ⟨moved (moved (pipedLink.start ()).2), .submit "ask"⟩,
    ⟨askedLink, .transport⟩,
    ⟨toldLink, .watcher (.move (.worked 0))⟩]

theorem run_askedMoments : Run pipedLink askedMoments (moved toldLink) := by
  have hstart := Run.single (.watcher (.start pipedLink ()) (by simp))
  have hattempted := hstart.snoc (step_moved (.attempted 0) rfl)
  have hacquired := hattempted.snoc (step_moved (.acquired 0) rfl)
  have hasked := hacquired.snoc (.submit _ "ask")
  have htold := hasked.snoc (.transport askedLink toldLink.resource.transport)
  exact htold.snoc (step_moved (.worked 0) (by decide +kernel))

/-- The first response answers the command that waits, and the second one is published. -/
theorem Run.delivered_both :
    deliveries askedMoments = [.answered 0 ⟨"ask", "<a>"⟩, .published "<b>"] ∧
      Accounted ["ask"] [.answered 0 ⟨"ask", "<a>"⟩, .published "<b>"]
        (moved toldLink).resource := by
  have hfresh : Fresh pipedLink := ⟨⟨rfl, rfl, rfl, rfl⟩, _, _, _, rfl⟩
  have hawaited : ∀ moment ∈ askedMoments, moment.label ≠ .abandon := by
    simp [askedMoments]
  have hdeliveries :
      deliveries askedMoments = [.answered 0 ⟨"ask", "<a>"⟩, .published "<b>"] := by
    decide +kernel
  obtain ⟨-, haccounted, -⟩ := run_askedMoments.delivered hfresh hawaited
  rw [hdeliveries] at haccounted
  exact ⟨hdeliveries, haccounted⟩

end Link
end Uplink
