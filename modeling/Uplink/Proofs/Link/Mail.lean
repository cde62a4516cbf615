import Uplink.Link.Mail
import Uplink.Proofs.Link.Connection
import Uplink.Proofs.Link.Refinement

/-!
# Letters under way

The parts of submissions meet each other, responses and connections in any order, as they do at a desk;
here their letters are followed too.  A letter is taken up when all before it are over, and it is
written in pieces of any size.
-/

namespace Uplink

namespace Transport

variable {t t' : Transport} {looked received piece : List UInt8}

/-- If it is a pipe, the peer has looked at some of the bytes that were sent, and the others wait for
it. -/
def Carries (t : Transport) (looked received : List UInt8) : Prop :=
  t.stream = .pipe → t.hasPeer = true → looked ++ t.outbox.reverse.flatten = received

/-- What others do to a transport.  They neither open nor close the stream, and nothing but what is
written comes to the peer. -/
structure Stirred (t t' : Transport) : Prop where
  stream : t'.stream = t.stream
  peer : t'.hasPeer = true → t.hasPeer = true ∧ t'.outbox = t.outbox

theorem stirred_peerWrite (t : Transport) (bytes : List UInt8) :
    Stirred t (t.peerWrite bytes).2 := by
  unfold peerWrite
  split
  · exact ⟨rfl, fun hpeer => ⟨hpeer, rfl⟩⟩
  · exact ⟨rfl, fun hpeer => ⟨hpeer, rfl⟩⟩

theorem stirred_hangUp (t : Transport) : Stirred t t.hangUp :=
  ⟨rfl, by simp [hangUp]⟩

theorem Carries.of_stirred (h : t.Carries looked received) (hstirred : Stirred t t') :
    t'.Carries looked received := by
  intro hstream hpeer
  obtain ⟨hpeer, houtbox⟩ := hstirred.peer hpeer
  rw [houtbox]
  exact h (hstirred.stream ▸ hstream) hpeer

theorem Carries.of_write (h : t.Carries looked received) (hwrite : t.write piece = (.ok (), t')) :
    t'.Carries looked (received ++ piece) := by
  unfold write at hwrite
  split at hwrite
  · rename_i hpipe
    split at hwrite
    · rename_i hpeer
      cases hwrite
      intro _ _
      rw [← h hpipe hpeer]
      simp
    · cases hwrite
  · cases hwrite
    intro hstream
    simp at hstream
  · cases hwrite
  · cases hwrite

theorem Carries.takeSent (h : t.Carries looked received) :
    t.takeSent.2.Carries (looked ++ t.takeSent.1) received := by
  intro hstream hpeer
  rw [← h hstream hpeer]
  simp [Transport.takeSent]

/-- Nothing was sent when the stream is opened. -/
theorem carries_of_connect_ok (h : t.connect = (.ok (), t')) : t'.Carries [] [] := by
  unfold connect at h
  dsimp only at h
  split at h
  · split at h <;> cases h
    · exact fun _ _ => rfl
    · intro hstream
      simp at hstream
  · split at h
    · cases h
    · split at h <;> cases h
      intro hstream
      simp at hstream
  · split at h <;> cases h
    exact fun _ _ => rfl

/-- An attempt to open the stream that fails is only counted. -/
theorem eq_of_connect_error {failure : Failure} (h : t.connect = (.error failure, t')) :
    t' = { t with opens := t.opens + 1 } := by
  unfold connect at h
  dsimp only at h
  split at h
  · split at h <;> cases h
    rfl
  · split at h
    · cases h
      rfl
    · split at h <;> cases h
      rfl
  · split at h <;> cases h
    rfl

/-- Reading sends nothing. -/
theorem Carries.of_read {limit : Nat} {reading : Reading} (h : t.Carries looked received)
    (hread : t.read limit = (reading, t')) : t'.Carries looked received := by
  unfold read at hread
  dsimp only at hread
  split at hread
  · split at hread <;> cases hread <;> exact h
  · split at hread <;> cases hread
    · exact h
    · intro hstream
      simp at hstream
  · cases hread
    exact h
  · cases hread
    exact h

theorem carries_disconnect (t : Transport) : t.disconnect.Carries looked received := by
  intro hstream
  simp [disconnect] at hstream

end Transport

namespace Link

namespace Exchange

variable (x : Exchange)

theorem framing_settlePending (pending : Pending) (outcome : Except Failure Answer) :
    (x.settlePending pending outcome).framing = x.framing := by
  unfold settlePending
  dsimp only
  split <;> rfl

theorem framing_vacate : x.vacate.framing = x.framing := by
  unfold vacate
  split
  · exact framing_settlePending ..
  · rfl

theorem framing_foldl_complete (responses : List String) :
    (responses.foldl complete x).framing = x.framing := by
  induction responses generalizing x with
  | nil => rfl
  | cons response responses ih =>
      refine (ih _).trans ?_
      unfold complete
      split
      · exact framing_settlePending ..
      · rfl

end Exchange

namespace Desk

variable {d next : Desk} {label : Label} {looked received : List UInt8}

/-- What a desk does apart from its letters: nobody goes on with a letter, and no connection begins. -/
def Label.Aside : Label → Prop
  | .resume _ => True
  | .watcher (.move (.acquired _)) => False
  | .watcher _ => True
  | _ => False

theorem framing_of_touch {x x' : Exchange} {watched : Watcher.Label Unit} (h : Touch x watched x') :
    x'.framing = x.framing := by
  cases h with
  | idle | acquire | refuse | lose => rfl
  | read => rw [Exchange.receive_eq, Exchange.framing_foldl_complete]
  | shut => rw [Exchange.shut_eq_vacate, Exchange.framing_vacate]

/-- What is put around commands stays the same. -/
theorem Step.framing_eq (h : Step d label next) : next.exchange.framing = d.exchange.framing := by
  cases h with
  | submit command =>
      rcases d.submit_cases command with ⟨failure, -, hsubmit⟩ | ⟨-, -, hsubmit⟩
      · rw [hsubmit]
        rfl
      · rw [hsubmit]
        rfl
  | take | written | resume | abandon | transport => rfl
  | failed => exact d.exchange.framing_vacate
  | watcher step admits =>
      exact framing_of_touch (touch_of_step step (ne_surroundings_of_admits admits))

theorem carries_of_touch {x x' : Exchange} {watched : Watcher.Label Unit} (h : Touch x watched x')
    (hacquired : ∀ run, watched ≠ .move (.acquired run))
    (hcarries : x.transport.Carries looked received) : x'.transport.Carries looked received := by
  cases h with
  | idle => exact hcarries
  | acquire => exact absurd rfl (hacquired _)
  | refuse hconnect =>
      rw [Transport.eq_of_connect_error hconnect]
      exact hcarries
  | read hread =>
      rw [Exchange.transport_receive]
      exact hcarries.of_read hread
  | lose hread => exact hcarries.of_read hread
  | shut =>
      rw [Exchange.shut_eq_vacate, (Exchange.frame_vacate _).2.1]
      exact Transport.carries_disconnect _

/-- Only writes and new connections change what is sent. -/
theorem Step.carries (h : Step d label next) (htransport : label ≠ .transport)
    (hacquired : ∀ run, label ≠ .watcher (.move (.acquired run)))
    (hcarries : d.exchange.transport.Carries looked received) :
    next.exchange.transport.Carries looked received := by
  cases h with
  | submit command =>
      rcases d.submit_cases command with ⟨failure, -, hsubmit⟩ | ⟨-, -, hsubmit⟩
      · rw [hsubmit]
        exact hcarries
      · rw [hsubmit]
        exact hcarries
  | take | written | resume | abandon => exact hcarries
  | failed =>
      have htransport := d.exchange.frame_vacate.2.1
      exact (congrArg (Transport.Carries · looked received) htransport).mpr hcarries
  | transport => exact absurd rfl htransport
  | watcher step admits =>
      refine carries_of_touch (touch_of_step step (ne_surroundings_of_admits admits)) ?_ hcarries
      rintro run rfl
      exact hacquired run rfl

theorem Step.carries_of_acquired {run : ℕ} (h : Step d (.watcher (.move (.acquired run))) next) :
    next.exchange.transport.Carries [] [] := by
  rcases h.touch_or_apart with ⟨watched, hlabel, -, -, htouch⟩ | ⟨hlabel, -⟩
  · cases hlabel
    generalize next.exchange = x at htouch
    cases htouch with
    | idle hwatched => exact absurd hwatched id
    | acquire hconnect => exact Transport.carries_of_connect_ok hconnect
  · exact absurd rfl (hlabel _)

end Desk

/-! ## Steps -/

/-- What happens to a letter when its submission goes on.  It is taken up when the letters before it are
over. -/
inductive Letter.Turn (before : List Letter) (letter : Letter) : Desk.Label → Letter.Stage → Prop where
  | take (first : ∀ other ∈ before, ¬ other.IsOpen) (queued : letter.stage = .queued) :
      Turn before letter (.take letter.id) .writing
  | written (writing : letter.stage = .writing) (whole : letter.put = letter.text) :
      Turn before letter (.written letter.id) .written
  | failed {failure : Failure} (writing : letter.stage = .writing) :
      Turn before letter (.failed letter.id failure) .broken

namespace Mail

/-- What happens to a desk with its letters: something that happens to the desk, the write of a piece,
or the peer looks at what came to it. -/
inductive Label where
  | desk (label : Desk.Label)
  | put (piece : List UInt8)
  | look

/-- One thing that may happen to a desk with its letters. -/
inductive Step : Mail → Label → Mail → Prop where
  | submit (m : Mail) (command : String) : Step m (.desk (.submit command)) (m.submit command)
  | turn {m : Mail} {before after : List Letter} {letter : Letter} {stage : Letter.Stage}
      {label : Desk.Label} {desk : Desk} (letters : m.letters = before ++ letter :: after)
      (turn : letter.Turn before label stage) (step : Desk.Step m.desk label desk) :
      Step m (.desk label) { m with desk, letters := before ++ { letter with stage } :: after }
  /-- The stream takes the next piece of the letter that is being written. -/
  | put {m : Mail} {before after : List Letter} {letter : Letter} {piece : List UInt8}
      {transport : Transport} (letters : m.letters = before ++ letter :: after)
      (writing : letter.stage = .writing) (part : letter.put ++ piece <+: letter.text)
      (write : m.transport.write piece = (.ok (), transport)) :
      Step m (.put piece)
        { m.withTransport transport with
          letters := before ++ { letter with put := letter.put ++ piece } :: after
          received := m.received ++ piece }
  | abandon {m : Mail} {id : ℕ} (underway : id ∈ m.desk.ids) :
      Step m (.desk (.abandon id)) (m.abandon id)
  | look (m : Mail) : Step m .look m.look
  | transport {m : Mail} {transport : Transport} (stirred : m.transport.Stirred transport) :
      Step m (.desk .transport) (m.withTransport transport)
  | aside {m : Mail} {label : Desk.Label} {desk : Desk} (step : Desk.Step m.desk label desk)
      (aside : label.Aside) : Step m (.desk label) { m with desk }
  /-- Whoever opens a connection gets the writer when the letters of the last one are over. -/
  | acquired {m : Mail} {run : ℕ} {desk : Desk}
      (step : Desk.Step m.desk (.watcher (.move (.acquired run))) desk)
      (done : ∀ letter ∈ m.letters, ¬ letter.IsOpen) :
      Step m (.desk (.watcher (.move (.acquired run)))) { desk }

/-- A desk with its letters, and what happens to it next. -/
structure Moment where
  mail : Mail
  label : Label

/-- A row of things that happen to a desk with its letters. -/
inductive Run : Mail → List Moment → Mail → Prop where
  | nil (m : Mail) : Run m [] m
  | snoc {first last next : Mail} {moments : List Moment} {label : Label} :
      Run first moments last → Step last label next → Run first (moments ++ [⟨last, label⟩]) next

/-- A link that was never started, with delimiters read from a configuration. -/
structure Fresh (framing : Framing) (m : Mail) : Prop where
  desk : Desk.Fresh m.desk
  framing : m.desk.exchange.framing = framing.decoded
  stream : m.transport.stream = .closed
  letters : m.letters = []
  received : m.received = []
  looked : m.looked = []

/-- What happens to the desk at a moment. -/
def Moment.toDesk (moment : Moment) : Desk.Moment where
  desk := moment.mail.desk
  label :=
    match moment.label with
    | .desk label => label
    | _ => .transport

/-- A submission fails at once: it is counted, its end is noted, and all else stays as it is. -/
def decline (m : Mail) (failure : Failure) : Mail :=
  { m with desk := m.desk.withExchange { m.desk.exchange with
      submissions := m.desk.exchange.submissions + 1
      outcomes := (m.desk.exchange.submissions, .error failure) :: m.desk.exchange.outcomes } }

/-- A submission takes the place and waits for the writer; the stream has taken nothing of it yet. -/
def accept (m : Mail) (command : String) : Mail :=
  { m with
    desk :=
      { link := m.desk.link.withResource { m.desk.exchange with
          submissions := m.desk.exchange.submissions + 1
          pending := some ⟨m.desk.exchange.submissions, command, true⟩ }
        underway := m.desk.underway ++ [⟨m.desk.exchange.submissions, .queued⟩] }
    letters := m.letters ++ [m.letter command] }

section

variable {m next first middle last : Mail} {label : Label} {command : String}
  {moments moments' : List Moment}

theorem submit_of_not_ready (hready : m.desk.link.ready = false) :
    m.submit command = m.decline .notReady := by
  have haccepts : ¬ m.Accepts := by simp [Accepts, hready]
  simp [Mail.submit, Desk.submit, haccepts, hready, decline, Exchange.conclude]

theorem submit_of_busy (hready : m.desk.link.ready = true) (htaken : m.desk.exchange.pending ≠ none) :
    m.submit command = m.decline .busy := by
  have haccepts : ¬ m.Accepts := by simp [Accepts, htaken]
  have hsome : m.desk.exchange.pending.isSome = true := Option.isSome_iff_ne_none.mpr htaken
  simp [Mail.submit, Desk.submit, haccepts, hready, hsome, decline, Exchange.conclude]

theorem submit_of_accepts (haccepts : m.Accepts) : m.submit command = m.accept command := by
  obtain ⟨hready, hfree⟩ := id haccepts
  simp [Mail.submit, Desk.submit, haccepts, hready, hfree, accept, Exchange.reserve]

theorem Step.toDesk (h : Step m label next) :
    Desk.Step m.desk (Moment.mk m label).toDesk.label next.desk := by
  cases h with
  | submit command => exact .submit m.desk command
  | turn _ _ step => exact step
  | put _ _ _ write =>
      obtain ⟨hopen, hopen'⟩ := stream_of_write_ok write
      exact .transport (iff_of_false hopen' hopen)
  | abandon underway => exact .abandon underway
  | look => exact .transport .rfl
  | transport stirred => exact .transport (by rw [stirred.stream]; rfl)
  | aside step _ => exact step
  | acquired step _ => exact step

/-- The desk of a run has a run of its own. -/
theorem Run.toDesk (h : Run first moments last) :
    Desk.Run first.desk (moments.map Moment.toDesk) last.desk := by
  induction h with
  | nil => exact .nil _
  | snoc _ hstep ih =>
      rw [List.map_append]
      exact ih.snoc hstep.toDesk

theorem Run.trans (h : Run first moments middle) (h' : Run middle moments' last) :
    Run first (moments ++ moments') last := by
  induction h' with
  | nil => rwa [List.append_nil]
  | snoc _ hstep ih =>
      rw [← List.append_assoc]
      exact .snoc ih hstep

theorem Run.single (h : Step m label next) : Run m [⟨m, label⟩] next :=
  .snoc (.nil m) h

theorem Run.framing_eq (h : Run first moments last) :
    last.desk.exchange.framing = first.desk.exchange.framing := by
  induction h with
  | nil => rfl
  | snoc _ hstep ih => exact hstep.toDesk.framing_eq.trans ih

end

end Mail
end Link
end Uplink
