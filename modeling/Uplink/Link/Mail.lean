import Uplink.Link.Desk

/-!
# What goes out

Whoever has the writer writes its text piece by piece, and the writer goes round in the order in which
it was asked for.  A submission asks for it when it takes the place.  Whoever opens a connection asks
for it too, and is the last to do so, since nobody takes the place of a link that is not ready.

A letter is the text of a submission that took the place.  Here a desk is seen with the letters of its
connection and with what has gone out.
-/

namespace Uplink
namespace Link

/-- How far a letter is. -/
inductive Letter.Stage where
  /-- Its submitter waits for the writer. -/
  | queued
  /-- It is being written. -/
  | writing
  /-- It is written. -/
  | written
  /-- Its write failed, or its submitter gave up before the write was over. -/
  | broken
  deriving DecidableEq, Repr

/-- The text of a submission that took the place. -/
structure Letter where
  /-- The number of the submission. -/
  id : Nat
  /-- What is to be written. -/
  text : List UInt8
  /-- What is written of it. -/
  put : List UInt8 := []
  /-- How far the letter is. -/
  stage : Letter.Stage := .queued
  deriving DecidableEq, Repr

namespace Letter

/-- The write is not over. -/
def IsOpen (letter : Letter) : Prop :=
  letter.stage = .queued ∨ letter.stage = .writing

instance (letter : Letter) : Decidable letter.IsOpen :=
  inferInstanceAs (Decidable (letter.stage = .queued ∨ letter.stage = .writing))

/-- The submitter gives up.  A write that is not over breaks off. -/
def breakOff (letter : Letter) : Letter :=
  if letter.IsOpen then { letter with stage := .broken } else letter

theorem not_isOpen_breakOff (letter : Letter) : ¬ letter.breakOff.IsOpen := by
  unfold breakOff
  split
  · simp [IsOpen]
  · assumption

theorem stage_breakOff (letter : Letter) :
    letter.breakOff.stage = letter.stage ∨ letter.IsOpen ∧ letter.breakOff.stage = .broken := by
  unfold breakOff
  split
  · rename_i hopen
    exact .inr ⟨hopen, rfl⟩
  · exact .inl rfl

@[simp] theorem id_breakOff (letter : Letter) : letter.breakOff.id = letter.id := by
  unfold breakOff; split <;> rfl

@[simp] theorem text_breakOff (letter : Letter) : letter.breakOff.text = letter.text := by
  unfold breakOff; split <;> rfl

@[simp] theorem put_breakOff (letter : Letter) : letter.breakOff.put = letter.put := by
  unfold breakOff; split <;> rfl

end Letter

/-- A desk with what goes out on its connection. -/
structure Mail where
  /-- The link with the submissions under way. -/
  desk : Desk
  /-- The letters since the transport was opened, in the order in which their submissions took the
  place. -/
  letters : List Letter := []
  /-- The bytes that the stream has taken since then. -/
  received : List UInt8 := []
  /-- The bytes that the peer of a pipe has looked at since then. -/
  looked : List UInt8 := []

namespace Mail

/-- The transport of the link. -/
def transport (m : Mail) : Transport :=
  m.desk.exchange.transport

/-- A submission would take the place. -/
def Accepts (m : Mail) : Prop :=
  m.desk.link.ready = true ∧ m.desk.exchange.pending = none

instance (m : Mail) : Decidable m.Accepts :=
  inferInstanceAs (Decidable (m.desk.link.ready = true ∧ m.desk.exchange.pending = none))

/-- The letter of the next submission. -/
def letter (m : Mail) (command : String) : Letter where
  id := m.desk.exchange.submissions
  text := Text.utf8 (m.desk.exchange.framing.wrap command)

/-- Begin a submission. -/
def submit (m : Mail) (command : String) : Mail :=
  { m with
    desk := m.desk.submit command
    letters := if m.Accepts then m.letters ++ [m.letter command] else m.letters }

/-- The transport is another one now. -/
def withTransport (m : Mail) (transport : Transport) : Mail :=
  { m with desk := m.desk.withExchange { m.desk.exchange with transport } }

/-- The submitter gives up. -/
def abandon (m : Mail) (id : Nat) : Mail :=
  { m with
    desk := m.desk.abandon id
    letters := m.letters.map fun letter => if letter.id = id then letter.breakOff else letter }

/-- The peer looks at what came to it. -/
def look (m : Mail) : Mail :=
  { m.withTransport m.transport.takeSent.2 with looked := m.looked ++ m.transport.takeSent.1 }

end Mail
end Link
end Uplink
