import Uplink.Link.Framer
import Uplink.Transport
import Uplink.Watcher.Rest

/-!
# Commands and responses

A link sends commands over a transport and receives responses.  One command at a time waits for its
response; the next response completes it.  A response that nobody waits for is published.  The
link is watched: its resource is the open transport.

A command that waits when the connection is closed fails.  A submitter may give up waiting; its
command then keeps its place until a response or the end of the connection takes it away.
-/

namespace Uplink
namespace Link

/-- How many bytes are read at once. -/
def readLimit : Nat := 1024

/-- How many responses are kept for an observer who does not look. -/
def responseRoom : Nat := 32

/-- A command with the response that completed it. -/
structure Answer where
  /-- The command. -/
  command : String
  /-- The response. -/
  response : String
  deriving DecidableEq, Repr

/-- A command that waits for its response. -/
structure Pending where
  /-- The number of the submission. -/
  id : Nat
  /-- The command. -/
  command : String
  /-- Whether the submitter still waits. -/
  awaited : Bool
  deriving DecidableEq, Repr

/-- The state of a link beside that of its watcher. -/
structure Exchange where
  /-- The name of the link. -/
  name : String
  /-- What is put around commands and expected around responses. -/
  framing : Framing
  /-- The transport. -/
  transport : Transport
  /-- What cuts the responses out of the stream. -/
  framer : Framer
  /-- The command that waits. -/
  pending : Option Pending := none
  /-- How many commands were submitted. -/
  submissions : Nat := 0
  /-- How the submissions ended whose end was not looked at yet, last first. -/
  outcomes : List (Nat × Except Failure Answer) := []
  /-- The responses that nobody waited for. -/
  responses : Feed String := {}

namespace Exchange

/-- A link before it is started. -/
def of (name : String) (framing : Framing) (transport : Transport) : Exchange :=
  { name, framing, transport, framer := Framer.of framing.responseStart framing.responseEnd }

/-- Note how a submission ended. -/
def conclude (x : Exchange) (id : Nat) (outcome : Except Failure Answer) : Exchange :=
  { x with outcomes := (id, outcome) :: x.outcomes }

/-- Take the waiting command away; if its submitter still waits, this is how the submission
ended. -/
def settlePending (x : Exchange) (pending : Pending) (outcome : Except Failure Answer) : Exchange :=
  let x := { x with pending := none }
  if pending.awaited then x.conclude pending.id outcome else x

/-- Hand a response to the waiting command, or else to the observers. -/
def complete (x : Exchange) (response : String) : Exchange :=
  match x.pending with
  | some pending => x.settlePending pending (.ok ⟨pending.command, response⟩)
  | none => { x with responses := x.responses.publish response }

/-- Act on what the framer tells. -/
def handle (x : Exchange) : FrameEvent → Exchange
  | .response text => x.complete text
  | _ => x

/-- Take a chunk of the stream: the link afterwards and the notes about it. -/
def receive (x : Exchange) (chunk : List UInt8) : Exchange × List Note :=
  let (framer, events) := x.framer.push chunk
  (events.foldl handle { x with framer }, events.map FrameEvent.note)

theorem transport_settlePending (x : Exchange) (pending : Pending)
    (outcome : Except Failure Answer) :
    (x.settlePending pending outcome).transport = x.transport := by
  unfold settlePending; dsimp only; split <;> rfl

theorem transport_handle (x : Exchange) (event : FrameEvent) :
    (x.handle event).transport = x.transport := by
  unfold handle complete
  split
  · split
    · exact transport_settlePending _ _ _
    · rfl
  · rfl

theorem transport_foldl_handle (events : List FrameEvent) (x : Exchange) :
    (events.foldl handle x).transport = x.transport := by
  induction events generalizing x with
  | nil => rfl
  | cons event rest ih => exact (ih _).trans (transport_handle x event)

/-- Taking a chunk does not touch the transport. -/
theorem transport_receive (x : Exchange) (chunk : List UInt8) :
    (x.receive chunk).1.transport = x.transport :=
  transport_foldl_handle _ _

/-- Open the transport; nothing of an earlier connection is left in the framer. -/
def acquire (x : Exchange) : Watcher.Act Exchange :=
  match x.transport.connect with
  | (.ok _, transport) => .finish { x with transport, framer := x.framer.reset } true
  | (.error _, transport) => .finish { x with transport } false

/-- Read what there is; the connection is lost at its end. -/
def drive (x : Exchange) : Watcher.Act Exchange :=
  match x.transport.read readLimit with
  | (.pending, _) => .wait none
  | (.ended, transport) => .finish { x with transport } false
  | (.data chunk, transport) =>
    let (x, notes) := { x with transport }.receive chunk
    .work x { notes }

/-- Close the transport and fail the command that waits. -/
def release (x : Exchange) : Watcher.Act Exchange :=
  let x := { x with transport := x.transport.disconnect }
  match x.pending with
  | some pending => .finish (x.settlePending pending (.error (.closed x.name))) true
  | none => .finish x true

/-- What is done about a task. -/
def act (task : Watcher.Task) (_ : Unit) (_ : Nat) (_ : Bool) (x : Exchange) :
    Watcher.Act Exchange :=
  match task with
  | .acquire => x.acquire
  | .drive => x.drive
  | .release => x.release

/-- The connection of a link as a resource. -/
def resource : Watcher.Resource Exchange Unit where
  readyOnAcquire := true
  enter _ _ _ _ x := x
  act := act
  energy _ _ x := x.transport.available.length
  energy_lt := by
    intro task args now permit x next deed h
    unfold act at h
    split at h
    · unfold acquire at h
      split at h <;> cases h
    · unfold drive at h
      split at h
      · cases h
      · cases h
      · rename_i chunk transport hread
        simp only [Watcher.Act.work.injEq] at h
        rw [← h.1, transport_receive]
        exact Transport.available_read (by decide) hread
    · unfold release at h
      dsimp only at h
      split at h <;> cases h

/-- Write a command that takes the free place. -/
def send (x : Exchange) (id : Nat) (command : String) : Exchange :=
  match x.transport.write (Text.utf8 (x.framing.wrap command)) with
  | (.ok _, transport) => { x with transport, pending := some ⟨id, command, true⟩ }
  | (.error failure, transport) => { x with transport }.conclude id (.error failure)

end Exchange

/-- A link with its watcher. -/
abbrev Watched := Watcher Exchange Unit

namespace Watched

/-- Submit a command. It fails at once if the link is not ready or another command waits. -/
def submit (w : Watched) (command : String) : Watched :=
  let id := w.resource.submissions
  let x := { w.resource with submissions := id + 1 }
  w.withResource
    (if !w.ready then x.conclude id (.error .notReady)
     else if x.pending.isSome then x.conclude id (.error .busy)
     else x.send id command)

/-- Let every submitter give up waiting. -/
def abandon (w : Watched) : Watched :=
  w.withResource { w.resource with
    pending := w.resource.pending.map fun pending => { pending with awaited := false } }

end Watched
end Link
end Uplink
