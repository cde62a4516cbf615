import Uplink.Modem.Identity
import Uplink.Modem.Lines
import Uplink.Modem.Report
import Uplink.Transport
import Uplink.Watcher.Rest

/-!
# Talking to the modem

On every connection the modem is asked for its identity and its signal at once, and for its signal
again and again.  What it says is cut into lines; a line is a flow report, a signal report, or may
belong to the answer about the identity.  A line that cannot be used is noted and dropped.  The
modem is watched: its resource is the open transport.
-/

namespace Uplink
namespace Modem

/-- How many bytes are read at once. -/
def readLimit : Nat := 512

/-- How many events are kept for an observer who does not look. -/
def eventRoom : Nat := 32

/-- What the modem is asked. -/
inductive Request where
  /-- Who it is, twice. -/
  | identity
  /-- How strong the signal is. -/
  | signal
  deriving DecidableEq, Repr

namespace Request

/-- The text of a request. -/
def text : Request → String
  | identity => "AT+CGSN\nAT+CGSN\n"
  | signal => "AT+CSQ\n"

/-- How much work a request makes: it is written, and then may have to be read. -/
def cost (request : Request) : Nat :=
  (Text.utf8 request.text).length + 1

/-- The note about a request that was written. -/
def note : Request → Note
  | identity => .requestImei
  | signal => .requestRssi

end Request

/-- What the modem told. -/
inductive Event where
  /-- The counters of the connection. -/
  | flow (report : FlowReport)
  /-- The strength of the signal. -/
  | signal (reading : UInt32)
  /-- The identity. -/
  | identity (text : String)
  deriving DecidableEq, Repr

/-- The state of the modem beside that of its watcher. -/
structure Session where
  /-- The transport. -/
  transport : Transport
  /-- The time between two requests for the signal, in milliseconds. -/
  interval : Nat
  /-- The bytes of the line that is not complete. -/
  lines : LineBuffer := {}
  /-- The search for the identity. -/
  tracker : IdentityTracker := {}
  /-- The requests to be written at once. -/
  requests : List Request := []
  /-- When the signal is asked for next. -/
  nextRequest : Nat := 0
  /-- The events that were published. -/
  events : Feed Event := {}

namespace Session

/-- The text after a tag. -/
def afterTag? (tag line : String) : Option String :=
  let tag := tag.toList
  let line := line.toList
  if tag.isPrefixOf line then some (String.ofList (line.drop tag.length)) else none

/-- Publish an event, or note that a line could not be used. -/
def publish (s : Session) {α : Type} (event : α → Event) : Except Failure α → Session × List Note
  | .ok value => ({ s with events := s.events.publish (event value) }, [])
  | .error _ => (s, [.error])

/-- Consider a line for the identity. -/
def consider (s : Session) (line : String) : Session × List Note :=
  let (tracker, resolution) := s.tracker.consider line
  let s := { s with tracker }
  match resolution with
  | some (.resolved identity) => ({ s with events := s.events.publish (.identity identity) }, [])
  | some .unknown => (s, [.error])
  | none => (s, [])

/-- Handle a line: the session afterwards and the notes about it. -/
def handleLine (s : Session) (line : String) : Session × List Note :=
  match afterTag? FlowReport.tag line with
  | some data => s.publish .flow (FlowReport.parse data)
  | none =>
    match afterTag? signalTag line with
    | some data => s.publish .signal (parseSignal data)
    | none => s.consider line

/-- Handle lines in order, adding their notes. -/
def handleLines (s : Session) (notes : List Note) : List String → Session × List Note
  | [] => (s, notes)
  | line :: rest =>
    let (s, more) := s.handleLine line
    handleLines s (notes ++ more) rest

/-- Take a chunk of the stream. -/
def receive (s : Session) (chunk : List UInt8) : Session × List Note :=
  let (lines, complete) := s.lines.push chunk
  handleLines { s with lines } [] complete

theorem transport_handleLine (s : Session) (line : String) :
    (s.handleLine line).1.transport = s.transport ∧
      (s.handleLine line).1.requests = s.requests ∧
      (s.handleLine line).1.nextRequest = s.nextRequest := by
  unfold handleLine
  split
  · unfold publish; split <;> simp
  · split
    · unfold publish; split <;> simp
    · unfold consider; dsimp only; split <;> simp

theorem transport_handleLines (lines : List String) (s : Session) (notes : List Note) :
    (s.handleLines notes lines).1.transport = s.transport ∧
      (s.handleLines notes lines).1.requests = s.requests ∧
      (s.handleLines notes lines).1.nextRequest = s.nextRequest := by
  induction lines generalizing s notes with
  | nil => exact ⟨rfl, rfl, rfl⟩
  | cons line rest ih =>
    have hline := transport_handleLine s line
    have hrest := ih (s.handleLine line).1 (notes ++ (s.handleLine line).2)
    exact ⟨hrest.1.trans hline.1, hrest.2.1.trans hline.2.1, hrest.2.2.trans hline.2.2⟩

/-- Write a request: the session afterwards and the note about it. -/
def ask (s : Session) (request : Request) : Session × Note :=
  match s.transport.write (Text.utf8 request.text) with
  | (.ok _, transport) => ({ s with transport }, request.note)
  | (.error _, transport) => ({ s with transport }, .error)

/-- Open the transport. -/
def acquire (s : Session) : Watcher.Act Session :=
  match s.transport.connect with
  | (.ok _, transport) => .finish { s with transport } true
  | (.error _, transport) => .finish { s with transport } false

/-- The time after an interval. -/
def afterInterval (s : Session) (now : Nat) : Nat :=
  now + max 1 s.interval

/-- Write the requests that are due, and read what there is. -/
def drive (s : Session) (now : Nat) : Watcher.Act Session :=
  match s.requests with
  | request :: rest =>
    let (s, note) := { s with requests := rest }.ask request
    .work s { notes := [note] }
  | [] =>
    match s.transport.read readLimit with
    | (.ended, transport) => .finish { s with transport } false
    | (.data chunk, transport) =>
      let (s, notes) := { s with transport }.receive chunk
      .work s { notes }
    | (.pending, _) =>
      if now < s.nextRequest then .wait (some s.nextRequest)
      else .work { s with requests := [.signal], nextRequest := s.afterInterval now } {}

/-- Start on a task: a connection begins with both requests and without a line. -/
def enter (task : Watcher.Task) (_ : Nat) (_ : Unit) (now : Nat) (s : Session) : Session :=
  match task with
  | .drive =>
    { s with lines := {}, requests := [.identity, .signal], nextRequest := s.afterInterval now }
  | _ => s

/-- What is done about a task. -/
def act (task : Watcher.Task) (_ : Unit) (now : Nat) (_ : Bool) (s : Session) :
    Watcher.Act Session :=
  match task with
  | .acquire => s.acquire
  | .drive => s.drive now
  | .release => .finish { s with transport := s.transport.disconnect } true

/-- How much work it is to make some requests and to read the answers. -/
def workload : List Request → Nat
  | [] => 0
  | request :: rest => request.cost + workload rest

/-- How much work may be left at a given time. -/
def energy (now : Nat) (s : Session) : Nat :=
  workload s.requests + s.transport.available.length +
    if now < s.nextRequest then 0 else Request.signal.cost + 1

theorem ask_le (s : Session) (request : Request) :
    (s.ask request).1.requests = s.requests ∧ (s.ask request).1.nextRequest = s.nextRequest ∧
      (s.ask request).1.transport.available.length + 1 ≤
        s.transport.available.length + request.cost := by
  have hwrite := Transport.available_write (Text.utf8 request.text) s.transport
  unfold ask Request.cost
  split <;>
  · rename_i transport h
    rw [h] at hwrite
    dsimp only at hwrite ⊢
    exact ⟨rfl, rfl, by omega⟩

theorem energy_drive {now : Nat} {s next : Session} {deed : Watcher.Deed}
    (h : s.drive now = .work next deed) : next.energy now < s.energy now := by
  unfold drive at h
  split at h
  · rename_i request rest hrequests
    simp only [Watcher.Act.work.injEq] at h
    have hask := ask_le { s with requests := rest } request
    rw [h.1] at hask
    dsimp only at hask
    simp only [energy, hask.1, hask.2.1, hrequests, workload]
    omega
  · rename_i hrequests
    split at h
    · cases h
    · rename_i chunk transport hread
      simp only [Watcher.Act.work.injEq] at h
      have hlt := Transport.available_read (by decide) hread
      have hkeep := transport_handleLines (s.lines.push chunk).2
        { s with transport, lines := (s.lines.push chunk).1 } []
      have hnext : next = (handleLines { s with transport, lines := (s.lines.push chunk).1 } []
          (s.lines.push chunk).2).1 := h.1.symm
      rw [← hnext] at hkeep
      dsimp only at hkeep
      simp only [energy, hkeep.1, hkeep.2.1, hkeep.2.2]
      omega
    · split at h
      · cases h
      · rename_i hdue
        simp only [Watcher.Act.work.injEq] at h
        have hlater : now < s.afterInterval now := by unfold afterInterval; omega
        rw [← h.1]
        simp only [energy, hrequests, hlater, hdue]
        simp only [workload, if_true, if_false]
        omega

/-- The connection to the modem as a resource. -/
def resource : Watcher.Resource Session Unit where
  readyOnAcquire := true
  enter := enter
  act := act
  energy _ := energy
  energy_lt := by
    intro task args now permit s next deed h
    unfold act at h
    split at h
    · unfold acquire at h
      split at h <;> cases h
    · exact energy_drive h
    · cases h

end Session

/-- The modem with its watcher. -/
abbrev Watched := Watcher Session Unit

namespace Watched

/-- The watcher of a modem before it is started. -/
def of (transport : Transport) (interval retry : Nat) : Watched :=
  { name := "modem", retry, resource := { transport, interval } }

/-- Begin to watch; an identity found before is forgotten. -/
def begin (w : Watched) : Except Failure Unit × Watched :=
  if w.started then (.error (.alreadyStarted w.name), w)
  else (w.withResource { w.resource with tracker := {} }).start ()

/-- The identity of the modem, once it is decided. -/
def identity (w : Watched) : Option String :=
  w.resource.tracker.identity

end Watched
end Modem
end Uplink
