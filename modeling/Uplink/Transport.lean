import Uplink.Device
import Uplink.Failure
import Uplink.Keyed

/-!
# Transports

A transport is opened again and again; each time it yields a stream of bytes in both directions, or
fails.  It leads to a character device, whose files may exist or not, or it follows a script: one
plan for each opening says whether the opening fails, or yields a pipe to a peer, or a stream that
stays silent and cannot be written.  It may also lead to a port of a host, which answers or does
not.
-/

namespace Uplink

namespace Transport

/-- What happens when a transport is opened. -/
inductive Plan where
  /-- A pipe to a new peer. -/
  | pipe
  /-- No stream. -/
  | refuse
  /-- A stream that yields nothing and takes nothing. -/
  | mute
  deriving DecidableEq, Repr, Inhabited

/-- Where a transport leads. -/
inductive Target where
  /-- What the plans say; the last one is followed again and again. -/
  | scripted (plans : List Plan)
  /-- A character device. -/
  | device (device : Device.Serial)
  /-- A port of a host, which may answer. -/
  | remote (port : Device.Telnet) (answers : Bool)
  deriving DecidableEq, Repr

/-- The open stream, as the component sees it. -/
inductive Stream where
  /-- There is none. -/
  | closed
  /-- It yields nothing and takes nothing. -/
  | mute
  /-- It is a pipe to the peer. -/
  | pipe
  /-- It is a device, with the places of the next byte to read and the next to write. -/
  | files (readAt writeAt : Nat)
  deriving DecidableEq, Repr

/-- What comes of reading. -/
inductive Reading where
  /-- Some bytes, at least one. -/
  | data (bytes : List UInt8)
  /-- The end of the stream. -/
  | ended
  /-- Nothing yet. -/
  | pending
  deriving DecidableEq, Repr

end Transport

open Transport in
/-- A transport with its open stream, its files and its peer. -/
structure Transport where
  /-- Where the transport leads. -/
  target : Target
  /-- The files that exist, by path. -/
  files : Keyed (List UInt8) := []
  /-- How often the transport was opened. -/
  opens : Nat := 0
  /-- The open stream. -/
  stream : Stream := .closed
  /-- Whether there is a peer. -/
  hasPeer : Bool := false
  /-- The bytes from the peer that were not read yet. -/
  inbox : List UInt8 := []
  /-- The pieces of bytes to the peer that it did not look at yet, last first. -/
  outbox : List (List UInt8) := []
  deriving Repr

namespace Transport

/-- The plan of the next opening. -/
def nextPlan (plans : List Plan) (opens : Nat) : Plan :=
  match plans[opens]? with
  | some plan => plan
  | none => plans.getLast?.getD .pipe

/-- The transport as a pipe to a new peer. -/
def toPeer (t : Transport) : Transport :=
  { t with stream := .pipe, hasPeer := true, inbox := [], outbox := [] }

/-- Open the transport. -/
def connect (t : Transport) : Except Failure Unit × Transport :=
  let t := { t with opens := t.opens + 1 }
  match t.target with
  | .scripted plans =>
    match nextPlan plans (t.opens - 1) with
    | .pipe => (.ok (), t.toPeer)
    | .refuse => (.error (.io "connect" (some "scripted")), t)
    | .mute => (.ok (), { t with stream := .mute })
  | .device device =>
    if !t.files.has device.inFile then (.error (.io ("open " ++ device.inFile) none), t)
    else if !t.files.has device.outFile then (.error (.io ("open " ++ device.outFile) none), t)
    else (.ok (), { t with stream := .files 0 0 })
  | .remote port answers =>
    if answers then (.ok (), t.toPeer) else (.error (.io ("connect " ++ port.describe) none), t)

/-- Close the stream. -/
def disconnect (t : Transport) : Transport :=
  { t with stream := .closed }

/-- The path that is read. -/
def inFile (t : Transport) : String :=
  match t.target with
  | .device device => device.inFile
  | _ => ""

/-- The path that is written. -/
def outFile (t : Transport) : String :=
  match t.target with
  | .device device => device.outFile
  | _ => ""

/-- The bytes of a file from a place on. -/
def fileRest (t : Transport) (readAt : Nat) : List UInt8 :=
  ((t.files.find? t.inFile).getD []).drop readAt

/-- The bytes that can be read without waiting. -/
def available (t : Transport) : List UInt8 :=
  match t.stream with
  | .pipe => t.inbox
  | .files readAt _ => t.fileRest readAt
  | _ => []

/-- Read at most `limit` bytes. -/
def read (limit : Nat) (t : Transport) : Reading × Transport :=
  let bytes := t.available.take limit
  match t.stream with
  | .pipe =>
    if bytes.isEmpty then (if t.hasPeer then .pending else .ended, t)
    else (.data bytes, { t with inbox := t.inbox.drop limit })
  | .files readAt writeAt =>
    if bytes.isEmpty then (.ended, t)
    else (.data bytes, { t with stream := .files (readAt + bytes.length) writeAt })
  | .mute => (.pending, t)
  | .closed => (.ended, t)

/-- Some bytes with others written over them from a place on. -/
def overwrite (old : List UInt8) (place : Nat) (bytes : List UInt8) : List UInt8 :=
  old.take place ++ bytes ++ old.drop (place + bytes.length)

/-- Write some bytes. -/
def write (bytes : List UInt8) (t : Transport) : Except Failure Unit × Transport :=
  match t.stream with
  | .pipe =>
    if t.hasPeer then (.ok (), { t with outbox := bytes :: t.outbox })
    else (.error (.io "write" (some "broken pipe")), t)
  | .files readAt writeAt =>
    let old := (t.files.find? t.outFile).getD []
    (.ok (), { t with
      files := t.files.insert t.outFile (overwrite old writeAt bytes)
      stream := .files readAt (writeAt + bytes.length) })
  | .mute => (.error (.io "write" (some "mute")), t)
  | .closed => (.error .notReady, t)

/-- Reading some bytes leaves fewer to be read. -/
theorem available_read {limit : Nat} {t next : Transport} {bytes : List UInt8}
    (hlimit : 0 < limit) (h : t.read limit = (.data bytes, next)) :
    next.available.length < t.available.length := by
  unfold read at h
  dsimp only at h
  split at h
  · rename_i hstream
    split at h
    · simp only [Prod.mk.injEq] at h
      exact absurd h.1 (by split <;> simp)
    · rename_i hne
      simp only [Prod.mk.injEq, Reading.data.injEq] at h
      rw [← h.2]
      simp only [available, hstream, List.length_drop]
      cases hin : t.inbox with
      | nil => simp [available, hstream, hin] at hne
      | cons => simp only [List.length_cons]; omega
  · rename_i readAt writeAt hstream
    split at h
    · simp at h
    · rename_i hne
      simp only [Prod.mk.injEq, Reading.data.injEq] at h
      rw [← h.2]
      have hlength : 0 < (t.available.take limit).length := by
        cases hin : t.available.take limit with
        | nil => simp [hin] at hne
        | cons => simp
      have hle := (List.take_prefix limit t.available).length_le
      simp only [available, hstream, fileRest, List.length_drop, inFile] at hlength hle ⊢
      omega
  · simp at h
  · simp at h

theorem length_overwrite_le (old : List UInt8) (place : Nat) (bytes : List UInt8) :
    (overwrite old place bytes).length ≤ old.length + bytes.length := by
  simp only [overwrite, List.length_append, List.length_take, List.length_drop]
  omega

/-- Writing adds at most the written bytes to those that can be read. -/
theorem available_write (bytes : List UInt8) (t : Transport) :
    (t.write bytes).2.available.length ≤ t.available.length + bytes.length := by
  unfold write
  split
  · rename_i hstream
    split <;> simp [available, hstream]
  · rename_i readAt writeAt hstream
    simp only [available, hstream, fileRest, List.length_drop]
    by_cases hfile : t.inFile = t.outFile
    · have hle := length_overwrite_le ((t.files.find? t.outFile).getD []) writeAt bytes
      simp only [inFile] at hfile
      simp only [inFile, hfile, Keyed.find?_insert_self, Option.getD_some]
      omega
    · simp only [inFile] at hfile
      simp only [inFile, Keyed.find?_insert_of_ne hfile]
      omega
  · simp
  · simp

/-! ## The peer -/

/-- The peer writes some bytes; this fails where nobody can receive them. -/
def peerWrite (bytes : List UInt8) (t : Transport) : Bool × Transport :=
  if t.hasPeer && t.stream = .pipe then (true, { t with inbox := t.inbox ++ bytes })
  else (t.hasPeer && bytes.isEmpty, t)

/-- The peer goes away. -/
def hangUp (t : Transport) : Transport :=
  { t with hasPeer := false, outbox := [] }

/-- The peer looks at the bytes it was sent. -/
def takeSent (t : Transport) : List UInt8 × Transport :=
  (t.outbox.reverse.flatten, { t with outbox := [] })

end Transport
end Uplink
