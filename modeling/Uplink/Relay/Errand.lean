import Uplink.Relay.Traffic

/-!
# Datagrams under way

A datagram goes through the relay in parts: it is counted, it waits for the store or for the network,
it is counted again, and the observers are told.  Between these parts other datagrams go through
theirs, an announcement is replaced, the relay is stopped.  `receive` and `forward` make all parts at
once; here each part is made by itself.

A datagram that is under way when the relay is stopped goes through all of its parts.  One that comes
in while the sockets are being closed is one that came in before.
-/

namespace Uplink
namespace Relay

/-- A datagram under way, by the part that is next. -/
inductive Errand where
  /-- It came from outside and is to be decoded. -/
  | arrived (data : List UInt8)
  /-- A text is to be put into a queue for it. -/
  | queueing (outcome : Outcome) (key text : String)
  /-- What became of it is to be counted. -/
  | settled (outcome : Outcome)
  /-- The observers are to be told what became of it. -/
  | counted (outcome : Outcome)
  /-- It is to be sent. -/
  | sending (path : Path) (data : List UInt8)
  /-- It could not be sent, which is to be counted. -/
  | unsent
  /-- It was sent, which is to be counted. -/
  | sent (path : Path)
  /-- The clock is to be read. -/
  | timing (path : Path)
  /-- The time that was read is to be noted in the store. -/
  | noting (path : Path) (time : Nat)
  /-- The observers are to be told that it was sent. -/
  | noted (path : Path)
  deriving DecidableEq, Repr

/-! ## The first part -/

/-- Take a datagram from outside, if the socket is open. -/
def accept (relay : Relay) (data : List UInt8) : List Errand × Relay :=
  if relay.started then ([.arrived data], { relay with stats := relay.stats.countReceived })
  else ([], relay)

/-- Begin to send a datagram over a path. -/
def attempt (relay : Relay) (path : Path) (data : List UInt8) : Except Failure Errand :=
  if relay.started then .ok (.sending path data)
  else .error (.notStarted component)

/-! ## The other parts -/

/-- Say what is to become of a message; an announcement with its number is used up. -/
def sort (relay : Relay) (message : Wire.Message) : Errand × Relay :=
  if message.type = Wire.mobileTerminatedEvent then
    (.queueing .command Store.commandQueue message.toStorage, relay)
  else if message.type = Wire.mobileTerminatedAck then
    if relay.hint = some message.sequence then
      (.settled (.ignoreAck message.sequence), { relay with hint := none })
    else
      (.queueing (.relayAck message.sequence) Store.ackQueue (toString message.sequence.toNat), relay)
  else (.settled (.unexpectedType message.type), relay)

/-- Say what is to become of the bytes of a datagram. -/
def judge (relay : Relay) (data : List UInt8) : Errand × Relay :=
  match Wire.Message.decode data with
  | .ok message => sort relay message
  | .error (.checksum _ _) => (.settled .crcError, relay)
  | .error _ => (.settled .decodeError, relay)

/-- Make the next part of an errand: what is left of it, and the store and the relay afterwards. -/
def work (network : Network) (clock : Nat) (store : Store) (relay : Relay) :
    Errand → Option Errand × Store × Relay
  | .arrived data =>
    let (errand, relay) := judge relay data
    (some errand, store, relay)
  | .queueing outcome key text => (some (.settled outcome), (store.push key text).2, relay)
  | .settled outcome =>
    (some (.counted outcome), store, { relay with stats := relay.stats.countOutcome outcome })
  | .counted outcome => (none, store, relay.publish (.inbound outcome))
  | .sending path data =>
    let (host, port) := relay.config.destination path
    match network.send host port data with
    | .ok () =>
      (some (.sent path), store, { relay with parcels := ⟨path, host, port, data⟩ :: relay.parcels })
    | .error _ => (some .unsent, store, relay)
  | .unsent => (none, store, { relay with stats := relay.stats.countSendError })
  | .sent path => (some (.timing path), store, { relay with stats := relay.stats.countSent path })
  | .timing path => (some (.noting path clock), store, relay)
  | .noting path time => (some (.noted path), record store time path, relay)
  | .noted path => (none, store, relay.publish (.sent path))

end Relay
end Uplink
