import Uplink.Relay.Config

/-!
# The account of the relay

The relay counts what becomes of every datagram, and tells its observers.
-/

namespace Uplink
namespace Relay

/-- What became of a datagram from outside. -/
inductive Outcome where
  /-- It was a message for the field device, and went to the queue of commands. -/
  | command
  /-- It was an acknowledgement, and its number went to the queue of acknowledgements. -/
  | relayAck (sequence : UInt16)
  /-- It was the acknowledgement that was to be ignored. -/
  | ignoreAck (sequence : UInt16)
  /-- Its check byte was not right. -/
  | crcError
  /-- It was not a message. -/
  | decodeError
  /-- It was a message of another type. -/
  | unexpectedType (type : UInt8)
  deriving DecidableEq, Repr

/-- What the relay tells its observers. -/
inductive Event where
  /-- A datagram was sent over a path. -/
  | sent (path : Path)
  /-- A datagram from outside was handled. -/
  | inbound (outcome : Outcome)
  deriving DecidableEq, Repr

/-- How many events are kept for an observer who does not look. -/
def eventRoom : Nat := 64

/-- How often everything happened since the relay was started. -/
structure Stats where
  /-- Datagrams from outside. -/
  received : UInt64 := 0
  /-- Messages for the field device. -/
  commands : UInt64 := 0
  /-- Acknowledgements that were queued. -/
  relayedAcks : UInt64 := 0
  /-- Acknowledgements that were ignored. -/
  ignoredAcks : UInt64 := 0
  /-- Datagrams with a wrong check byte. -/
  crcErrors : UInt64 := 0
  /-- Datagrams that are not messages. -/
  decodeErrors : UInt64 := 0
  /-- Messages of other types. -/
  unexpectedTypes : UInt64 := 0
  /-- Datagrams sent over the private path. -/
  sentPrivate : UInt64 := 0
  /-- Datagrams sent over the public path. -/
  sentPublic : UInt64 := 0
  /-- Datagrams that could not be sent. -/
  sendErrors : UInt64 := 0
  deriving DecidableEq, Repr, Inhabited

namespace Stats

/-- Count a datagram from outside. -/
def countReceived (stats : Stats) : Stats :=
  { stats with received := stats.received + 1 }

/-- Count what became of a datagram from outside. -/
def countOutcome (stats : Stats) : Outcome → Stats
  | .command => { stats with commands := stats.commands + 1 }
  | .relayAck _ => { stats with relayedAcks := stats.relayedAcks + 1 }
  | .ignoreAck _ => { stats with ignoredAcks := stats.ignoredAcks + 1 }
  | .crcError => { stats with crcErrors := stats.crcErrors + 1 }
  | .decodeError => { stats with decodeErrors := stats.decodeErrors + 1 }
  | .unexpectedType _ => { stats with unexpectedTypes := stats.unexpectedTypes + 1 }

/-- Count a datagram that was sent over a path. -/
def countSent (stats : Stats) : Path → Stats
  | .privateNet => { stats with sentPrivate := stats.sentPrivate + 1 }
  | .publicNet => { stats with sentPublic := stats.sentPublic + 1 }

/-- Count a datagram that could not be sent. -/
def countSendError (stats : Stats) : Stats :=
  { stats with sendErrors := stats.sendErrors + 1 }

/-- The counters by name. -/
def toJson (stats : Stats) : Json :=
  .object ([
    ("received", stats.received),
    ("commands", stats.commands),
    ("relayedAcks", stats.relayedAcks),
    ("ignoredAcks", stats.ignoredAcks),
    ("crcErrors", stats.crcErrors),
    ("decodeErrors", stats.decodeErrors),
    ("unexpectedTypes", stats.unexpectedTypes),
    ("sentPrivate", stats.sentPrivate),
    ("sentPublic", stats.sentPublic),
    ("sendErrors", stats.sendErrors)].map fun counter => (counter.1, Json.nat counter.2.toNat))

end Stats
end Relay
end Uplink
