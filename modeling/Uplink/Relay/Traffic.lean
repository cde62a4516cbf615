import Uplink.Feed
import Uplink.Network
import Uplink.Relay.Account
import Uplink.Store
import Uplink.Wire.Codec
import Uplink.Wire.Storage

/-!
# The relay at work

The relay has three sockets.  Datagrams from outside are decoded; messages for the field device and
acknowledgements are put into queues of the store.  Datagrams on the private and on the public
socket are sent on to the remote host of their path, as they are read: a datagram that does not fit
into the memory for it is cut.  It is large enough for what can be sent between addresses of version 4;
between addresses of version 6 there are larger datagrams.

An acknowledgement may be announced to be ignored; the announcement is used up by the first
acknowledgement with its number, and replaced by the next announcement.

A store that fails does not keep the relay from its work, and the account does not tell of it.
-/

namespace Uplink

namespace Relay

/-- The name of the component. -/
def component : String := "proxy"

/-- A datagram that was sent. -/
structure Parcel where
  /-- The path it took. -/
  path : Path
  /-- The remote host. -/
  host : String
  /-- The remote port. -/
  port : UInt16
  /-- The bytes. -/
  data : List UInt8
  deriving DecidableEq, Repr

end Relay

open Relay in
/-- A relay with its sockets. -/
structure Relay where
  /-- The hosts and ports. -/
  config : Config
  /-- The local address of the sockets. -/
  address : Address
  /-- Whether the sockets are open. -/
  started : Bool := true
  /-- The number of the acknowledgement to be ignored. -/
  hint : Option UInt16 := none
  /-- How often everything happened. -/
  stats : Stats := {}
  /-- What the observers were told. -/
  events : Feed Event := {}
  /-- The datagrams that were sent, last first. -/
  parcels : List Parcel := []
  deriving Repr

namespace Relay

/-- The sockets of a relay, by name. -/
def sockets (address : Address) (config : Config) : List (String × Endpoint) :=
  [("outside", ⟨address, 0⟩),
    ("private", ⟨address, config.relayPort .privateNet⟩),
    ("public", ⟨address, config.relayPort .publicNet⟩)]

/-- Open the sockets, all or none. -/
def start (network : Network) (binding : Binding) (config : Config) :
    Except Failure (Relay × Network) :=
  ((sockets binding.address config).foldlM
    (fun (network : Network) socket => network.bind socket.1 socket.2) network).map
    fun network => ({ config, address := binding.address }, network)

/-- Close the sockets; a relay that is stopped stays so. -/
def stop (network : Network) (relay : Relay) : Relay × Network :=
  if relay.started then
    let network := (sockets relay.address relay.config).foldl
      (fun (network : Network) socket => network.release socket.2) network
    ({ relay with started := false }, network)
  else (relay, network)

/-- Tell the observers. -/
def publish (relay : Relay) (event : Event) : Relay :=
  { relay with events := relay.events.publish event }

/-- Announce that the next acknowledgement with a number is to be ignored. -/
def ignoreAck (relay : Relay) (sequence : UInt16) : Relay :=
  { relay with hint := some sequence }

/-! ## From outside -/

/-- Handle a message: what becomes of it, and the store and the relay afterwards. -/
def dispatch (store : Store) (relay : Relay) (message : Wire.Message) : Outcome × Store × Relay :=
  if message.type = Wire.mobileTerminatedEvent then
    (.command, (store.push Store.commandQueue message.toStorage).2, relay)
  else if message.type = Wire.mobileTerminatedAck then
    if relay.hint = some message.sequence then
      (.ignoreAck message.sequence, store, { relay with hint := none })
    else
      (.relayAck message.sequence,
        (store.push Store.ackQueue (toString message.sequence.toNat)).2, relay)
  else (.unexpectedType message.type, store, relay)

/-- Handle the bytes of a datagram. -/
def interpret (store : Store) (relay : Relay) (data : List UInt8) : Outcome × Store × Relay :=
  match Wire.Message.decode data with
  | .ok message => dispatch store relay message
  | .error (.checksum _ _) => (.crcError, store, relay)
  | .error _ => (.decodeError, store, relay)

/-- Take a datagram from outside.  It is lost where the socket is closed. -/
def receive (store : Store) (relay : Relay) (data : List UInt8) : Store × Relay :=
  if relay.started then
    let (outcome, store, relay) := interpret store relay data
    (store, { relay with stats := relay.stats.countReceived.countOutcome outcome }.publish
      (.inbound outcome))
  else (store, relay)

/-! ## Over the paths -/

/-- Note in the store when a datagram was sent. -/
def record (store : Store) (clock : Nat) : Path → Store
  | .privateNet =>
    (store.writeTexts
      [(Store.lastRelayKey, toString clock), (Store.lastPrivateRelayKey, toString clock)]).2
  | .publicNet => (store.writeText Store.lastRelayKey (toString clock)).2

/-- The size of the memory into which the relay reads a datagram.  What does not fit into it is lost. -/
def bufferSize : Nat := 65507

/-- Send a datagram over a path, at a time of the clock. -/
def forward (network : Network) (clock : Nat) (store : Store) (relay : Relay) (path : Path)
    (data : List UInt8) : Except Failure Unit × Store × Relay :=
  if relay.started then
    let (host, port) := relay.config.destination path
    match network.send host port data with
    | .ok () =>
      (.ok (), record store clock path,
        { relay with
          stats := relay.stats.countSent path
          parcels := ⟨path, host, port, data⟩ :: relay.parcels }.publish (.sent path))
    | .error failure => (.error failure, store, { relay with stats := relay.stats.countSendError })
  else (.error (.notStarted component), store, relay)

/-- Send on what the relay reads of a datagram that comes in on the socket of a path. -/
def arrive (network : Network) (clock : Nat) (store : Store) (relay : Relay) (path : Path)
    (data : List UInt8) : Except Failure Unit × Store × Relay :=
  forward network clock store relay path (data.take bufferSize)

/-- Send a datagram over the path that is taken unless another one is asked for. -/
def sendPrimary (network : Network) (clock : Nat) (store : Store) (relay : Relay)
    (data : List UInt8) :
    Except Failure Unit × Store × Relay :=
  forward network clock store relay relay.config.primary data

end Relay
end Uplink
