import Uplink.Address
import Uplink.Failure

/-!
# The network of the host

Sockets for datagrams are bound to local addresses and ports, each port by one socket at a time, and
datagrams are sent from them.  Which addresses are local, and where datagrams get to, is a matter
of the host.
-/

namespace Uplink

/-- A local address with a port; port zero stands for a port that the host chooses. -/
structure Endpoint where
  /-- The address. -/
  address : Address
  /-- The port. -/
  port : UInt16
  deriving DecidableEq, Repr

namespace Endpoint

/-- How an endpoint is called in messages. -/
def describe (endpoint : Endpoint) : String :=
  endpoint.address.text ++ ":" ++ toString endpoint.port.toNat

/-- Whether two sockets may not be bound to these endpoints at once. -/
def clashes (a b : Endpoint) : Bool :=
  a.port ≠ 0 && a.port = b.port &&
    (a.address = b.address || a.address.isUnspecified || b.address.isUnspecified)

end Endpoint

/-- A network, as a host sees it. -/
structure Network where
  /-- Whether sockets may be bound to an address. -/
  isLocal : Address → Bool
  /-- The address to which datagrams for a port of a host go, if they get there. -/
  route : String → UInt16 → Option Address
  /-- The endpoints to which sockets are bound. -/
  bound : List Endpoint := []

namespace Network

/-- The network of a host without any interface: every address of version 4 may be bound, as none is
known not to be local, and nothing can be sent. -/
def isolated : Network where
  isLocal
    | .v4 .. => true
    | address => address.isUnspecified
  route _ _ := none

/-- Bind a socket to an endpoint. -/
def bind (network : Network) (name : String) (endpoint : Endpoint) : Except Failure Network :=
  if network.isLocal endpoint.address && !network.bound.any endpoint.clashes then
    .ok { network with bound := endpoint :: network.bound }
  else .error (.io ("bind " ++ name ++ " socket to " ++ endpoint.describe) none)

/-- Close a socket. -/
def release (network : Network) (endpoint : Endpoint) : Network :=
  { network with bound := network.bound.erase endpoint }

/-- Whether a datagram of a size can be sent to a port of a host. -/
def carries (network : Network) (host : String) (port : UInt16) (size : Nat) : Bool :=
  (network.route host port).any fun address => size ≤ address.datagramLimit

/-- Send a datagram to a port of a host. -/
def send (network : Network) (host : String) (port : UInt16) (data : List UInt8) :
    Except Failure Unit :=
  if network.carries host port data.length then .ok ()
  else .error (.io ("send to " ++ host ++ ":" ++ toString port.toNat) none)

end Network
end Uplink
