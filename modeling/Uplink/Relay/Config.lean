import Uplink.Address
import Uplink.Template

/-!
# The configuration of the relay

Datagrams leave over one of two paths.  Each path has a remote host with a port, and a local port
where datagrams for it are accepted.
-/

namespace Uplink
namespace Relay

/-- A path that datagrams take. -/
inductive Path where
  /-- The path through the network of the operator. -/
  | privateNet
  /-- The path through the open network. -/
  | publicNet
  deriving DecidableEq, Repr, Inhabited

namespace Path

/-- The name of a path. -/
def name : Path → String
  | privateNet => "private"
  | publicNet => "public"

/-- The path with the given name. -/
def ofName? (text : String) : Option Path :=
  [privateNet, publicNet].find? fun path => path.name = text

end Path

/-- The hosts and ports of the relay. -/
structure Config where
  /-- The path that is taken unless another one is asked for. -/
  primary : Path := .publicNet
  /-- The remote host of the private path. -/
  privateHost : String
  /-- The remote port of the private path. -/
  privatePort : UInt16
  /-- The local port of the private path. -/
  privateRelay : UInt16 := 4000
  /-- The remote host of the public path. -/
  publicHost : String
  /-- The remote port of the public path. -/
  publicPort : UInt16
  /-- The local port of the public path. -/
  publicRelay : UInt16 := 4001
  /-- The identity of the modem, if it is configured. -/
  identity : Option String := none
  deriving DecidableEq, Repr, Inhabited

namespace Config

/-- The remote host and port of a path. -/
def destination (config : Config) : Path → String × UInt16
  | .privateNet => (config.privateHost, config.privatePort)
  | .publicNet => (config.publicHost, config.publicPort)

/-- The local port of a path. -/
def relayPort (config : Config) : Path → UInt16
  | .privateNet => config.privateRelay
  | .publicNet => config.publicRelay

/-- The fields, in the order of their declaration. -/
def fields : List String :=
  ["primary", "privateHost", "privatePort", "privateRelay", "publicHost", "publicPort",
    "publicRelay", "imei"]

/-- The configuration as JSON. -/
def toJson (config : Config) : Json :=
  .object ([
    ("primary", .string config.primary.name),
    ("privateHost", .string config.privateHost),
    ("privatePort", .nat config.privatePort.toNat),
    ("privateRelay", .nat config.privateRelay.toNat),
    ("publicHost", .string config.publicHost),
    ("publicPort", .nat config.publicPort.toNat),
    ("publicRelay", .nat config.publicRelay.toNat)] ++
    (config.identity.map fun identity => ("imei", .string identity)).toList)

/-- The configuration that a JSON value denotes. -/
def ofJson? (json : Json) : Option Config := do
  let record ← Json.record? fields json
  let primary ← record.getD "primary" .publicNet (Json.asNamed? Path.ofName?)
  let privateHost ← record.require "privateHost" Json.asString?
  let privatePort ← record.require "privatePort" Json.asUInt16?
  let privateRelay ← record.getD "privateRelay" 4000 Json.asUInt16?
  let publicHost ← record.require "publicHost" Json.asString?
  let publicPort ← record.require "publicPort" Json.asUInt16?
  let publicRelay ← record.getD "publicRelay" 4001 Json.asUInt16?
  let identity ← record.getD "imei" none (Json.asOption? Json.asString?)
  return {
    primary, privateHost, privatePort, privateRelay, publicHost, publicPort, publicRelay, identity }

/-- Where the configuration stands in a hash.  Only the identity must be there. -/
def template : Template :=
  Template.field {} "imei" (FieldSpec.string "gateway:imei").require
    |>.field "primary" ((FieldSpec.string "gateway:primary").withFallback (.string "public"))
    |>.field "privateHost" (.string "gateway:private-host")
    |>.field "privatePort" (.number "gateway:private-port")
    |>.field "privateRelay" ((FieldSpec.number "gateway:private-relay").withFallback (.int 4000))
    |>.field "publicHost" (.string "gateway:public-host")
    |>.field "publicPort" (.number "gateway:public-port")
    |>.field "publicRelay" ((FieldSpec.number "gateway:public-relay").withFallback (.int 4001))

end Config

/-- Where the relay accepts datagrams. -/
structure Binding where
  /-- The local address. -/
  address : Address := .unspecified
  deriving DecidableEq, Repr, Inhabited

namespace Binding

/-- The binding as JSON. -/
def toJson (binding : Binding) : Json :=
  .object [("bindAddress", .string binding.address.text)]

/-- The binding that a document denotes. -/
def ofDocument? {σ : Type} [Document σ] (document : σ) : Option Binding := do
  let record ← Document.record? ["bindAddress"] document
  let address ← record.getD "bindAddress" ({} : Binding).address
    fun value => (Document.text? value).bind Address.ofText?
  return { address }

end Binding
end Relay
end Uplink
