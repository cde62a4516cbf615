import Uplink.Template

/-!
# The configuration of the route
-/

namespace Uplink
namespace Route

/-- The network behind the dial-up interface and how often the route to it is checked. -/
structure Config where
  /-- The address of the network. -/
  subnet : String := "172.29.12.0"
  /-- The mask of the network. -/
  mask : String := "255.255.255.0"
  /-- The name of the interface. -/
  interface : String := "ppp0"
  /-- The time between two checks, in milliseconds. -/
  interval : UInt64 := 15000
  deriving DecidableEq, Repr, Inhabited

namespace Config

/-- The command that adds the route. -/
def addCommand (config : Config) : String :=
  "route add -net " ++ config.subnet ++ " netmask " ++ config.mask ++ " dev " ++ config.interface

/-- The configuration as JSON. -/
def toJson (config : Config) : Json :=
  .object [
    ("subnet", .string config.subnet),
    ("mask", .string config.mask),
    ("interface", .string config.interface),
    ("routeInterval", .nat config.interval.toNat)]

/-- The configuration that a document denotes. -/
def ofDocument? {σ : Type} [Document σ] (document : σ) : Option Config := do
  let record ← Document.record? ["subnet", "mask", "interface", "routeInterval"] document
  let base : Config := {}
  let subnet ← record.getD "subnet" base.subnet Document.text?
  let mask ← record.getD "mask" base.mask Document.text?
  let interface ← record.getD "interface" base.interface Document.text?
  let interval ← record.getD "routeInterval" base.interval Document.count?
  return { subnet, mask, interface, interval }

/-- Where the configuration stands in a hash. -/
def template : Template :=
  Template.field {} "subnet" (.string "ppp:subnet")
    |>.field "mask" (.string "ppp:mask")
    |>.field "interface" (.string "ppp:interface")
    |>.field "routeInterval" (.number "ppp:route-interval")

end Config
end Route
end Uplink
