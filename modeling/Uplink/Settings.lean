import Uplink.Modem.Config
import Uplink.Relay.Config
import Uplink.Retry
import Uplink.Route.Config
import Uplink.Store

/-!
# The settings of the gateway

What is set before the gateway runs: where its configuration is kept, how long its components wait
before they try again, and what holds for the modem and the route where the configuration says
nothing else.
-/

namespace Uplink

/-- The settings of the gateway. -/
structure Settings where
  /-- The key of the hash with the configuration. -/
  configKey : String := Store.configKey
  /-- How long the checkpoint waits. -/
  checkpoint : RetryPolicy := {}
  /-- How long the watchers wait. -/
  watcher : RetryPolicy := {}
  /-- The modem. -/
  modem : Modem.Config := {}
  /-- The route. -/
  route : Route.Config := {}
  /-- Where the relay accepts datagrams. -/
  relay : Relay.Binding := {}
  deriving DecidableEq, Repr, Inhabited

namespace Settings

/-- The settings as JSON. -/
def toJson (settings : Settings) : Json :=
  .object [
    ("configKey", .string settings.configKey),
    ("checkpoint", settings.checkpoint.toJson),
    ("watcher", settings.watcher.toJson),
    ("modem", settings.modem.toJson),
    ("ppp", settings.route.toJson),
    ("proxy", settings.relay.toJson)]

/-- The settings that a document denotes. -/
def ofDocument? {σ : Type} [Document σ] (document : σ) : Option Settings := do
  let record ←
    Document.record? ["configKey", "checkpoint", "watcher", "modem", "ppp", "proxy"] document
  let configKey ← record.getD "configKey" Store.configKey Document.text?
  let checkpoint ← record.getD "checkpoint" {} RetryPolicy.ofDocument?
  let watcher ← record.getD "watcher" {} RetryPolicy.ofDocument?
  let modem ← record.getD "modem" {} Modem.Config.ofDocument?
  let route ← record.getD "ppp" {} Route.Config.ofDocument?
  let relay ← record.getD "proxy" {} Relay.Binding.ofDocument?
  return { configKey, checkpoint, watcher, modem, route, relay }

/-- A configuration whose fields are replaced by those that a hash has. -/
def overlay {α : Type} (base : Json) (template : Template) (read : Json → Option α)
    (hash : Keyed String) : Except Failure α :=
  (template.toConfig hash).bind fun fields =>
    match read (base.overlay fields) with
    | some config => .ok config
    | none => .error (.config "the fields do not make a configuration")

/-- The configuration of the route, for a hash. -/
def routeConfig (settings : Settings) (hash : Keyed String) : Except Failure Route.Config :=
  overlay settings.route.toJson Route.Config.template Route.Config.ofDocument? hash

/-- The configuration of the modem, for a hash. -/
def modemConfig (settings : Settings) (hash : Keyed String) : Except Failure Modem.Config :=
  overlay settings.modem.toJson Modem.Config.template Modem.Config.ofDocument? hash

end Settings
end Uplink
