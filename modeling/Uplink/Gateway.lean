import Uplink.Checkpoint.Rest
import Uplink.Modem.Session
import Uplink.Relay.Traffic
import Uplink.Route.Keeper
import Uplink.Settings

/-!
# The gateway

The gateway owns every component.  A start waits at the checkpoint until the configuration is
complete.  Then modem, route and relay are started, in this order; if that fails, everything that
was started is stopped again.  A start may be given up while it waits; the checkpoint then stays
started, and so does the gateway.
-/

namespace Uplink

/-- The gateway with its components and the host it runs on. -/
structure Gateway where
  settings : Settings
  store : Store := {}
  network : Network
  /-- The transport over which a modem was not reached yet. -/
  transport : Transport
  /-- Whether the modem is reached over this transport, whatever device is configured. -/
  hasTransport : Bool
  now : Nat := 0
  checkpoint : Checkpoint
  route : Route.Watched
  /-- The modem, once it was started. -/
  modem : Option Modem.Watched := none
  /-- The relay, while it is started. -/
  relay : Option Relay := none
  /-- Whether a start waits for the configuration. -/
  awaiting : Bool := false
  /-- How the last start ended, if it ended. -/
  outcome : Option (Except Failure Unit) := none

namespace Gateway

def component : String := "gateway"

/-- A gateway before it is started, whose modem is the configured device or reached over the given
transport. -/
def of (settings : Settings) (store : Store) (shell : Shell) (network : Network)
    (transport : Option Transport) : Gateway where
  settings := settings
  store := store
  network := network
  transport := transport.getD { target := .scripted [] }
  hasTransport := transport.isSome
  checkpoint :=
    .ofTemplate settings.configKey Relay.Config.template settings.checkpoint.interval.toNat
  route := .of shell settings.watcher.interval.toNat

/-- Whether the gateway can be shut down, and not started. -/
def started (g : Gateway) : Bool :=
  g.checkpoint.started

/-! ## The transport to the modem -/

/-- The transport in its present state. -/
def line (g : Gateway) : Transport :=
  match g.modem with
  | some modem => modem.resource.transport
  | none => g.transport

/-- The gateway with the transport in another state. -/
def withLine (g : Gateway) (line : Transport) : Gateway :=
  match g.modem with
  | some modem =>
    { g with modem := some (modem.withResource { modem.resource with transport := line }) }
  | none => { g with transport := line }

/-- The transport for a new modem. -/
def lineFor (g : Gateway) (config : Modem.Config) : Transport :=
  { g.line.disconnect with
    target := if g.hasTransport then g.transport.target else .device config.device }

/-! ## Going up and down -/

def startModem (g : Gateway) (config : Modem.Config) : Except Failure Unit × Gateway :=
  let modem : Modem.Watched :=
    .of (g.lineFor config) config.signalInterval.toNat g.settings.watcher.interval.toNat
  let (result, modem) := Modem.Watched.begin { modem with now := g.now }
  (result, { g with modem := some modem })

def startRoute (g : Gateway) (config : Route.Config) : Except Failure Unit × Gateway :=
  let (result, route) := g.route.start config
  (result, { g with route })

def startRelay (g : Gateway) (config : Relay.Config) : Except Failure Unit × Gateway :=
  match Relay.start g.network g.settings.relay config with
  | .ok (relay, network) => (.ok (), { g with relay := some relay, network })
  | .error failure => (.error failure, g)

/-- Go on after success. -/
def andThen (now : Except Failure Unit × Gateway) (go : Gateway → Except Failure Unit × Gateway) :
    Except Failure Unit × Gateway :=
  match now with
  | (.ok (), g) => go g
  | failed => failed

/-- Start the components in their order, up to the first one that fails. -/
def startAll (g : Gateway) (relay : Relay.Config) (route : Route.Config) (modem : Modem.Config) :
    Except Failure Unit × Gateway :=
  andThen (g.startModem modem) fun g => andThen (g.startRoute route) fun g => g.startRelay relay

/-- Read the configuration and start the components. -/
def bringUp (g : Gateway) (fields : List (String × Json)) : Except Failure Unit × Gateway :=
  match Relay.Config.ofJson? (.object fields) with
  | none => (.error (.config "the fields do not make a configuration"), g)
  | some relay =>
    let (hash, store) := g.store.readHash g.settings.configKey
    let g := { g with store }
    let configs := do
      let hash ← hash
      let route ← g.settings.routeConfig hash
      let modem ← g.settings.modemConfig hash
      return (route, modem)
    match configs with
    | .ok (route, modem) => g.startAll relay route modem
    | .error failure => (.error failure, g)

def stopRelay (g : Gateway) : Gateway :=
  match g.relay with
  | some relay => { g with relay := none, network := (Relay.stop g.network relay).2 }
  | none => g

/-- Stop everything that is started. -/
def stopAll (g : Gateway) : Gateway :=
  let g := g.stopRelay
  { g with
    modem := g.modem.map fun modem => (Watcher.stop modem).2
    route := (Watcher.stop g.route).2
    checkpoint := g.checkpoint.stop.2 }

/-- End a start: with all components, or with none. -/
def conclude (g : Gateway) (fields : List (String × Json)) : Gateway :=
  match g.bringUp fields with
  | (.ok (), g) => { g with awaiting := false, outcome := some (.ok ()) }
  | (.error failure, g) => { g.stopAll with awaiting := false, outcome := some (.error failure) }

/-- Begin a start. It waits for the configuration, or ends at once if the gateway is started. -/
def start (g : Gateway) : Gateway :=
  if g.started then { g with outcome := some (.error (.alreadyStarted component)) }
  else
    match g.checkpoint.start with
    | (.ok (), checkpoint) => { g with checkpoint, awaiting := true, outcome := none }
    | (.error failure, checkpoint) => { g with checkpoint, outcome := some (.error failure) }

/-- Give up a start that waits. -/
def abandonStart (g : Gateway) : Gateway :=
  { g with awaiting := false, checkpoint := g.checkpoint.deafen }

def shutdown (g : Gateway) : Except Failure Unit × Gateway :=
  if g.started then (.ok (), g.stopAll) else (.error (.notStarted component), g)

/-! ## How it is -/

/-- How the components are. -/
structure Status where
  /-- Whether the store answers. -/
  store : Bool
  /-- Whether the configuration is complete. -/
  config : Bool
  /-- Whether the modem is connected. -/
  modem : Bool
  /-- Whether the route is in place. -/
  route : Bool
  relay : Bool
  /-- The identity of the modem, once it is decided. -/
  identity : Option String
  stats : Option Relay.Stats
  deriving DecidableEq, Repr

/-- How the components are. The store is asked. -/
def status (g : Gateway) : Status × Gateway :=
  let (reply, store) := g.store.perform (.listKeys g.settings.configKey)
  ({ store := reply.isOk
     config := g.checkpoint.ready
     modem := g.modem.any fun modem => modem.ready
     route := g.route.ready
     relay := g.relay.any fun relay => relay.started
     identity := g.modem.bind Modem.Watched.identity
     stats := g.relay.map fun relay => relay.stats },
    { g with store })

end Gateway
end Uplink
