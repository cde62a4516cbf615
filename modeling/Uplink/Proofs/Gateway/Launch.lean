import Uplink.Proofs.Gateway.Run

/-!
# Bringing a gateway up

To bring a gateway up is to make a plan of configurations, to start the watchers of modem and route,
and to start the relay.  Where nothing works yet, the plan and the sockets are all that can fail: a
new modem is never started, and a route that is stopped can be started.  To take it down is to stop
whatever works.
-/

namespace Uplink
namespace Gateway

/-- Neither modem nor route nor relay works. -/
structure Idle (g : Gateway) : Prop where
  modem : ∀ modem, g.modem = some modem → modem.started = false
  route : g.route.started = false
  relay : g.relay = none

theorem Idle.of_same {g g' : Gateway} (h : g.Idle) (hmodem : g'.modem = g.modem)
    (hroute : g'.route = g.route) (hrelay : g'.relay = g.relay) : g'.Idle where
  modem modem hsome := h.modem modem (hmodem.symm.trans hsome)
  route := hroute ▸ h.route
  relay := hrelay.trans h.relay

/-- The configurations of the components. -/
structure Plan where
  relay : Relay.Config
  route : Route.Config
  modem : Modem.Config

/-- The fields that were handed over, and the hash as it is read then, make a plan. -/
structure Plans (g : Gateway) (fields : List (String × Json)) (plan : Plan) : Prop where
  relay : Relay.Config.ofJson? (.object fields) = some plan.relay
  read : ∃ hash, (g.store.readHash g.settings.configKey).1 = .ok hash ∧
    g.settings.routeConfig hash = .ok plan.route ∧ g.settings.modemConfig hash = .ok plan.modem

/-- The gateway after its configuration was read. -/
def reread (g : Gateway) : Gateway :=
  { g with store := (g.store.readHash g.settings.configKey).2 }

/-- The watcher of a new modem that was started. -/
def launchedModem (g : Gateway) (config : Modem.Config) : Modem.Watched :=
  (Modem.Watched.begin { Modem.Watched.of (g.lineFor config) config.signalInterval.toNat
    g.settings.watcher.interval.toNat with now := g.now }).2

/-- The gateway after modem and route were started. -/
def launched (g : Gateway) (plan : Plan) : Gateway :=
  { g with
    modem := some (g.launchedModem plan.modem)
    route := (g.route.start plan.route).2 }

section

variable {g : Gateway} {fields : List (String × Json)} {plan : Plan} {others : List Endpoint}

/-! ## Going up -/

theorem started_launchedModem (g : Gateway) (config : Modem.Config) :
    (g.launchedModem config).started = true :=
  rfl

theorem tied_launchedModem (g : Gateway) (config : Modem.Config) :
    (g.launchedModem config).Tied :=
  rfl

theorem startModem_eq (g : Gateway) (config : Modem.Config) :
    g.startModem config = (.ok (), { g with modem := some (g.launchedModem config) }) :=
  rfl

theorem startRoute_eq (h : g.route.started = false) (config : Route.Config) :
    g.startRoute config = (.ok (), { g with route := (g.route.start config).2 }) := by
  simp [startRoute, Watcher.start, h]

/-- Modem and route are started whatever the plan says, and the relay if its sockets are free. -/
theorem startAll_eq (h : g.route.started = false) (plan : Plan) :
    g.startAll plan.relay plan.route plan.modem = (g.launched plan).startRelay plan.relay := by
  have hroute := startRoute_eq (g := { g with modem := some (g.launchedModem plan.modem) }) h
    plan.route
  simp only [startAll, startModem_eq, andThen, hroute]
  rfl

theorem bringUp_of_plans (h : g.Plans fields plan) :
    g.bringUp fields = g.reread.startAll plan.relay plan.route plan.modem := by
  obtain ⟨hrelay, hash, hread, hroute, hmodem⟩ := h
  rw [bringUp, hrelay]
  simp only [hread, bind, Except.bind, pure, Except.pure, hroute, hmodem]
  rfl

/-- Without a plan nothing is done but to read. -/
theorem bringUp_of_not_plans (h : ∀ plan, ¬ g.Plans fields plan) :
    ∃ failure, g.bringUp fields = (.error failure, g) ∨
      g.bringUp fields = (.error failure, g.reread) := by
  cases hrelay : Relay.Config.ofJson? (.object fields) with
  | none => exact ⟨_, .inl (by rw [bringUp, hrelay])⟩
  | some relay =>
      rw [bringUp, hrelay]
      dsimp only
      cases hread : (g.store.readHash g.settings.configKey).1 with
      | error failure => exact ⟨failure, .inr rfl⟩
      | ok hash =>
          cases hroute : g.settings.routeConfig hash with
          | error failure =>
              simp only [bind, Except.bind, hroute]
              exact ⟨failure, .inr rfl⟩
          | ok route =>
              cases hmodem : g.settings.modemConfig hash with
              | error failure =>
                  simp only [bind, Except.bind, hroute, hmodem]
                  exact ⟨failure, .inr rfl⟩
              | ok modem => exact absurd ⟨hrelay, hash, hread, hroute, hmodem⟩ (h ⟨relay, route, modem⟩)

/-! ## Going down -/

/-- What is stopped, and that nothing else changes but the network. -/
theorem stopAll_eq (g : Gateway) :
    g.stopAll =
      { g with
        relay := none
        network := g.stopRelay.network
        modem := g.modem.map fun modem => (Watcher.stop modem).2
        route := (Watcher.stop g.route).2
        checkpoint := g.checkpoint.stop.2 } := by
  have hrelay : g.stopRelay = { g with relay := none, network := g.stopRelay.network } := by
    unfold stopRelay
    split
    · rfl
    · rename_i hnone
      rw [← hnone]
  rw [stopAll, hrelay]

theorem relay_stopAll (g : Gateway) : g.stopAll.relay = none := by
  rw [stopAll_eq]

theorem checkpoint_stopAll (g : Gateway) : g.stopAll.checkpoint = g.checkpoint.stop.2 := by
  rw [stopAll_eq]

theorem modem_stopAll (g : Gateway) :
    g.stopAll.modem = g.modem.map fun modem => (Watcher.stop modem).2 := by
  rw [stopAll_eq]

theorem route_stopAll (g : Gateway) : g.stopAll.route = (Watcher.stop g.route).2 := by
  rw [stopAll_eq]

theorem settings_stopAll (g : Gateway) : g.stopAll.settings = g.settings := by
  rw [stopAll_eq]

theorem store_stopAll (g : Gateway) : g.stopAll.store = g.store := by
  rw [stopAll_eq]

theorem transport_stopAll (g : Gateway) : g.stopAll.transport = g.transport := by
  rw [stopAll_eq]

theorem awaiting_stopAll (g : Gateway) : g.stopAll.awaiting = g.awaiting := by
  rw [stopAll_eq]

theorem network_stopAll (h : g.relay = none) : g.stopAll.network = g.network := by
  rw [stopAll_eq, stopRelay, h]

theorem started_stopAll (g : Gateway) : g.stopAll.started = false := by
  rw [started, checkpoint_stopAll]
  cases hstarted : g.checkpoint.started with
  | true => rw [Checkpoint.stop_of_started hstarted]
  | false => rwa [Checkpoint.stop_of_not_started hstarted]

theorem idle_stopAll (g : Gateway) : g.stopAll.Idle where
  modem modem hmodem := by
    rw [modem_stopAll] at hmodem
    obtain ⟨before, -, rfl⟩ := Option.map_eq_some_iff.mp hmodem
    exact Watcher.started_stop before
  route := by
    rw [route_stopAll]
    exact Watcher.started_stop g.route
  relay := relay_stopAll g

theorem bound_stopAll (hrelay : ∀ relay, g.relay = some relay → relay.started = true)
    (h : g.network.bound.Perm (g.endpoints ++ others)) :
    g.stopAll.network.bound.Perm others := by
  rw [stopAll_eq]
  unfold stopRelay
  unfold endpoints at h
  dsimp only
  split
  · rename_i relay hsome
    rw [hsome] at h
    exact Relay.bound_of_stop (hrelay relay hsome) h
  · rename_i hnone
    rw [hnone] at h
    exact h

/-! ## The end of a start -/

/-- The gateway at the end of a start that failed. -/
def withdrawn (g : Gateway) (failure : Failure) : Gateway :=
  { g.stopAll with awaiting := false, outcome := some (.error failure) }

theorem conclude_of_error {g' : Gateway} {failure : Failure}
    (h : g.bringUp fields = (.error failure, g')) : g.conclude fields = g'.withdrawn failure := by
  rw [conclude, h]
  rfl

theorem conclude_of_start {relay : Relay} {network : Network} (hidle : g.Idle)
    (hplan : g.Plans fields plan)
    (hstart : Relay.start g.network g.settings.relay plan.relay = .ok (relay, network)) :
    g.conclude fields =
      { g.reread.launched plan with
        relay := some relay, network, awaiting := false, outcome := some (.ok ()) } := by
  have hbring : g.bringUp fields =
      (.ok (), { g.reread.launched plan with relay := some relay, network }) := by
    rw [bringUp_of_plans hplan, startAll_eq (g := g.reread) hidle.route, startRelay]
    have hstart' : Relay.start (g.reread.launched plan).network
        (g.reread.launched plan).settings.relay plan.relay = .ok (relay, network) := hstart
    rw [hstart']
  rw [conclude, hbring]

theorem conclude_of_start_error {failure : Failure} (hidle : g.Idle) (hplan : g.Plans fields plan)
    (hstart : Relay.start g.network g.settings.relay plan.relay = .error failure) :
    g.conclude fields = (g.reread.launched plan).withdrawn failure := by
  apply conclude_of_error
  rw [bringUp_of_plans hplan, startAll_eq (g := g.reread) hidle.route, startRelay]
  have hstart' : Relay.start (g.reread.launched plan).network
      (g.reread.launched plan).settings.relay plan.relay = .error failure := hstart
  rw [hstart']

/-- A start that waited ends well if the fields and the hash make a plan and the sockets of the relay
can be bound. -/
def Launches (g : Gateway) (fields : List (String × Json)) : Prop :=
  ∃ plan relay network, g.Plans fields plan ∧
    Relay.start g.network g.settings.relay plan.relay = .ok (relay, network)

/-- A start that does not end well takes down what it has brought up. -/
theorem conclude_of_not_launches (hidle : g.Idle) (h : ¬ g.Launches fields) :
    ∃ failure before, g.conclude fields = before.withdrawn failure ∧
      (before = g ∨ before = g.reread ∨
        ∃ plan, g.Plans fields plan ∧ before = g.reread.launched plan) := by
  by_cases hplans : ∃ plan, g.Plans fields plan
  · obtain ⟨plan, hplan⟩ := hplans
    cases hstart : Relay.start g.network g.settings.relay plan.relay with
    | ok started => exact absurd ⟨plan, started.1, started.2, hplan, hstart⟩ h
    | error failure =>
        exact ⟨failure, _, conclude_of_start_error hidle hplan hstart, .inr (.inr ⟨plan, hplan, rfl⟩)⟩
  · obtain ⟨failure, hbring | hbring⟩ := bringUp_of_not_plans (not_exists.mp hplans)
    · exact ⟨failure, g, conclude_of_error hbring, .inl rfl⟩
    · exact ⟨failure, _, conclude_of_error hbring, .inr (.inl rfl)⟩

end
end Gateway
end Uplink
