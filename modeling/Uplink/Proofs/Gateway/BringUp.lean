import Uplink.Proofs.Checkpoint.Flags
import Uplink.Proofs.Gateway.Launch

/-!
# All or nothing

Whether a gateway is started is told by its checkpoint alone.  This module shows that the checkpoint
tells the truth: a gateway that is not started has nothing that works, and a start that has waited for
the configuration ends with everything at work or with nothing.
-/

namespace Uplink
namespace Gateway

/-- The flags of the components agree with what they do; the relay has its sockets open, and no
others of the gateway are open. -/
structure Coherent (s : Scene) : Prop where
  gate : s.gateway.checkpoint.Honest
  modem : ∀ modem, s.gateway.modem = some modem → modem.Tied
  route : s.gateway.route.Tied
  relay : ∀ relay, s.gateway.relay = some relay → relay.started = true
  sockets : s.gateway.network.bound.Perm (s.gateway.endpoints ++ s.others)

/-- What is so of a gateway whatever has happened: beside the checkpoint nothing works unless the
gateway is started and no start waits. -/
structure Sound (s : Scene) : Prop extends Coherent s where
  awaiting : s.gateway.awaiting = true → s.gateway.started = true
  idle : s.gateway.started = false ∨ s.gateway.awaiting = true → s.gateway.Idle

section

variable {s first last next : Scene} {g : Gateway} {label : Label} {moments : List Moment}
  {fields : List (String × Json)}

/-- A gateway that was never started has neither modem nor relay. -/
theorem Fresh.sound (h : Fresh s) : Sound s := by
  cases h with
  | of settings store shell network transport =>
      have hmodem : (Gateway.of settings store shell network transport).modem = none := rfl
      have hrelay : (Gateway.of settings store shell network transport).relay = none := rfl
      have hroute : (Gateway.of settings store shell network transport).route.started = false := rfl
      constructor
      · constructor
        · exact (Checkpoint.fresh_ofTemplate settings.configKey Relay.Config.template
            settings.checkpoint.interval.toNat).honest
        · intro modem hsome
          cases hmodem.symm.trans hsome
        · rfl
        · intro relay hsome
          cases hrelay.symm.trans hsome
        · exact .refl _
      · intro hawaiting
        cases hawaiting
      · intro _
        refine ⟨fun modem hsome => ?_, hroute, hrelay⟩
        cases hmodem.symm.trans hsome

/-! ## Changes of one component -/

/-- A change that concerns no component but the checkpoint. -/
theorem Sound.withGate (h : Sound s) {store : Store} {checkpoint : Checkpoint} {awaiting : Bool}
    {outcome : Option (Except Failure Unit)} (hgate : checkpoint.Honest)
    (hawaiting : awaiting = true → checkpoint.started = true)
    (hidle : checkpoint.started = false ∨ awaiting = true → s.gateway.Idle) :
    Sound (s.withGateway { s.gateway with store, checkpoint, awaiting, outcome }) where
  gate := hgate
  modem := h.modem
  route := h.route
  relay := h.relay
  sockets := h.sockets
  awaiting := hawaiting
  idle hdown := (hidle hdown).of_same rfl rfl rfl

/-- A change of the watcher of the modem that neither starts nor stops it. -/
theorem Sound.withModem (h : Sound s) {before modem : Modem.Watched}
    (hbefore : s.gateway.modem = some before) (htied : modem.Tied)
    (hstarted : modem.started = before.started) :
    Sound (s.withGateway { s.gateway with modem := some modem }) where
  gate := h.gate
  modem _ hsome := Option.some.inj hsome ▸ htied
  route := h.route
  relay := h.relay
  sockets := h.sockets
  awaiting := h.awaiting
  idle hdown := by
    have hidle := h.idle hdown
    refine ⟨?_, hidle.route, hidle.relay⟩
    rintro _ ⟨⟩
    exact hstarted.trans (hidle.modem before hbefore)

/-- A change of the watcher of the route that neither starts nor stops it. -/
theorem Sound.withRoute (h : Sound s) {route : Route.Watched} (htied : route.Tied)
    (hstarted : route.started = s.gateway.route.started) :
    Sound (s.withGateway { s.gateway with route }) where
  gate := h.gate
  modem := h.modem
  route := htied
  relay := h.relay
  sockets := h.sockets
  awaiting := h.awaiting
  idle hdown := ⟨(h.idle hdown).modem, hstarted.trans (h.idle hdown).route, (h.idle hdown).relay⟩

/-- A change of the relay that leaves its sockets as they are. -/
theorem Sound.withRelay (h : Sound s) {store : Store} {before relay : Relay}
    (hbefore : s.gateway.relay = some before) (hsame : Relay.SameSockets before relay) :
    Sound (s.withGateway { s.gateway with store, relay := some relay }) where
  gate := h.gate
  modem := h.modem
  route := h.route
  relay _ hsome := by
    rw [← Option.some.inj hsome, hsame.started]
    exact h.relay before hbefore
  sockets := by
    have hendpoints : Gateway.endpoints { s.gateway with store, relay := some relay } =
        s.gateway.endpoints := by
      simp only [Gateway.endpoints, hbefore, Option.map_some, hsame.endpoints]
    exact hendpoints ▸ h.sockets
  awaiting := h.awaiting
  idle hdown := by
    have hnone := (h.idle hdown).relay
    rw [hbefore] at hnone
    cases hnone

/-- A change of the transport to the modem. -/
theorem Sound.withLine (h : Sound s) (line : Transport) :
    Sound (s.withGateway (s.gateway.withLine line)) := by
  unfold Gateway.withLine
  split
  · rename_i modem hmodem
    exact h.withModem hmodem (h.modem modem hmodem) rfl
  · exact ⟨⟨h.gate, h.modem, h.route, h.relay, h.sockets⟩, h.awaiting,
      fun hdown => (h.idle hdown).of_same rfl rfl rfl⟩

/-! ## Calls of the owner -/

theorem Sound.start (h : Sound s) :
    Sound (s.withGateway s.gateway.start) := by
  have hgate := Checkpoint.honest_start h.gate
  unfold Gateway.start
  split
  · exact h.withGate h.gate h.awaiting h.idle
  · rename_i hstopped
    have hdown := h.idle (.inl (eq_false_of_ne_true hstopped))
    have hstart := Checkpoint.start_of_not_started (eq_false_of_ne_true hstopped)
    rw [hstart] at hgate ⊢
    exact h.withGate hgate (fun _ => rfl) fun _ => hdown

theorem Sound.abandonStart (h : Sound s) (hawaiting : s.gateway.awaiting = true) :
    Sound (s.withGateway s.gateway.abandonStart) :=
  h.withGate (Checkpoint.honest_deafen h.gate) nofun fun _ => h.idle (.inr hawaiting)

/-- Whatever was started, it can be stopped. -/
theorem Coherent.withdrawn (h : Coherent s) (outcome : Option (Except Failure Unit)) :
    Sound (s.withGateway { s.gateway.stopAll with awaiting := false, outcome }) where
  gate := by
    have hcheckpoint := checkpoint_stopAll s.gateway
    exact hcheckpoint ▸ Checkpoint.honest_stop h.gate
  modem modem hmodem := by
    obtain ⟨before, hbefore, rfl⟩ :=
      Option.map_eq_some_iff.mp ((modem_stopAll s.gateway).symm.trans hmodem)
    exact Watcher.tied_stop (h.modem before hbefore)
  route := by
    have hroute := route_stopAll s.gateway
    exact hroute ▸ Watcher.tied_stop h.route
  relay relay hrelay := by
    cases (relay_stopAll s.gateway).symm.trans hrelay
  sockets := by
    have hendpoints : Gateway.endpoints { s.gateway.stopAll with awaiting := false, outcome } = [] := by
      simp only [Gateway.endpoints, relay_stopAll, Option.map_none, Option.getD_none]
    exact hendpoints ▸ bound_stopAll h.relay h.sockets
  awaiting := nofun
  idle _ := (idle_stopAll s.gateway).of_same rfl rfl rfl

theorem Sound.shutdown (h : Sound s) (hfree : s.gateway.awaiting = false) :
    Sound (s.withGateway s.gateway.shutdown.2) := by
  unfold Gateway.shutdown
  split
  · have hwithdrawn := h.toCoherent.withdrawn s.gateway.stopAll.outcome
    rw [← hfree, ← awaiting_stopAll] at hwithdrawn
    exact hwithdrawn
  · exact h

/-! ## The end of a start -/

/-- Everything works. -/
structure Up (s : Scene) : Prop where
  started : s.gateway.started = true
  ready : s.gateway.checkpoint.ready = true
  modem : ∃ modem, s.gateway.modem = some modem ∧ modem.started = true
  route : s.gateway.route.started = true
  relay : ∃ relay, s.gateway.relay = some relay ∧ relay.started = true ∧
    s.gateway.network.bound.Perm (relay.endpoints ++ s.others)

theorem bound_of_no_relay (h : Coherent s) (hrelay : s.gateway.relay = none) :
    s.gateway.network.bound.Perm s.others := by
  have hsockets := h.sockets
  rw [endpoints, hrelay] at hsockets
  exact hsockets

/-- A start that launches ends with everything at work. -/
theorem Sound.conclude_up (h : Sound s) (hawaiting : s.gateway.awaiting = true)
    (htold : .ready fields ∈ s.gateway.checkpoint.events) (hlaunches : s.gateway.Launches fields) :
    Sound (s.withGateway (s.gateway.conclude fields)) ∧
      Up (s.withGateway (s.gateway.conclude fields)) ∧
      (s.gateway.conclude fields).outcome = some (.ok ()) := by
  obtain ⟨plan, relay, network, hplan, hstart⟩ := hlaunches
  have hidle := h.idle (.inr hawaiting)
  have hstarted := h.awaiting hawaiting
  have hroute : (s.gateway.route.start plan.route).2.started = true := by
    rw [Watcher.start, hidle.route]
    rfl
  have hrelay : relay.started = true := by
    rw [(Relay.start_eq_ok hstart).1]
  have hsockets : network.bound.Perm (relay.endpoints ++ s.others) :=
    (Relay.bound_of_start hstart).trans
      ((bound_of_no_relay h.toCoherent hidle.relay).append_left relay.endpoints)
  rw [conclude_of_start hidle hplan hstart]
  refine ⟨⟨⟨h.gate, ?_, Watcher.tied_start h.route _, ?_, hsockets⟩, ?_, ?_⟩, ?_, rfl⟩
  · rintro _ ⟨⟩
    exact tied_launchedModem s.gateway plan.modem
  · rintro _ ⟨⟩
    exact hrelay
  · intro hwaits
    cases hwaits
  · rintro (hstopped | hwaits)
    · cases hstarted.symm.trans hstopped
    · cases hwaits
  · exact ⟨hstarted, h.gate.told hstarted fields htold,
      ⟨_, rfl, started_launchedModem s.gateway plan.modem⟩, hroute, relay, rfl, hrelay, hsockets⟩

/-- Any other start ends with a failure, and everything that it has started is stopped. -/
theorem Sound.conclude_down (h : Sound s) (hawaiting : s.gateway.awaiting = true)
    (hlaunches : ¬ s.gateway.Launches fields) :
    Sound (s.withGateway (s.gateway.conclude fields)) ∧
      (s.gateway.conclude fields).started = false ∧
      ∃ failure, (s.gateway.conclude fields).outcome = some (.error failure) := by
  have hidle := h.idle (.inr hawaiting)
  obtain ⟨failure, before, hconclude, hbefore⟩ := conclude_of_not_launches hidle hlaunches
  -- With a plan, modem and route are started while the start still waits.  That is not sound, but
  -- coherent, and all that is needed to stop them.
  have hcoherent : Coherent (s.withGateway before) := by
    rcases hbefore with rfl | rfl | ⟨plan, -, rfl⟩
    · exact h.toCoherent
    · exact ⟨h.gate, h.modem, h.route, h.relay, h.sockets⟩
    · refine ⟨h.gate, ?_, Watcher.tied_start h.route _, h.relay, h.sockets⟩
      rintro _ ⟨⟩
      exact tied_launchedModem s.gateway.reread plan.modem
  rw [hconclude]
  exact ⟨hcoherent.withdrawn _, started_stopAll before, failure, rfl⟩

/-! ## All runs -/

theorem Step.sound (hstep : Step s label next) (h : Sound s) : Sound next := by
  cases hstep with
  | start _ => exact h.start
  | abandon hawaiting => exact h.abandonStart hawaiting
  | @conclude fields earlier hawaiting hevents =>
      by_cases hlaunches : s.gateway.Launches fields
      · have htold : .ready fields ∈ s.gateway.checkpoint.events := by
          rw [hevents]
          exact List.mem_cons_self
        exact (h.conclude_up hawaiting htold hlaunches).1
      · exact (h.conclude_down hawaiting hlaunches).1
  | shutdown hfree => exact h.shutdown hfree
  | gate hgate hown =>
      have hstarted := hgate.started_eq hown
      refine h.withGate (hgate.honest h.gate) ?_ ?_
      · rw [hstarted]
        exact h.awaiting
      · rw [hstarted]
        exact h.idle
  | modem hsome hmodem hown =>
      have htied := h.modem _ hsome
      exact h.withModem hsome (hmodem.tied hown htied) (hmodem.started_eq hown htied).2
  | route hroute hown =>
      exact h.withRoute (hroute.tied hown h.route) (hroute.started_eq hown h.route).2
  | @relay relay step clock hsome hown =>
      have hsame := @Relay.Scene.sameSockets_next
        ⟨relay, s.gateway.store, s.gateway.network, clock⟩ step hown
      exact h.withRelay hsome hsame
  | shell => exact h.withRoute h.route rfl
  | line => exact h.withLine _
  | network hbound =>
      exact ⟨⟨h.gate, h.modem, h.route, h.relay, hbound⟩, h.awaiting,
        fun hdown => (h.idle hdown).of_same rfl rfl rfl⟩
  | time | store =>
      exact ⟨⟨h.gate, h.modem, h.route, h.relay, h.sockets⟩, h.awaiting,
        fun hdown => (h.idle hdown).of_same rfl rfl rfl⟩

theorem Run.sound (hrun : Run first moments last) (hfresh : Fresh first) : Sound last := by
  induction hrun with
  | nil => exact hfresh.sound
  | snoc _ hstep ih => exact hstep.sound ih

/-! ## What the owner sees -/

/-- Nothing works, nothing is reported to work, no socket is left, and a start is accepted, not a
shutdown. -/
structure Down (s : Scene) : Prop where
  started : s.gateway.checkpoint.started = false
  idle : s.gateway.Idle
  sockets : s.gateway.network.bound.Perm s.others
  config : s.gateway.status.1.config = false
  modem : s.gateway.status.1.modem = false
  route : s.gateway.status.1.route = false
  relay : s.gateway.status.1.relay = false
  shutdown : s.gateway.shutdown = (.error (.notStarted component), s.gateway)
  start : s.gateway.start.started = true ∧ s.gateway.start.awaiting = true ∧
    s.gateway.start.outcome = none

theorem Sound.down (h : Sound s) (hstopped : s.gateway.started = false) : Down s := by
  have hidle := h.idle (.inl hstopped)
  have hstart : s.gateway.start =
      { s.gateway with
        checkpoint := s.gateway.checkpoint.start.2, awaiting := true, outcome := none } := by
    rw [Gateway.start, hstopped, Checkpoint.start_of_not_started hstopped]
    rfl
  constructor
  · exact hstopped
  · exact hidle
  · exact bound_of_no_relay h.toCoherent hidle.relay
  · by_contra hready
    have hstarted := h.gate.ready (eq_true_of_ne_false hready)
    cases hstarted.symm.trans hstopped
  · show (s.gateway.modem.any fun modem => modem.ready) = false
    cases hmodem : s.gateway.modem with
    | none => rfl
    | some modem => exact Watcher.ready_eq_false (hidle.modem modem hmodem)
  · exact Watcher.ready_eq_false hidle.route
  · show (s.gateway.relay.any fun relay => relay.started) = false
    rw [hidle.relay]
    rfl
  · rw [Gateway.shutdown, hstopped]
    rfl
  · rw [hstart]
    refine ⟨?_, rfl, rfl⟩
    rw [started, Checkpoint.start_of_not_started hstopped]

/-- Whatever was done to a gateway, by its owner and by others, and wherever the store and the network
failed: if it is not started then it is all down, and it is so after every start that failed and
after every shutdown.  A start that waited ends well just if it launches, and then everything works.
While the gateway is started another start is refused, and changes nothing but its own outcome. -/
theorem Run.all_or_nothing (hfresh : Fresh first) (hrun : Run first moments last) :
    (last.gateway.started = false → Down last) ∧
    (last.gateway.started = true →
      last.gateway.start =
          { last.gateway with outcome := some (.error (.alreadyStarted component)) } ∧
        (last.gateway.awaiting = false → last.gateway.shutdown.1 = .ok () ∧
          Down (last.withGateway last.gateway.shutdown.2))) ∧
    ∀ fields earlier, last.gateway.awaiting = true →
      last.gateway.checkpoint.events = .ready fields :: earlier →
        (last.gateway.Launches fields →
          (last.gateway.conclude fields).outcome = some (.ok ()) ∧
            Up (last.withGateway (last.gateway.conclude fields))) ∧
        (¬ last.gateway.Launches fields →
          (∃ failure, (last.gateway.conclude fields).outcome = some (.error failure)) ∧
            Down (last.withGateway (last.gateway.conclude fields))) := by
  have hsound := hrun.sound hfresh
  refine ⟨hsound.down, ?_, ?_⟩
  · intro hstarted
    refine ⟨by rw [Gateway.start, if_pos hstarted], fun hfree => ?_⟩
    have hshutdown : last.gateway.shutdown = (.ok (), last.gateway.stopAll) := by
      rw [Gateway.shutdown, if_pos hstarted]
    have hafter := hsound.shutdown hfree
    rw [hshutdown] at hafter ⊢
    exact ⟨rfl, hafter.down (started_stopAll last.gateway)⟩
  · intro fields earlier hawaiting hevents
    constructor
    · intro hlaunches
      have htold : .ready fields ∈ last.gateway.checkpoint.events := by
        rw [hevents]
        exact List.mem_cons_self
      obtain ⟨-, hup, houtcome⟩ := hsound.conclude_up hawaiting htold hlaunches
      exact ⟨houtcome, hup⟩
    · intro hlaunches
      obtain ⟨hafter, hstopped, hfailure⟩ := hsound.conclude_down hawaiting hlaunches
      exact ⟨hfailure, hafter.down hstopped⟩

end

/-! ## A start that fails at the last socket -/

/-- A hash with everything that a relay needs. -/
def fullHash : List (String × String) :=
  [("gateway:imei", "490154203237518"),
    ("gateway:private-host", "10.0.0.1"), ("gateway:private-port", "5000"),
    ("gateway:public-host", "10.0.0.2"), ("gateway:public-port", "5001")]

/-- What a relay is made from. -/
def fullConfig : Relay.Config where
  privateHost := "10.0.0.1"
  privatePort := 5000
  publicHost := "10.0.0.2"
  publicPort := 5001
  identity := some "490154203237518"

/-- The fields that are handed over. -/
def fullFields : List (String × Json) :=
  ((Relay.Config.template.toConfig (Keyed.ofList fullHash)).toOption).getD []

theorem ofJson?_fullFields : Relay.Config.ofJson? (.object fullFields) = some fullConfig :=
  rfl

/-- Where the public path accepts datagrams. -/
def publicEndpoint : Endpoint :=
  ⟨.unspecified, 4001⟩

/-- A gateway whose public port is taken by somebody else. -/
def busyScene : Scene where
  gateway := .of {} (Store.seed {} Store.configKey fullHash) {}
    { Network.isolated with bound := [publicEndpoint] } none
  others := [publicEndpoint]

/-- The scene after a look of the checkpoint. -/
def Scene.looked (s : Scene) : Scene :=
  s.withGateway
    { s.gateway with
      store := (Checkpoint.look s.gateway.store s.gateway.checkpoint).1
      checkpoint := (Checkpoint.look s.gateway.store s.gateway.checkpoint).2 }

theorem Step.looked {s : Scene} (h : s.gateway.checkpoint.stage = some .looking) :
    Step s (.gate .look) s.looked :=
  .gate (.look h) trivial

/-- The gateway waits for the configuration. -/
def waitingScene : Scene :=
  busyScene.withGateway busyScene.gateway.start

theorem run_busyScene :
    Run busyScene
      [⟨busyScene, .start, waitingScene⟩, ⟨waitingScene, .gate .look, waitingScene.looked⟩]
      waitingScene.looked := by
  have hstart : Step busyScene .start waitingScene := .start rfl
  exact (Run.single hstart).snoc (.looked rfl)

theorem not_launches_busy : ¬ waitingScene.looked.gateway.Launches fullFields := by
  rintro ⟨plan, relay, network, hplan, hstart⟩
  have hconfig : plan.relay = fullConfig :=
    Option.some.inj (hplan.relay.symm.trans ofJson?_fullFields)
  have hbusy : Relay.start waitingScene.looked.gateway.network
      waitingScene.looked.gateway.settings.relay fullConfig =
        .error (.io ("bind public socket to " ++ publicEndpoint.describe) none) := rfl
  rw [hconfig, hbusy] at hstart
  cases hstart

/-- Modem and route are started and two sockets are bound when the third one fails. -/
theorem Run.all_or_nothing_busy :
    (∃ failure, (waitingScene.looked.gateway.conclude fullFields).outcome = some (.error failure)) ∧
      Down (waitingScene.looked.withGateway
        (waitingScene.looked.gateway.conclude fullFields)) := by
  have hfresh : Fresh busyScene := .of _ _ _ _ _
  obtain ⟨-, -, hend⟩ := run_busyScene.all_or_nothing hfresh
  exact (hend fullFields [] rfl rfl).2 not_launches_busy

end Gateway
end Uplink
