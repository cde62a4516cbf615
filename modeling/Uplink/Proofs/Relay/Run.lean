import Uplink.Proofs.Store.Frame
import Uplink.Relay.Traffic

/-!
# Runs of a relay

A relay works with a store, a network and a clock that it does not own.  A run is any row of steps:
what comes in on its sockets, what is asked of it, and what its surroundings do meanwhile, the store
being used by others and failing at any time.
-/

namespace Uplink
namespace Relay

/-- A relay and its surroundings. -/
structure Scene where
  relay : Relay
  store : Store
  network : Network
  clock : ℕ

/-- What may happen next: what comes in on the sockets (`datagram`, which is read from outside, and
`forward`, which arrives on the socket of a path), what is asked of the relay, and what its surroundings
do. -/
inductive Step where
  | datagram (data : List UInt8)
  | forward (path : Path) (data : List UInt8)
  | sendPrimary (data : List UInt8)
  | ignoreAck (sequence : UInt16)
  | stop
  | call (call : Store.Call)
  | failure (reason : Option String)
  | network (network : Network)
  | clock (time : ℕ)

namespace Scene

/-- The scene after a step. -/
def next (scene : Scene) : Step → Scene
  | .datagram data =>
    let (store, relay) := receive scene.store scene.relay data
    { scene with store, relay }
  | .forward path data =>
    let (_, store, relay) :=
      Relay.arrive scene.network scene.clock scene.store scene.relay path data
    { scene with store, relay }
  | .sendPrimary data =>
    let (_, store, relay) :=
      Relay.sendPrimary scene.network scene.clock scene.store scene.relay data
    { scene with store, relay }
  | .ignoreAck sequence => { scene with relay := scene.relay.ignoreAck sequence }
  | .stop =>
    let (relay, network) := Relay.stop scene.network scene.relay
    { scene with relay, network }
  | .call call => { scene with store := (scene.store.perform call).2 }
  | .failure reason => { scene with store := { scene.store with failure := reason } }
  | .network network => { scene with network }
  | .clock time => { scene with clock := time }

/-- The scene after a run. -/
def run (scene : Scene) (steps : List Step) : Scene :=
  steps.foldl next scene

@[simp]
theorem run_nil (scene : Scene) : scene.run [] = scene :=
  rfl

@[simp]
theorem run_cons (scene : Scene) (step : Step) (steps : List Step) :
    scene.run (step :: steps) = (scene.next step).run steps :=
  rfl

theorem run_append (scene : Scene) (steps steps' : List Step) :
    scene.run (steps ++ steps') = (scene.run steps).run steps' :=
  List.foldl_append

end Scene

/-- A relay that was started is fresh, and its sockets are bound one after the other. -/
theorem start_eq_ok {network network' : Network} {binding : Binding} {config : Config}
    {relay : Relay} (h : Relay.start network binding config = .ok (relay, network')) :
    relay = { config, address := binding.address } ∧
      (sockets binding.address config).foldlM
        (fun (network : Network) socket => network.bind socket.1 socket.2) network =
          .ok network' := by
  unfold start at h
  cases hbind : (sockets binding.address config).foldlM
      (fun (network : Network) socket => network.bind socket.1 socket.2) network with
  | error failure =>
      rw [hbind] at h
      cases h
  | ok bound =>
      rw [hbind] at h
      cases h
      exact ⟨rfl, rfl⟩

/-! ## A datagram from outside -/

section

variable {store : Store} {relay : Relay} {data : List UInt8} {message : Wire.Message}

theorem receive_of_started (h : relay.started = true) :
    receive store relay data =
      ((interpret store relay data).2.1,
        { (interpret store relay data).2.2 with
          stats := (interpret store relay data).2.2.stats.countReceived.countOutcome
            (interpret store relay data).1 }.publish
          (.inbound (interpret store relay data).1)) := by
  rw [receive, if_pos h]

/-- A message for the field device is put into the queue of commands. -/
theorem interpret_command (hdecode : Wire.Message.decode data = .ok message)
    (htype : message.type = Wire.mobileTerminatedEvent) :
    interpret store relay data =
      (.command, (store.push Store.commandQueue message.toStorage).2, relay) := by
  rw [interpret, hdecode]
  exact if_pos htype

/-- An acknowledgement that was announced uses the announcement up. -/
theorem interpret_ack_of_hint (hdecode : Wire.Message.decode data = .ok message)
    (htype : message.type = Wire.mobileTerminatedAck)
    (hhint : relay.hint = some message.sequence) :
    interpret store relay data =
      (.ignoreAck message.sequence, store, { relay with hint := none }) := by
  have hne : message.type ≠ Wire.mobileTerminatedEvent := by
    rw [htype]
    decide
  simp only [interpret, hdecode, dispatch]
  rw [if_neg hne, if_pos htype, if_pos hhint]

/-- The number of any other acknowledgement is put into the queue of acknowledgements. -/
theorem interpret_ack (hdecode : Wire.Message.decode data = .ok message)
    (htype : message.type = Wire.mobileTerminatedAck)
    (hhint : relay.hint ≠ some message.sequence) :
    interpret store relay data =
      (.relayAck message.sequence,
        (store.push Store.ackQueue (toString message.sequence.toNat)).2, relay) := by
  have hne : message.type ≠ Wire.mobileTerminatedEvent := by
    rw [htype]
    decide
  simp only [interpret, hdecode, dispatch]
  rw [if_neg hne, if_pos htype, if_neg hhint]

/-- Any other datagram changes neither the store nor the relay. -/
theorem interpret_other (h : ∀ message, Wire.Message.decode data = .ok message →
      message.type ≠ Wire.mobileTerminatedEvent ∧ message.type ≠ Wire.mobileTerminatedAck) :
    (interpret store relay data).2 = (store, relay) := by
  unfold interpret
  split
  · rename_i message hdecode
    obtain ⟨hevent, hack⟩ := h message hdecode
    simp only [dispatch]
    rw [if_neg hevent, if_neg hack]
  · rfl
  · rfl

/-- A datagram is a message for the field device, an acknowledgement or neither. -/
theorem datagram_cases (data : List UInt8) :
    (∃ message, Wire.Message.decode data = .ok message ∧
      message.type = Wire.mobileTerminatedEvent) ∨
    (∃ message, Wire.Message.decode data = .ok message ∧
      message.type = Wire.mobileTerminatedAck) ∨
    ∀ message, Wire.Message.decode data = .ok message →
      message.type ≠ Wire.mobileTerminatedEvent ∧ message.type ≠ Wire.mobileTerminatedAck := by
  by_cases hevent : ∃ message, Wire.Message.decode data = .ok message ∧
      message.type = Wire.mobileTerminatedEvent
  · exact .inl hevent
  · by_cases hack : ∃ message, Wire.Message.decode data = .ok message ∧
        message.type = Wire.mobileTerminatedAck
    · exact .inr (.inl hack)
    · refine .inr (.inr ?_)
      intro message hdecode
      exact ⟨fun htype => hevent ⟨message, hdecode, htype⟩,
        fun htype => hack ⟨message, hdecode, htype⟩⟩

end
end Relay
end Uplink
