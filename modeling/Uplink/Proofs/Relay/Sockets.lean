import Mathlib.Data.List.Perm.Basic
import Uplink.Proofs.Relay.Announcement

/-!
# The sockets of a relay

A relay that is started has bound its sockets beside those of others, and when it is stopped just
those of others are left; meanwhile nothing that it is asked concerns its sockets.  Which sockets are
bound is told by a list in which the order does not matter.
-/

namespace Uplink

namespace Network

variable {network network' : Network} {name : String} {endpoint : Endpoint}
  {sockets : List (String × Endpoint)} {others : List Endpoint}

theorem bound_of_bind (h : network.bind name endpoint = .ok network') :
    network'.bound = endpoint :: network.bound := by
  unfold bind at h
  split at h
  · cases h
    rfl
  · cases h

/-- Sockets that are bound one after the other are there beside the others. -/
theorem bound_of_bindAll
    (h : sockets.foldlM (fun (network : Network) socket => network.bind socket.1 socket.2) network =
      .ok network') :
    network'.bound.Perm (sockets.map Prod.snd ++ network.bound) := by
  induction sockets generalizing network with
  | nil =>
      cases h
      exact .refl _
  | cons socket sockets ih =>
      rw [List.foldlM_cons] at h
      cases hbind : network.bind socket.1 socket.2 with
      | error failure =>
          rw [hbind] at h
          cases h
      | ok bound =>
          rw [hbind] at h
          have hrest := ih h
          rw [bound_of_bind hbind] at hrest
          exact hrest.trans List.perm_middle

/-- Once sockets are closed, the others are left. -/
theorem bound_of_releaseAll
    (h : network.bound.Perm (sockets.map Prod.snd ++ others)) :
    (sockets.foldl (fun (network : Network) socket => network.release socket.2)
      network).bound.Perm others := by
  induction sockets generalizing network with
  | nil => exact h
  | cons socket sockets ih =>
      have herase : (network.release socket.2).bound.Perm (sockets.map Prod.snd ++ others) := by
        simpa [release] using h.erase socket.2
      exact ih herase

end Network

namespace Relay

/-- Where the sockets of a relay are bound. -/
def endpoints (relay : Relay) : List Endpoint :=
  (sockets relay.address relay.config).map Prod.snd

variable {network network' : Network} {binding : Binding} {config : Config} {relay : Relay}
  {others : List Endpoint}

theorem bound_of_start (h : Relay.start network binding config = .ok (relay, network')) :
    network'.bound.Perm (relay.endpoints ++ network.bound) := by
  obtain ⟨rfl, hbind⟩ := start_eq_ok h
  exact Network.bound_of_bindAll hbind

theorem bound_of_stop (hstarted : relay.started = true)
    (h : network.bound.Perm (relay.endpoints ++ others)) :
    (Relay.stop network relay).2.bound.Perm others := by
  rw [stop, if_pos hstarted]
  exact Network.bound_of_releaseAll h

/-! ## While the relay works -/

/-- The sockets stay as they are. -/
structure SameSockets (before after : Relay) : Prop where
  started : after.started = before.started
  address : after.address = before.address
  config : after.config = before.config

theorem SameSockets.endpoints {before after : Relay} (h : SameSockets before after) :
    after.endpoints = before.endpoints := by
  rw [Relay.endpoints, Relay.endpoints, h.address, h.config]

theorem sameSockets_receive (store : Store) (relay : Relay) (data : List UInt8) :
    SameSockets relay (receive store relay data).2 := by
  cases hstarted : relay.started with
  | true =>
      rw [receive_relay hstarted]
      exact ⟨rfl, rfl, rfl⟩
  | false =>
      rw [receive_of_stopped hstarted]
      exact ⟨rfl, rfl, rfl⟩

theorem sameSockets_forward (network : Network) (clock : ℕ) (store : Store) (relay : Relay)
    (path : Path) (data : List UInt8) :
    SameSockets relay (forward network clock store relay path data).2.2 := by
  unfold forward
  split
  · dsimp only
    split <;> exact ⟨rfl, rfl, rfl⟩
  · exact ⟨rfl, rfl, rfl⟩

/-- What comes in on the sockets of a relay, and what is asked of it while it is not stopped. -/
def Step.IsOwn : Step → Prop
  | .datagram _ | .forward _ _ | .sendPrimary _ | .ignoreAck _ => True
  | _ => False

/-- Only to stop a relay concerns its sockets. -/
theorem Scene.sameSockets_next {scene : Scene} {step : Step} (h : step.IsOwn) :
    SameSockets scene.relay (scene.next step).relay := by
  cases step with
  | datagram data => exact sameSockets_receive ..
  | forward path data => exact sameSockets_forward ..
  | sendPrimary data => exact sameSockets_forward ..
  | ignoreAck => exact ⟨rfl, rfl, rfl⟩
  | stop | call | failure | network | clock => exact h.elim

end Relay
end Uplink
