import Uplink.Proofs.Relay.Queues

/-!
# Announced acknowledgements

An announcement holds from the moment it is made until its number is acknowledged or another
announcement is made, whatever else happens to the relay meanwhile.  The acknowledgement it was made
for is then dropped; every other one is put into the queue.

The announcement of a relay at work is therefore a function of the steps so far, and it is enough to
say what each step does to it.  A datagram is one step, although the store may take its time over it:
what is announced is looked at before the store is called, and not again afterwards.
-/

namespace Uplink
namespace Relay

/-! ## What is announced -/

/-- The step puts an end to an announcement of the number: it acknowledges the number, or announces
one anew. -/
def Step.Settles (sequence : UInt16) : Step → Prop
  | .ignoreAck _ => True
  | .datagram data => acknowledged? data = some sequence
  | _ => False

/-- The last announcement was of the number, which was not acknowledged since. -/
def Announced (sequence : UInt16) (steps : List Step) : Prop :=
  ∃ before since, steps = before ++ .ignoreAck sequence :: since ∧
    ∀ step ∈ since, ¬ step.Settles sequence

theorem not_announced_nil (sequence : UInt16) : ¬ Announced sequence [] := by
  rintro ⟨before, since, hsteps, -⟩
  exact List.append_ne_nil_of_right_ne_nil before (List.cons_ne_nil _ since) hsteps.symm

theorem announced_append_singleton {sequence : UInt16} {steps : List Step} {step : Step} :
    Announced sequence (steps ++ [step]) ↔
      step = .ignoreAck sequence ∨ Announced sequence steps ∧ ¬ step.Settles sequence := by
  constructor
  · rintro ⟨before, since, hsteps, hsince⟩
    -- the last step is the announcement itself, or it came later
    rcases since.eq_nil_or_concat' with rfl | ⟨since, last, rfl⟩
    · obtain ⟨-, hlast⟩ := List.append_inj' hsteps rfl
      exact .inl (List.singleton_inj.mp hlast)
    · rw [← List.cons_append, ← List.append_assoc] at hsteps
      obtain ⟨hinit, hlast⟩ := List.append_inj' hsteps rfl
      cases hlast
      refine .inr ⟨⟨before, since, hinit, ?_⟩, hsince step (by simp)⟩
      intro other hmem
      exact hsince other (List.mem_append_left _ hmem)
  · rintro (rfl | ⟨⟨before, since, rfl, hsince⟩, hstep⟩)
    · exact ⟨steps, [], rfl, by simp⟩
    · refine ⟨before, since ++ [step], by simp, ?_⟩
      intro other hmem
      rcases List.mem_append.mp hmem with hmem | hmem
      · exact hsince other hmem
      · cases List.mem_singleton.mp hmem
        exact hstep

theorem armedAfter_eq_some_iff {hint : Option UInt16} {step : Step} {sequence : UInt16} :
    armedAfter hint step = some sequence ↔
      step = .ignoreAck sequence ∨ hint = some sequence ∧ ¬ step.Settles sequence := by
  cases step with
  | ignoreAck other => simp [armedAfter, Step.Settles]
  | datagram data =>
      simp only [armedAfter, Step.Settles, reduceCtorEq, false_or]
      split
      · rename_i hack
        rw [hack]
        simp
      · rename_i hack
        constructor
        · rintro rfl
          exact ⟨rfl, hack⟩
        · exact And.left
  | _ => simp [armedAfter, Step.Settles]

/-- The steps so far say what is announced. -/
theorem armed_eq_some_iff {steps : List Step} {sequence : UInt16} :
    armed none steps = some sequence ↔ Announced sequence steps := by
  induction steps using List.reverseRecOn with
  | nil => simp [armed, not_announced_nil]
  | append_singleton steps step ih =>
      rw [armed, List.foldl_append, List.foldl_cons, List.foldl_nil, armedAfter_eq_some_iff,
        announced_append_singleton]
      exact or_congr_right (and_congr_left' ih)

/-! ## The announcement of a relay -/

/-- What is told about an acknowledgement that was dropped. -/
def Event.IsIgnored : Event → Bool
  | .inbound (.ignoreAck _) => true
  | _ => false

/-- How many acknowledgements were dropped. -/
def ignored (relay : Relay) : ℕ :=
  relay.events.items.countP Event.IsIgnored

/-- How many acknowledgements were dropped, and whether one more will be unless something else is
announced. -/
def suppressed (relay : Relay) : ℕ :=
  relay.ignored + if relay.hint.isSome then 1 else 0

theorem ignored_le_suppressed (relay : Relay) : relay.ignored ≤ relay.suppressed :=
  Nat.le_add_right _ _

theorem ignored_publish (relay : Relay) (event : Event) :
    (relay.publish event).ignored = relay.ignored + if event.IsIgnored then 1 else 0 :=
  List.countP_cons

section

variable {store : Store} {relay : Relay} {data : List UInt8} {sequence : UInt16}

/-- Handling a datagram changes nothing of the relay but the announcement. -/
theorem interpret_relay (store : Store) (relay : Relay) (data : List UInt8) :
    (interpret store relay data).2.2 =
      { relay with hint := armedAfter relay.hint (.datagram data) } := by
  rcases datagram_cases data with ⟨message, hdecode, htype⟩ | ⟨message, hdecode, htype⟩ | hother
  · rw [interpret_command hdecode htype,
      armedAfter_datagram_of_none (acknowledged?_command hdecode htype)]
  · have hack := acknowledged?_ack hdecode htype
    by_cases hhint : relay.hint = some message.sequence
    · rw [interpret_ack_of_hint hdecode htype hhint, armedAfter, hack, hhint, if_pos rfl]
    · rw [interpret_ack hdecode htype hhint, armedAfter, hack, if_neg (Ne.symm hhint)]
  · rw [interpret_other hother, armedAfter_datagram_of_none]
    exact acknowledged?_eq_none fun message hdecode => (hother message hdecode).2

/-- Only what was announced is dropped. -/
theorem hint_of_ignoreAck (h : (interpret store relay data).1 = .ignoreAck sequence) :
    acknowledged? data = some sequence ∧ relay.hint = some sequence := by
  cases hdecode : Wire.Message.decode data with
  | error error =>
      rw [interpret, hdecode] at h
      cases error <;> cases h
  | ok message =>
      simp only [interpret, hdecode, dispatch] at h
      split at h
      · cases h
      · split at h
        · rename_i htype
          split at h
          · rename_i hhint
            cases h
            exact ⟨acknowledged?_ack hdecode htype, hhint⟩
          · cases h
        · cases h

theorem receive_of_stopped (h : relay.started = false) :
    receive store relay data = (store, relay) := by
  rw [receive, h]
  rfl

/-- A datagram changes what is announced, and is told of and counted. -/
theorem receive_relay (h : relay.started = true) :
    (receive store relay data).2 =
      { relay with
        hint := armedAfter relay.hint (.datagram data)
        stats := relay.stats.countReceived.countOutcome (interpret store relay data).1 }.publish
          (.inbound (interpret store relay data).1) := by
  simp only [receive_of_started h, interpret_relay]

theorem receive_started : (receive store relay data).2.started = relay.started := by
  cases h : relay.started with
  | false => rw [receive_of_stopped h, h]
  | true =>
      rw [receive_relay h]
      exact h

theorem receive_hint (h : relay.started = true) :
    (receive store relay data).2.hint = armedAfter relay.hint (.datagram data) := by
  rw [receive_relay h]
  rfl

theorem receive_ignored (h : relay.started = true) :
    (receive store relay data).2.ignored = relay.ignored +
      if (Event.inbound (interpret store relay data).1).IsIgnored then 1 else 0 := by
  rw [receive_relay h, ignored_publish]
  rfl

theorem armedAfter_datagram (hint : Option UInt16) (data : List UInt8) :
    armedAfter hint (.datagram data) = none ∨ armedAfter hint (.datagram data) = hint := by
  rw [armedAfter]
  split
  · exact .inl rfl
  · exact .inr rfl

/-- Dropping an acknowledgement takes an announcement. -/
theorem receive_suppressed (store : Store) (relay : Relay) (data : List UInt8) :
    (receive store relay data).2.suppressed ≤ relay.suppressed := by
  cases h : relay.started with
  | false => rw [receive_of_stopped h]
  | true =>
      rw [suppressed, suppressed, receive_ignored h, receive_hint h]
      -- what is dropped was announced, and the announcement is gone afterwards
      cases houtcome : (interpret store relay data).1 with
      | ignoreAck sequence =>
          obtain ⟨hack, hhint⟩ := hint_of_ignoreAck houtcome
          simp [armedAfter, hack, hhint, Event.IsIgnored]
      | _ =>
          rcases armedAfter_datagram relay.hint data with hafter | hafter <;>
            simp [hafter, Event.IsIgnored]

end

/-! ## Steps that leave announcements alone -/

/-- The announcement stands as before, nothing was dropped, and a relay that was stopped stays so. -/
structure Unannounced (before after : Relay) : Prop where
  hint : after.hint = before.hint
  ignored : after.ignored = before.ignored
  started : after.started = true → before.started = true

theorem Unannounced.refl (relay : Relay) : Unannounced relay relay :=
  ⟨rfl, rfl, id⟩

theorem unannounced_forward (network : Network) (clock : ℕ) (store : Store) (relay : Relay)
    (path : Path) (data : List UInt8) :
    Unannounced relay (forward network clock store relay path data).2.2 := by
  unfold forward
  split
  · dsimp only
    split
    · exact ⟨rfl, ignored_publish _ _, id⟩
    · exact ⟨rfl, rfl, id⟩
  · exact .refl relay

theorem unannounced_stop (network : Network) (relay : Relay) :
    Unannounced relay (stop network relay).1 := by
  unfold stop
  split
  · rename_i hstarted
    exact ⟨rfl, rfl, fun _ => hstarted⟩
  · exact .refl relay

theorem Unannounced.suppressed {before after : Relay} (h : Unannounced before after) :
    after.suppressed = before.suppressed := by
  rw [Relay.suppressed, Relay.suppressed, h.ignored, h.hint]

/-! ## A run -/

namespace Scene

variable {scene : Scene} {step : Step} {steps : List Step}

theorem started_of_next (h : (scene.next step).relay.started = true) :
    scene.relay.started = true := by
  cases step with
  | datagram data => exact receive_started.symm.trans h
  | forward path data => exact (unannounced_forward ..).started h
  | sendPrimary data => exact (unannounced_forward ..).started h
  | stop => exact (unannounced_stop ..).started h
  | _ => exact h

theorem next_hint (h : scene.relay.started = true) :
    (scene.next step).relay.hint = armedAfter scene.relay.hint step := by
  cases step with
  | datagram data => exact receive_hint h
  | forward path data => exact (unannounced_forward ..).hint
  | sendPrimary data => exact (unannounced_forward ..).hint
  | stop => exact (unannounced_stop ..).hint
  | _ => rfl

theorem next_suppressed (h : ∀ sequence, step ≠ .ignoreAck sequence) :
    (scene.next step).relay.suppressed ≤ scene.relay.suppressed := by
  cases step with
  | datagram data => exact receive_suppressed ..
  | ignoreAck sequence => exact absurd rfl (h sequence)
  | forward path data => exact (unannounced_forward ..).suppressed.le
  | sendPrimary data => exact (unannounced_forward ..).suppressed.le
  | stop => exact (unannounced_stop ..).suppressed.le
  | _ => exact le_rfl

theorem started_of_run (h : (scene.run steps).relay.started = true) :
    scene.relay.started = true := by
  induction steps generalizing scene with
  | nil => exact h
  | cons step steps ih => exact started_of_next (ih h)

/-- What is announced to a relay at work is what the steps so far say. -/
theorem run_hint (h : (scene.run steps).relay.started = true) :
    (scene.run steps).relay.hint = armed scene.relay.hint steps := by
  induction steps generalizing scene with
  | nil => rfl
  | cons step steps ih =>
      rw [run_cons, ih h, next_hint (started_of_next (started_of_run h)), armed, armed,
        List.foldl_cons]

theorem run_suppressed (h : ∀ sequence, .ignoreAck sequence ∉ steps) :
    (scene.run steps).relay.suppressed ≤ scene.relay.suppressed := by
  induction steps generalizing scene with
  | nil => exact le_rfl
  | cons step steps ih =>
      have hstep : ∀ sequence, step ≠ .ignoreAck sequence := by
        rintro sequence rfl
        exact h sequence List.mem_cons_self
      have hsteps : ∀ sequence, .ignoreAck sequence ∉ steps :=
        fun sequence hmem => h sequence (List.mem_cons_of_mem step hmem)
      exact (ih hsteps).trans (next_suppressed hstep)

/-- Until the next announcement, at most one acknowledgement is dropped. -/
theorem run_ignoreAck_ignored (sequence : UInt16)
    (h : ∀ sequence, .ignoreAck sequence ∉ steps) :
    (scene.run (.ignoreAck sequence :: steps)).relay.ignored ≤ scene.relay.ignored + 1 := by
  calc (scene.run (.ignoreAck sequence :: steps)).relay.ignored
      ≤ (scene.run (.ignoreAck sequence :: steps)).relay.suppressed := ignored_le_suppressed _
    _ ≤ (scene.next (.ignoreAck sequence)).relay.suppressed := run_suppressed h
    _ = scene.relay.ignored + 1 := rfl

end Scene

theorem start_hint {network network' : Network} {binding : Binding} {config : Config}
    {relay : Relay} (h : Relay.start network binding config = .ok (relay, network')) :
    relay.hint = none := by
  rw [(start_eq_ok h).1]

/-- The acknowledgement is reported as ignored, and the store is not called. -/
structure Ignores (sequence : UInt16) (before after : Scene) : Prop where
  told : after.relay.events = before.relay.events.publish (.inbound (.ignoreAck sequence))
  store : after.store = before.store

/-- The acknowledgement is reported as relayed, and its number is put into the queue. -/
structure Relays (sequence : UInt16) (before after : Scene) : Prop where
  told : after.relay.events = before.relay.events.publish (.inbound (.relayAck sequence))
  store : after.store = (before.store.push Store.ackQueue (decimal sequence)).2

theorem Relays.not_ignores {sequence : UInt16} {before after : Scene}
    (h : Relays sequence before after) : ¬ Ignores sequence before after := by
  intro hignores
  have htold := h.told.symm.trans hignores.told
  simp [Feed.publish] at htold

section

variable {scene : Scene} {data : List UInt8} {message : Wire.Message}

theorem ignores_of_hint (h : scene.relay.started = true)
    (hdecode : Wire.Message.decode data = .ok message)
    (htype : message.type = Wire.mobileTerminatedAck)
    (hhint : scene.relay.hint = some message.sequence) :
    Ignores message.sequence scene (scene.next (.datagram data)) := by
  simp only [Scene.next, receive_of_started h, interpret_ack_of_hint hdecode htype hhint]
  exact ⟨rfl, rfl⟩

theorem relays_of_hint (h : scene.relay.started = true)
    (hdecode : Wire.Message.decode data = .ok message)
    (htype : message.type = Wire.mobileTerminatedAck)
    (hhint : scene.relay.hint ≠ some message.sequence) :
    Relays message.sequence scene (scene.next (.datagram data)) := by
  simp only [Scene.next, receive_of_started h, interpret_ack hdecode htype hhint]
  exact ⟨rfl, rfl⟩

end

/-- In every run of a relay, an acknowledgement that comes from outside is dropped, without a call
of the store, exactly if the last announcement was of its number and was not used up since; any
other one is reported as relayed.  Whatever else comes in leaves the announcement as it is, and an
announcement drops at most one acknowledgement before the next one is made. -/
theorem Scene.run_ignores_iff_announced {network network' : Network} {binding : Binding}
    {config : Config} {relay : Relay}
    (hstart : Relay.start network binding config = .ok (relay, network'))
    (store : Store) (clock : ℕ) (earlier : List Step) :
    let scene := run ⟨relay, store, network', clock⟩ earlier
    (scene.relay.started = true →
      (∀ sequence, scene.relay.hint = some sequence ↔ Announced sequence earlier) ∧
      ∀ data message, Wire.Message.decode data = .ok message →
        message.type = Wire.mobileTerminatedAck →
          (Ignores message.sequence scene (scene.next (.datagram data)) ↔
            Announced message.sequence earlier) ∧
          (Relays message.sequence scene (scene.next (.datagram data)) ↔
            ¬ Announced message.sequence earlier)) ∧
    ∀ sequence since, (∀ other, .ignoreAck other ∉ since) →
      (scene.run (.ignoreAck sequence :: since)).relay.ignored ≤ scene.relay.ignored + 1 := by
  intro scene
  refine ⟨?_, fun sequence since hsince => run_ignoreAck_ignored sequence hsince⟩
  intro hstarted
  have hhint : ∀ sequence, scene.relay.hint = some sequence ↔ Announced sequence earlier := by
    intro sequence
    rw [← armed_eq_some_iff, run_hint hstarted, start_hint hstart]
  refine ⟨hhint, ?_⟩
  intro data message hdecode htype
  by_cases hannounced : Announced message.sequence earlier
  · have hignores := ignores_of_hint hstarted hdecode htype ((hhint _).mpr hannounced)
    exact ⟨iff_of_true hignores hannounced,
      iff_of_false (fun hrelays => hrelays.not_ignores hignores) (not_not_intro hannounced)⟩
  · have hrelays := relays_of_hint hstarted hdecode htype (fun h => hannounced ((hhint _).mp h))
    exact ⟨iff_of_false hrelays.not_ignores hannounced, iff_of_true hrelays hannounced⟩

/-- A datagram whose check byte is wrong. -/
def corruptDatagram : List UInt8 :=
  [1, 0, 0xcd, 0, 0, 7, 0, 0, 0, 0, 0, 0, 0, 0, 43]

/-- The number three is announced and then the number seven, the store fails, and a corrupt datagram
and a message for the field device come in. -/
def troubledSteps : List Step :=
  [.ignoreAck 3, .ignoreAck 7, .failure (some "down"), .datagram corruptDatagram,
    .datagram commandDatagram]

/-- A relay that was just started on an isolated network. -/
def startedScene : Scene where
  relay := freshScene.relay
  store := {}
  network := { Network.isolated with
    bound := [⟨.unspecified, 4001⟩, ⟨.unspecified, 4000⟩, ⟨.unspecified, 0⟩] }
  clock := 0

theorem start_startedScene :
    Relay.start .isolated {} freshScene.relay.config =
      .ok (startedScene.relay, startedScene.network) :=
  rfl

/-- The announcement outlasts the failure and both datagrams; it drops one acknowledgement and not
another one. -/
theorem run_ignores_outlasting :
    Ignores 7 (startedScene.run troubledSteps)
      ((startedScene.run troubledSteps).next (.datagram ackDatagram)) ∧
    Relays 7 (startedScene.run (troubledSteps ++ [.datagram ackDatagram]))
      ((startedScene.run (troubledSteps ++ [.datagram ackDatagram])).next
        (.datagram ackDatagram)) := by
  have hack : acknowledged? ackDatagram = some 7 := by decide +kernel
  obtain ⟨message, hdecode, htype, hsequence⟩ := acknowledged?_eq_some_iff.mp hack
  rw [← hsequence]
  constructor
  · have hrun := (Scene.run_ignores_iff_announced start_startedScene {} 0 troubledSteps).1
    obtain ⟨-, hacks⟩ := hrun (by decide +kernel)
    refine (hacks ackDatagram message hdecode htype).1.mpr ?_
    rw [hsequence, ← armed_eq_some_iff]
    decide +kernel
  · have hrun := (Scene.run_ignores_iff_announced start_startedScene {} 0
      (troubledSteps ++ [.datagram ackDatagram])).1
    obtain ⟨-, hacks⟩ := hrun (by decide +kernel)
    refine (hacks ackDatagram message hdecode htype).2.mpr ?_
    rw [hsequence, ← armed_eq_some_iff]
    decide +kernel

end Relay
end Uplink
