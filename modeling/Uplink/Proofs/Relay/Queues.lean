import Mathlib.Data.List.Forall2
import Uplink.Proofs.Relay.Run
import Uplink.Proofs.Wire.Datagram
import Uplink.Proofs.Wire.Storage

/-!
# The queues of a relay

What a relay puts into its two queues is determined by the datagrams that come from outside and by
the announcements made before each of them.  Nothing is lost on the way into the queue of commands:
what stands there is the stored form of a message, and the datagram is recovered from it.
-/

namespace Uplink
namespace Relay

/-! ## What has to be queued -/

/-- The message of the given type that a datagram carries. -/
def message? (type : UInt8) (data : List UInt8) : Option Wire.Message :=
  match Wire.Message.decode data with
  | .ok message => if message.type = type then some message else none
  | .error _ => none

theorem message?_eq_some_iff {type : UInt8} {data : List UInt8} {message : Wire.Message} :
    message? type data = some message ↔
      Wire.Message.decode data = .ok message ∧ message.type = type := by
  unfold message?
  split
  · rename_i found hdecode
    constructor
    · intro h
      split at h
      · rename_i htype
        cases h
        exact ⟨hdecode, htype⟩
      · cases h
    · rintro ⟨hfound, rfl⟩
      cases hdecode.symm.trans hfound
      rw [if_pos rfl]
  · rename_i hdecode
    constructor
    · intro h
      cases h
    · rintro ⟨hfound, -⟩
      cases hdecode.symm.trans hfound

/-- The datagrams from outside that are messages for the field device. -/
def commands (steps : List Step) : List (List UInt8) :=
  steps.filterMap fun
    | .datagram data =>
      if (message? Wire.mobileTerminatedEvent data).isSome then some data else none
    | _ => none

/-- The number that a datagram acknowledges. -/
def acknowledged? (data : List UInt8) : Option UInt16 :=
  (message? Wire.mobileTerminatedAck data).map Wire.Message.sequence

theorem acknowledged?_eq_some_iff {data : List UInt8} {sequence : UInt16} :
    acknowledged? data = some sequence ↔
      ∃ message, Wire.Message.decode data = .ok message ∧
        message.type = Wire.mobileTerminatedAck ∧ message.sequence = sequence := by
  simp only [acknowledged?, Option.map_eq_some_iff, message?_eq_some_iff, and_assoc]

/-- The announcement after a step: the last one, unless it was used up. -/
def armedAfter (hint : Option UInt16) : Step → Option UInt16
  | .ignoreAck sequence => some sequence
  | .datagram data => if acknowledged? data = hint then none else hint
  | _ => hint

/-- The announcement after a run. -/
def armed (hint : Option UInt16) (steps : List Step) : Option UInt16 :=
  steps.foldl armedAfter hint

/-- The number that is acknowledged in a step without having been announced. -/
def unhinted? (hint : Option UInt16) : Step → Option UInt16
  | .datagram data => (acknowledged? data).filter fun sequence => hint ≠ some sequence
  | _ => none

/-- The numbers that are acknowledged in a run without having been announced. -/
def unhinted (hint : Option UInt16) : List Step → List UInt16
  | [] => []
  | step :: steps => (unhinted? hint step).toList ++ unhinted (armedAfter hint step) steps

/-- The entry stands for the datagram: it is its stored form, from which the datagram is
recovered. -/
def Restores (entry : String) (data : List UInt8) : Prop :=
  ∃ message, Wire.Message.decode data = .ok message ∧ message.type = Wire.mobileTerminatedEvent ∧
    entry = message.toStorage ∧ Wire.Message.ofStorage entry = .ok message ∧
    message.encode = .ok data

/-- The datagram asks for nothing to be queued. -/
def Silent (hint : Option UInt16) (data : List UInt8) : Prop :=
  ∀ message, Wire.Message.decode data = .ok message →
    message.type ≠ Wire.mobileTerminatedEvent ∧
      (message.type = Wire.mobileTerminatedAck → hint = some message.sequence)

/-- The text under which a number is queued. -/
def decimal (sequence : UInt16) : String :=
  toString sequence.toNat

/-- The relay goes on, the store does not fail, and nobody else writes the queues. -/
def Step.Calm : Step → Prop
  | .stop => False
  | .call made => Store.commandQueue ∉ made.writes ∧ Store.ackQueue ∉ made.writes
  | .failure reason => reason = none
  | _ => True

/-- The relay works, and so do its queues. -/
structure Working (scene : Scene) : Prop where
  started : scene.relay.started = true
  failure : scene.store.failure = none
  commands : scene.store.IsQueue Store.commandQueue
  acks : scene.store.IsQueue Store.ackQueue

/-- What was put into the queues meanwhile, the first one first. -/
structure Appended (before after : Store) (entries numbers : List String) : Prop where
  commands : after.items Store.commandQueue = entries.reverse ++ before.items Store.commandQueue
  acks : after.items Store.ackQueue = numbers.reverse ++ before.items Store.ackQueue

theorem Appended.trans {first second third : Store} {entries entries' numbers numbers' : List String}
    (h : Appended first second entries numbers) (h' : Appended second third entries' numbers') :
    Appended first third (entries ++ entries') (numbers ++ numbers') where
  commands := by rw [h'.commands, h.commands, List.reverse_append, List.append_assoc]
  acks := by rw [h'.acks, h.acks, List.reverse_append, List.append_assoc]

/-! ## One step -/

/-- The queues are untouched, and the relay still works. -/
structure Undisturbed (before after : Scene) : Prop where
  started : after.relay.started = before.relay.started
  failure : after.store.failure = none
  commands : after.store.contents.find? Store.commandQueue =
    before.store.contents.find? Store.commandQueue
  acks : after.store.contents.find? Store.ackQueue = before.store.contents.find? Store.ackQueue

theorem Undisturbed.working {before after : Scene} (h : Undisturbed before after)
    (hworking : Working before) : Working after where
  started := h.started.trans hworking.started
  failure := h.failure
  commands := (Store.isQueue_congr h.commands).mpr hworking.commands
  acks := (Store.isQueue_congr h.acks).mpr hworking.acks

theorem Undisturbed.appended {before after : Scene} (h : Undisturbed before after) :
    Appended before.store after.store [] [] where
  commands := Store.items_congr h.commands
  acks := Store.items_congr h.acks

theorem commandQueue_ne_ackQueue : Store.commandQueue ≠ Store.ackQueue := by decide

/-- Noting when a datagram was sent leaves other keys alone. -/
theorem record_frame (store : Store) (clock : ℕ) (path : Path) {key : String}
    (hlast : key ≠ Store.lastRelayKey) (hprivate : key ≠ Store.lastPrivateRelayKey) :
    (record store clock path).contents.find? key = store.contents.find? key := by
  cases path with
  | privateNet =>
      refine Store.perform_frame store ?_
      simp [Store.Call.writes, hlast, hprivate]
  | publicNet =>
      refine Store.perform_frame store ?_
      simp [Store.Call.writes, hlast]

theorem record_failure (store : Store) (clock : ℕ) (path : Path) :
    (record store clock path).failure = store.failure := by
  cases path with
  | privateNet => exact Store.perform_failure store _
  | publicNet => exact Store.perform_failure store _

/-- Sending over a path is none of the queues' business. -/
theorem undisturbed_forward {scene : Scene} (h : Working scene) {path : Path} {data : List UInt8}
    {result : Except Failure Unit} {store : Store} {relay : Relay}
    (hforward : forward scene.network scene.clock scene.store scene.relay path data =
      (result, store, relay)) :
    Undisturbed scene { scene with store, relay } ∧ relay.hint = scene.relay.hint := by
  simp only [forward] at hforward
  rw [if_pos h.started] at hforward
  split at hforward
  · cases hforward
    refine ⟨⟨rfl, ?_, ?_, ?_⟩, rfl⟩
    · exact (record_failure _ _ _).trans h.failure
    · exact record_frame _ _ _ (by decide) (by decide)
    · exact record_frame _ _ _ (by decide) (by decide)
  · cases hforward
    exact ⟨⟨rfl, h.failure, rfl, rfl⟩, rfl⟩

/-- Only a datagram from outside changes the queues of a calm run. -/
theorem undisturbed_of_calm {scene : Scene} (h : Working scene) {step : Step} (hcalm : step.Calm)
    (hstep : ∀ data, step ≠ .datagram data) :
    Undisturbed scene (scene.next step) ∧
      (scene.next step).relay.hint = armedAfter scene.relay.hint step := by
  cases step with
  | datagram data => exact absurd rfl (hstep data)
  | forward path data => exact undisturbed_forward h rfl
  | sendPrimary data => exact undisturbed_forward h rfl
  | ignoreAck sequence => exact ⟨⟨rfl, h.failure, rfl, rfl⟩, rfl⟩
  | stop => exact absurd hcalm not_false
  | call call =>
      refine ⟨⟨rfl, ?_, ?_, ?_⟩, rfl⟩
      · exact (Store.perform_failure _ _).trans h.failure
      · exact Store.perform_frame _ hcalm.1
      · exact Store.perform_frame _ hcalm.2
  | failure reason =>
      have hreason : reason = none := hcalm
      exact ⟨⟨rfl, hreason, rfl, rfl⟩, rfl⟩
  | network network => exact ⟨⟨rfl, h.failure, rfl, rfl⟩, rfl⟩
  | clock time => exact ⟨⟨rfl, h.failure, rfl, rfl⟩, rfl⟩

theorem Working.push {before after : Scene} (h : Working before) {key value : String}
    (hkey : before.store.IsQueue key) (hstore : after.store = (before.store.push key value).2)
    (hstarted : after.relay.started = before.relay.started) : Working after where
  started := hstarted.trans h.started
  failure := by rw [hstore, Store.push_failure, h.failure]
  commands := by
    rw [hstore]
    exact Store.isQueue_push h.failure hkey h.commands value
  acks := by
    rw [hstore]
    exact Store.isQueue_push h.failure hkey h.acks value

theorem Working.appended_command {scene : Scene} (h : Working scene) (entry : String) :
    Appended scene.store (scene.store.push Store.commandQueue entry).2 [entry] [] where
  commands := Store.items_push h.failure h.commands entry
  acks := Store.items_congr (scene.store.push_frame commandQueue_ne_ackQueue.symm entry)

theorem Working.appended_ack {scene : Scene} (h : Working scene) (number : String) :
    Appended scene.store (scene.store.push Store.ackQueue number).2 [] [number] where
  commands := Store.items_congr (scene.store.push_frame commandQueue_ne_ackQueue number)
  acks := Store.items_push h.failure h.acks number

/-- What a step does to a working relay: what it puts into the queues, and what is announced
afterwards. -/
structure Worked (before after : Scene) (step : Step) (entries : List String) : Prop where
  working : Working after
  hint : after.relay.hint = armedAfter before.relay.hint step
  appended : Appended before.store after.store entries
    ((unhinted? before.relay.hint step).toList.map decimal)
  restores : List.Forall₂ Restores entries (commands [step])

section

variable {scene : Scene} {data : List UInt8} {message : Wire.Message}

theorem acknowledged?_eq_none (h : ∀ message, Wire.Message.decode data = .ok message →
      message.type ≠ Wire.mobileTerminatedAck) : acknowledged? data = none := by
  cases hmessage : message? Wire.mobileTerminatedAck data with
  | none => rw [acknowledged?, hmessage, Option.map_none]
  | some message =>
      obtain ⟨hdecode, htype⟩ := message?_eq_some_iff.mp hmessage
      exact absurd htype (h message hdecode)

theorem acknowledged?_command (hdecode : Wire.Message.decode data = .ok message)
    (htype : message.type = Wire.mobileTerminatedEvent) : acknowledged? data = none := by
  refine acknowledged?_eq_none ?_
  intro other hother
  cases hdecode.symm.trans hother
  rw [htype]
  decide

theorem acknowledged?_ack (hdecode : Wire.Message.decode data = .ok message)
    (htype : message.type = Wire.mobileTerminatedAck) :
    acknowledged? data = some message.sequence :=
  acknowledged?_eq_some_iff.mpr ⟨message, hdecode, htype, rfl⟩

theorem commands_eq_nil (h : ∀ message, Wire.Message.decode data = .ok message →
      message.type ≠ Wire.mobileTerminatedEvent) : commands [.datagram data] = [] := by
  have hnone : message? Wire.mobileTerminatedEvent data = none := by
    cases hmessage : message? Wire.mobileTerminatedEvent data with
    | none => rfl
    | some message =>
        obtain ⟨hdecode, htype⟩ := message?_eq_some_iff.mp hmessage
        exact absurd htype (h message hdecode)
  simp [commands, hnone]

theorem armedAfter_datagram_of_none (h : acknowledged? data = none) (hint : Option UInt16) :
    armedAfter hint (.datagram data) = hint := by
  rw [armedAfter, h]
  cases hint <;> rfl

theorem worked_command (h : Working scene) (hdecode : Wire.Message.decode data = .ok message)
    (htype : message.type = Wire.mobileTerminatedEvent) :
    Worked scene (scene.next (.datagram data)) (.datagram data) [message.toStorage] := by
  have hack := acknowledged?_command hdecode htype
  have hcommands : commands [.datagram data] = [data] := by
    simp [commands, message?, hdecode, htype]
  obtain ⟨hencode, hconsistent⟩ := Wire.Message.encode_consistent_of_decode hdecode
  have hrestores : Restores message.toStorage data :=
    ⟨message, hdecode, htype, rfl, Wire.Message.ofStorage_toStorage hconsistent, hencode⟩
  simp only [Scene.next, receive_of_started h.started, interpret_command hdecode htype]
  refine ⟨h.push h.commands rfl rfl, ?_, ?_, ?_⟩
  · exact (armedAfter_datagram_of_none hack _).symm
  · rw [unhinted?, hack]
    exact h.appended_command message.toStorage
  · rw [hcommands]
    exact .cons hrestores .nil

theorem worked_ack (h : Working scene) (hdecode : Wire.Message.decode data = .ok message)
    (htype : message.type = Wire.mobileTerminatedAck) :
    Worked scene (scene.next (.datagram data)) (.datagram data) [] := by
  have hack := acknowledged?_ack hdecode htype
  have hcommands : commands [.datagram data] = [] := by
    refine commands_eq_nil ?_
    intro other hother
    cases hdecode.symm.trans hother
    rw [htype]
    decide
  -- an announced acknowledgement uses the announcement up, any other one is queued
  by_cases hhint : scene.relay.hint = some message.sequence
  · simp only [Scene.next, receive_of_started h.started, interpret_ack_of_hint hdecode htype hhint]
    refine ⟨⟨h.started, h.failure, h.commands, h.acks⟩, ?_, ?_, ?_⟩
    · rw [armedAfter, hack, hhint, if_pos rfl]
      rfl
    · rw [unhinted?, hack, hhint]
      simp only [Option.filter_some, ne_eq, not_true, decide_false]
      exact ⟨rfl, rfl⟩
    · rw [hcommands]
      exact .nil
  · simp only [Scene.next, receive_of_started h.started, interpret_ack hdecode htype hhint]
    refine ⟨h.push h.acks rfl rfl, ?_, ?_, ?_⟩
    · rw [armedAfter, hack, if_neg (Ne.symm hhint)]
      rfl
    · rw [unhinted?, hack]
      simp only [Option.filter_some, ne_eq, hhint, not_false_eq_true, decide_true]
      exact h.appended_ack (decimal message.sequence)
    · rw [hcommands]
      exact .nil

theorem worked_other (h : Working scene) (hother : ∀ message,
      Wire.Message.decode data = .ok message →
        message.type ≠ Wire.mobileTerminatedEvent ∧ message.type ≠ Wire.mobileTerminatedAck) :
    Worked scene (scene.next (.datagram data)) (.datagram data) [] := by
  have hack : acknowledged? data = none :=
    acknowledged?_eq_none (fun message hdecode => (hother message hdecode).2)
  have hcommands : commands [.datagram data] = [] :=
    commands_eq_nil (fun message hdecode => (hother message hdecode).1)
  simp only [Scene.next, receive_of_started h.started, interpret_other hother]
  refine ⟨⟨h.started, h.failure, h.commands, h.acks⟩, ?_, ?_, ?_⟩
  · exact (armedAfter_datagram_of_none hack _).symm
  · rw [unhinted?, hack]
    exact ⟨rfl, rfl⟩
  · rw [hcommands]
    exact .nil

end

/-- One step of a calm run. -/
theorem Working.next {scene : Scene} (h : Working scene) {step : Step} (hcalm : step.Calm) :
    ∃ entries, Worked scene (scene.next step) step entries := by
  -- a datagram is a command, an acknowledgement or neither; no other step touches the queues
  by_cases hstep : ∃ data, step = .datagram data
  · obtain ⟨data, rfl⟩ := hstep
    rcases datagram_cases data with ⟨message, hdecode, htype⟩ | ⟨message, hdecode, htype⟩ | hother
    · exact ⟨[message.toStorage], worked_command h hdecode htype⟩
    · exact ⟨[], worked_ack h hdecode htype⟩
    · exact ⟨[], worked_other h hother⟩
  · have hdatagram : ∀ data, step ≠ .datagram data := fun data heq => hstep ⟨data, heq⟩
    obtain ⟨hundisturbed, hhint⟩ := undisturbed_of_calm h hcalm hdatagram
    refine ⟨[], hundisturbed.working h, hhint, ?_, ?_⟩
    · cases step with
      | datagram data => exact absurd rfl (hdatagram data)
      | _ => exact hundisturbed.appended
    · cases step with
      | datagram data => exact absurd rfl (hdatagram data)
      | _ => exact .nil

/-! ## A run -/

theorem run_of_working {scene : Scene} (h : Working scene) {steps : List Step}
    (hcalm : ∀ step ∈ steps, step.Calm) :
    Working (scene.run steps) ∧ (scene.run steps).relay.hint = armed scene.relay.hint steps ∧
      ∃ entries, List.Forall₂ Restores entries (commands steps) ∧
        Appended scene.store (scene.run steps).store entries
          ((unhinted scene.relay.hint steps).map decimal) := by
  induction steps generalizing scene with
  | nil => exact ⟨h, rfl, [], .nil, ⟨rfl, rfl⟩⟩
  | cons step steps ih =>
      obtain ⟨entries, hstep⟩ := h.next (hcalm step List.mem_cons_self)
      obtain ⟨hworking, hhint, entries', hrestores, happended⟩ :=
        ih hstep.working (fun other hmem => hcalm other (List.mem_cons_of_mem step hmem))
      rw [hstep.hint] at hhint happended
      refine ⟨hworking, hhint, entries ++ entries', ?_, ?_⟩
      · have hcommands : commands (step :: steps) = commands [step] ++ commands steps :=
          List.filterMap_append (l := [step])
        rw [hcommands]
        exact List.rel_append hstep.restores hrestores
      · rw [unhinted, List.map_append]
        exact hstep.appended.trans happended

theorem next_of_silent {scene : Scene} (h : Working scene) {data : List UInt8}
    (hsilent : Silent scene.relay.hint data) :
    (scene.next (.datagram data)).store = scene.store := by
  by_cases hack : ∃ message, Wire.Message.decode data = .ok message ∧
      message.type = Wire.mobileTerminatedAck
  · obtain ⟨message, hdecode, htype⟩ := hack
    have hhint := (hsilent message hdecode).2 htype
    simp only [Scene.next, receive_of_started h.started, interpret_ack_of_hint hdecode htype hhint]
  · push Not at hack
    have hother : ∀ message, Wire.Message.decode data = .ok message →
        message.type ≠ Wire.mobileTerminatedEvent ∧ message.type ≠ Wire.mobileTerminatedAck :=
      fun message hdecode => ⟨(hsilent message hdecode).1, hack message hdecode⟩
    simp only [Scene.next, receive_of_started h.started, interpret_other hother]

/-- In every calm run of a working relay, the new entries of the queue of commands are the stored
forms of the messages for the field device that came from outside, one by one and in order, and each
of them gives its datagram back; the new entries of the queue of acknowledgements are the numbers
that were acknowledged without having been announced; and no other datagram reaches the store. -/
theorem Scene.run_queues {scene : Scene} (h : Working scene) {steps : List Step}
    (hcalm : ∀ step ∈ steps, step.Calm) :
    (∃ entries, List.Forall₂ Restores entries (commands steps) ∧
      (scene.run steps).store.items Store.commandQueue =
        entries.reverse ++ scene.store.items Store.commandQueue) ∧
    (scene.run steps).store.items Store.ackQueue =
      ((unhinted scene.relay.hint steps).map decimal).reverse ++
        scene.store.items Store.ackQueue ∧
    ∀ earlier data later, steps = earlier ++ .datagram data :: later →
      Silent (armed scene.relay.hint earlier) data →
        (scene.run (earlier ++ [.datagram data])).store = (scene.run earlier).store := by
  obtain ⟨-, -, entries, hrestores, happended⟩ := run_of_working h hcalm
  refine ⟨⟨entries, hrestores, happended.commands⟩, happended.acks, ?_⟩
  rintro earlier data later rfl hsilent
  have hearlier : ∀ step ∈ earlier, step.Calm :=
    fun step hmem => hcalm step (List.mem_append_left _ hmem)
  obtain ⟨hworking, hhint, -⟩ := run_of_working h hearlier
  rw [← hhint] at hsilent
  rw [Scene.run_append]
  exact next_of_silent hworking hsilent

/-- A datagram that acknowledges the number seven. -/
def ackDatagram : List UInt8 :=
  [1, 0, 0xcd, 0, 0, 7, 0, 0, 0, 0, 0, 0, 0, 0, 42]

/-- A datagram with a message for the field device. -/
def commandDatagram : List UInt8 :=
  [1, 0, 0xcc, 0, 0, 9, 0, 0, 0, 0, 0, 0, 0, 0, 2, 1, 0, 3, 97, 34, 98, 145]

/-- A relay that was just started, with an empty store. -/
def freshScene : Scene where
  relay :=
    { config := { privateHost := "a", privatePort := 1, publicHost := "b", publicPort := 2 }
      address := .unspecified }
  store := {}
  network := .isolated
  clock := 0

/-- An announcement, and then two equal acknowledgements with a message between them. -/
def announcedSteps : List Step :=
  [.ignoreAck 7, .datagram ackDatagram, .datagram commandDatagram, .datagram ackDatagram]

/-- Of two equal acknowledgements the announced one is dropped and the other one is queued. -/
theorem run_queues_announced :
    (freshScene.run announcedSteps).store.items Store.ackQueue = ["7"] ∧
      ∃ entry, Restores entry commandDatagram ∧
        (freshScene.run announcedSteps).store.items Store.commandQueue = [entry] := by
  have hempty : ∀ key, freshScene.store.IsQueue key := by
    intro key entry hentry
    cases hentry
  have hworking : Working freshScene := ⟨rfl, rfl, hempty _, hempty _⟩
  have hcalm : ∀ step ∈ announcedSteps, step.Calm := by
    simp [announcedSteps, Step.Calm]
  obtain ⟨⟨entries, hrestores, hcommands⟩, hacks, -⟩ := Scene.run_queues hworking hcalm
  constructor
  · rw [hacks]
    decide +kernel
  · have hone : commands announcedSteps = [commandDatagram] := by decide +kernel
    rw [hone] at hrestores
    cases hrestores with
    | cons hentry hnil =>
        cases hnil
        exact ⟨_, hentry, hcommands⟩

end Relay
end Uplink
