import Uplink.Proofs.Relay.Entries

/-!
# What is sent

A datagram that the relay is asked to send, or that arrives on the socket of a path, is sent to the host
and port of its path, or it cannot be sent.  What arrives is read into a memory of fixed size, so of a
longer datagram only the beginning is sent; what the relay is asked to send is sent whole.

For every datagram that was sent, and for no other, it is attempted to note the time.
-/

namespace Uplink
namespace Relay

/-! ## One part of an errand -/

/-- The parcel with the given bytes on a path. -/
def parcel (relay : Relay) (path : Path) (data : List UInt8) : Parcel :=
  ⟨path, (relay.config.destination path).1, (relay.config.destination path).2, data⟩

/-- A datagram gets on its way over a path. -/
def sends (network : Network) (relay : Relay) (path : Path) (data : List UInt8) : Bool :=
  (network.send (relay.config.destination path).1 (relay.config.destination path).2 data).isOk

/-- A datagram was sent over a path, and the time is not noted yet. -/
def Errand.owes (path : Path) : Errand → Bool
  | .sent path' | .timing path' | .noting path' _ => path' = path
  | _ => false

/-- A datagram is to be sent and does not get on its way. -/
def Errand.failed? (network : Network) (relay : Relay) : Errand → Option (Path × List UInt8)
  | .sending path data => if sends network relay path data then none else some (path, data)
  | _ => none

/-- The time is to be noted for a path. -/
def Errand.notes (path : Path) : Errand → Bool
  | .noting path' _ => path' = path
  | _ => false

/-- It is neither to be sent nor is the time of it to be noted. -/
structure Errand.Elsewhere (errand : Errand) : Prop where
  sending : ∀ path data, errand ≠ .sending path data
  owes : ∀ path, errand.owes path = false

theorem Errand.Elsewhere.failed?_eq_none {errand : Errand} (h : errand.Elsewhere)
    (network : Network) (relay : Relay) : errand.failed? network relay = none := by
  unfold Errand.failed?
  split
  · rename_i path data
    exact absurd rfl (h.sending path data)
  · rfl

theorem Errand.Elsewhere.notes_eq_false {errand : Errand} (h : errand.Elsewhere) (path : Path) :
    errand.notes path = false := by
  have howes := h.owes path
  unfold Errand.notes
  split
  · exact howes
  · rfl

/-- What a part of an errand does about a datagram that is to be sent. -/
inductive Dispatch (network : Network) (relay relay' : Relay) : Errand → Option Errand → Prop where
  | sent (path : Path) (data : List UInt8) (sends : sends network relay path data = true)
      (parcels : relay'.parcels = relay.parcel path data :: relay.parcels) :
      Dispatch network relay relay' (.sending path data) (some (.sent path))
  | unsent (path : Path) (data : List UInt8) (fails : sends network relay path data = false)
      (parcels : relay'.parcels = relay.parcels) :
      Dispatch network relay relay' (.sending path data) (some .unsent)
  | counted (path : Path) (parcels : relay'.parcels = relay.parcels) :
      Dispatch network relay relay' (.sent path) (some (.timing path))
  | timed (path : Path) (time : ℕ) (parcels : relay'.parcels = relay.parcels) :
      Dispatch network relay relay' (.timing path) (some (.noting path time))
  | noted (path : Path) (time : ℕ) (parcels : relay'.parcels = relay.parcels) :
      Dispatch network relay relay' (.noting path time) (some (.noted path))
  | other {errand : Errand} {rest : Option Errand} (parcels : relay'.parcels = relay.parcels)
      (before : errand.Elsewhere) (after : ∀ left ∈ rest, left.Elsewhere) :
      Dispatch network relay relay' errand rest

section

variable {network : Network} {clock : ℕ} {store store' : Store} {relay relay' : Relay}
  {errand : Errand} {rest : Option Errand}

theorem judge_same (relay : Relay) (data : List UInt8) :
    (judge relay data).2.config = relay.config ∧ (judge relay data).2.parcels = relay.parcels := by
  rcases judge_relay relay data with h | h <;> rw [h] <;> exact ⟨rfl, rfl⟩

theorem judge_elsewhere (relay : Relay) (data : List UInt8) : (judge relay data).1.Elsewhere := by
  rcases judge_queue relay data with ⟨_, _, _, h, -⟩ | ⟨_, h, -⟩ <;> rw [h] <;>
    exact ⟨fun _ _ => Errand.noConfusion, fun _ => rfl⟩

theorem work_config (h : work network clock store relay errand = (rest, store', relay')) :
    relay'.config = relay.config := by
  cases errand with
  | arrived data =>
      cases h
      exact (judge_same relay data).1
  | sending path data =>
      simp only [work] at h
      split at h <;> cases h <;> rfl
  | queueing | settled | counted | unsent | sent | timing | noting | noted =>
      cases h
      rfl

theorem work_dispatch (h : work network clock store relay errand = (rest, store', relay')) :
    Dispatch network relay relay' errand rest := by
  cases errand with
  | arrived data =>
      have hwork : work network clock store relay (.arrived data) =
          (some (judge relay data).1, store, (judge relay data).2) := rfl
      rw [hwork] at h
      obtain ⟨rfl, -, rfl⟩ := Prod.mk.injEq .. ▸ h
      refine .other (judge_same relay data).2 ⟨fun _ _ => Errand.noConfusion, fun _ => rfl⟩ ?_
      intro left hleft
      cases hleft
      exact judge_elsewhere relay data
  | sending path data =>
      simp only [work] at h
      split at h
      · rename_i hsent
        cases h
        exact .sent path data (by simp [sends, hsent, Except.isOk, Except.toBool]) rfl
      · rename_i hsent
        cases h
        exact .unsent path data (by simp [sends, hsent, Except.isOk, Except.toBool]) rfl
  | sent path =>
      cases h
      exact .counted path rfl
  | timing path =>
      cases h
      exact .timed path clock rfl
  | noting path time =>
      cases h
      exact .noted path time rfl
  | queueing | settled =>
      cases h
      refine .other rfl ⟨fun _ _ => Errand.noConfusion, fun _ => rfl⟩ ?_
      intro left hleft
      cases hleft
      exact ⟨fun _ _ => Errand.noConfusion, fun _ => rfl⟩
  | counted | unsent | noted =>
      cases h
      exact .other rfl ⟨fun _ _ => Errand.noConfusion, fun _ => rfl⟩ (by simp)

@[simp]
theorem parcel_inj {path path' : Path} {data data' : List UInt8} :
    relay.parcel path data = relay.parcel path' data' ↔ path = path' ∧ data = data' := by
  constructor
  · intro h
    exact ⟨congrArg Parcel.path h, congrArg Parcel.data h⟩
  · rintro ⟨rfl, rfl⟩
    rfl

/-- A datagram that is to be sent is sent, or it cannot be sent, or it waits on. -/
theorem Dispatch.sent_law (h : Dispatch network relay relay' errand rest) (path : Path)
    (data : List UInt8) :
    relay.parcels.count (relay.parcel path data) +
        (if errand = .sending path data then 1 else 0) =
      relay'.parcels.count (relay.parcel path data) +
        (if errand.failed? network relay = some (path, data) then 1 else 0) +
          rest.toList.count (.sending path data) := by
  cases h with
  | sent path' data' hsends hparcels =>
      simp [hparcels, Errand.failed?, hsends, List.count_cons]
  | unsent path' data' hfails hparcels => simp [hparcels, Errand.failed?, hfails]
  | counted _ hparcels | timed _ _ hparcels | noted _ _ hparcels =>
      simp [hparcels, Errand.failed?]
  | other hparcels hbefore hafter =>
      have hrest : rest.toList.count (.sending path data) = 0 := by
        rw [List.count_eq_zero]
        intro hmem
        exact (hafter _ (Option.mem_toList.mp hmem)).sending path data rfl
      simp [hparcels, hbefore.failed?_eq_none, hbefore.sending, hrest]

/-- For a datagram that was sent, the time is noted, or it is still to be noted. -/
theorem Dispatch.noted_law (h : Dispatch network relay relay' errand rest) (path : Path) :
    relay'.parcels.countP (fun p => p.path = path) + (if errand.owes path then 1 else 0) =
      relay.parcels.countP (fun p => p.path = path) + (if errand.notes path then 1 else 0) +
        rest.toList.countP (Errand.owes path) := by
  cases h with
  | sent path' data hsends hparcels =>
      simp [hparcels, Errand.owes, Errand.notes, parcel, List.countP_cons]
  | unsent _ _ _ hparcels => simp [hparcels, Errand.owes, Errand.notes]
  | counted _ hparcels | timed _ _ hparcels | noted _ _ hparcels =>
      simp [hparcels, Errand.owes, Errand.notes]
  | other hparcels hbefore hafter =>
      have hrest : rest.toList.countP (Errand.owes path) = 0 := by
        rw [List.countP_eq_zero]
        intro left hleft
        simp [(hafter left (Option.mem_toList.mp hleft)).owes]
      simp [hparcels, hbefore.owes, hbefore.notes_eq_false, hrest]

/-- What is sent goes to the host and port of its path. -/
theorem Dispatch.addressed (h : Dispatch network relay relay' errand rest)
    (haddressed : ∀ p ∈ relay.parcels, p = relay.parcel p.path p.data) :
    ∀ p ∈ relay'.parcels, p = relay.parcel p.path p.data := by
  cases h with
  | sent path data _ hparcels =>
      rw [hparcels]
      intro p hp
      rcases List.mem_cons.mp hp with rfl | hold
      · rfl
      · exact haddressed p hold
  | unsent _ _ _ hparcels | counted _ hparcels | timed _ _ hparcels | noted _ _ hparcels
  | other hparcels =>
      rw [hparcels]
      exact haddressed

end

namespace Depot

/-! ## What is sent -/

namespace Moment

/-- It is asked to send a datagram over a path, while the sockets are open; of one that arrives it is
asked to send what fits into the memory for it. -/
def asked? (m : Moment) : Option (Path × List UInt8) :=
  if m.depot.scene.relay.started then
    match m.label with
    | .take (.forward path data) => some (path, data.take bufferSize)
    | .take (.sendPrimary data) => some (m.depot.scene.relay.config.primary, data)
    | _ => none
  else none

/-- A datagram cannot be sent. -/
def failed? (m : Moment) : Option (Path × List UInt8) :=
  match m.label with
  | .work errand => errand.failed? m.depot.scene.network m.depot.scene.relay
  | .take _ => none

/-- It is attempted to note the time for a path. -/
def notes (path : Path) (m : Moment) : Bool :=
  match m.label with
  | .work errand => errand.notes path
  | .take _ => false

end Moment

/-- Every datagram that it was asked to send is sent with its bytes to the host and port of its path,
or it cannot be sent, or it is still to be sent; and the time is noted for just those that were sent,
or it is still to be noted. -/
structure Relayed (d : Depot) (moments : List Moment) : Prop where
  addressed : ∀ p ∈ d.scene.relay.parcels, p = d.scene.relay.parcel p.path p.data
  sent : ∀ path data, (moments.filterMap Moment.asked?).count (path, data) =
    d.scene.relay.parcels.count (d.scene.relay.parcel path data) +
      (moments.filterMap Moment.failed?).count (path, data) +
        d.underway.count (.sending path data)
  noted : ∀ path, d.scene.relay.parcels.countP (fun p => p.path = path) =
    moments.countP (Moment.notes path) + d.underway.countP (Errand.owes path)

theorem count_filterMap_concat (f : Moment → Option (Path × List UInt8)) (moments : List Moment)
    (m : Moment) (x : Path × List UInt8) :
    ((moments ++ [m]).filterMap f).count x =
      (moments.filterMap f).count x + if f m = some x then 1 else 0 := by
  rw [List.filterMap_append, List.count_append]
  cases hm : f m with
  | none => simp [hm]
  | some y => simp [hm, List.count_singleton]

section

variable {d next first last : Depot} {label : Label} {moments : List Moment}

theorem parcel_congr {relay relay' : Relay} (h : relay'.config = relay.config) (path : Path)
    (data : List UInt8) : relay'.parcel path data = relay.parcel path data := by
  rw [parcel, h, parcel]

theorem Relayed.work {scene : Scene} {before after : List Errand} {errand : Errand}
    (h : Relayed ⟨scene, before ++ errand :: after⟩ moments) :
    Relayed (advance scene before errand after)
      (moments ++ [⟨⟨scene, before ++ errand :: after⟩, .work errand⟩]) := by
  rcases hwork : Relay.work scene.network scene.clock scene.store scene.relay errand with
    ⟨rest, store', relay'⟩
  have hdispatch := work_dispatch hwork
  have hparcel := parcel_congr (work_config hwork)
  simp only [advance, hwork]
  refine ⟨?_, ?_, ?_⟩
  · intro p hp
    rw [hparcel]
    exact hdispatch.addressed h.addressed p hp
  · intro path data
    have hlaw := h.sent path data
    have hpart := hdispatch.sent_law path data
    have hasked : Moment.asked? ⟨⟨scene, before ++ errand :: after⟩, .work errand⟩ = none := by
      simp [Moment.asked?]
    have hfailed : Moment.failed? ⟨⟨scene, before ++ errand :: after⟩, .work errand⟩ =
        errand.failed? scene.network scene.relay := rfl
    rw [count_filterMap_concat, count_filterMap_concat, hasked, hfailed, hparcel]
    simp only [List.count_append, List.count_cons, beq_iff_eq] at hlaw ⊢
    simp only [reduceCtorEq, if_false]
    omega
  · intro path
    have hlaw := h.noted path
    have hpart := hdispatch.noted_law path
    have hnotes : Moment.notes path ⟨⟨scene, before ++ errand :: after⟩, .work errand⟩ =
        errand.notes path := rfl
    rw [List.countP_append, List.countP_singleton, hnotes]
    simp only [List.countP_append, List.countP_cons] at hlaw ⊢
    omega

/-- A step that begins sends nothing; what it adds to the datagrams under way is what it asks to be
sent, or one that came from outside. -/
theorem take_asked (d : Depot) (step : Relay.Step) :
    (d.take step).scene.relay.config = d.scene.relay.config ∧
      (d.take step).scene.relay.parcels = d.scene.relay.parcels ∧
      ∃ more, (d.take step).underway = d.underway ++ more ∧
        (∀ path data, more.count (.sending path data) =
          if Moment.asked? ⟨d, .take step⟩ = some (path, data) then 1 else 0) ∧
        ∀ path, more.countP (Errand.owes path) = 0 := by
  have hbegin : ∀ path data, ∃ more, (d.begin path data).underway = d.underway ++ more ∧
      (∀ path' data', more.count (.sending path' data') =
        if (if d.scene.relay.started then some (path, data) else none) = some (path', data')
        then 1 else 0) ∧ ∀ path', more.countP (Errand.owes path') = 0 := by
    intro path data
    refine ⟨_, rfl, ?_, ?_⟩
    · intro path' data'
      cases hstarted : d.scene.relay.started <;>
        simp [attempt, hstarted, Except.toOption, List.count_singleton]
    · intro path'
      cases hstarted : d.scene.relay.started <;>
        simp [attempt, hstarted, Except.toOption, Errand.owes]
  cases step with
  | forward path data => exact ⟨rfl, rfl, hbegin path (data.take bufferSize)⟩
  | sendPrimary data => exact ⟨rfl, rfl, hbegin d.scene.relay.config.primary data⟩
  | datagram data =>
      simp only [take, accept, Moment.asked?]
      split <;> exact ⟨rfl, rfl, _, rfl, by simp, by simp [Errand.owes]⟩
  | stop =>
      have hsame : (Relay.stop d.scene.network d.scene.relay).1.config = d.scene.relay.config ∧
          (Relay.stop d.scene.network d.scene.relay).1.parcels = d.scene.relay.parcels := by
        unfold Relay.stop
        split <;> exact ⟨rfl, rfl⟩
      refine ⟨hsame.1, hsame.2, [], ?_⟩
      simp [Depot.take, Moment.asked?]
  | ignoreAck | call | failure | network | clock =>
      refine ⟨rfl, rfl, [], ?_⟩
      simp [Depot.take, Moment.asked?]

theorem Relayed.take (h : Relayed d moments) (step : Relay.Step) :
    Relayed (d.take step) (moments ++ [⟨d, .take step⟩]) := by
  obtain ⟨hconfig, hparcels, more, hmore, hasked, howes⟩ := take_asked d step
  have hparcel := parcel_congr hconfig
  refine ⟨?_, ?_, ?_⟩
  · intro p hp
    rw [hparcels] at hp
    rw [hparcel]
    exact h.addressed p hp
  · intro path data
    have hlaw := h.sent path data
    have hfailed : Moment.failed? ⟨d, .take step⟩ = none := rfl
    rw [count_filterMap_concat, count_filterMap_concat, hfailed, hparcel, hparcels, hmore,
      List.count_append, hasked]
    simp only [reduceCtorEq, if_false]
    omega
  · intro path
    have hlaw := h.noted path
    have hnotes : Moment.notes path ⟨d, .take step⟩ = false := rfl
    rw [List.countP_append, List.countP_singleton, hnotes, hparcels, hmore, List.countP_append,
      howes]
    simp only [Bool.false_eq_true, if_false]
    omega

theorem Run.relayed (h : Run first moments last) (hrelayed : Relayed first []) :
    Relayed last moments := by
  induction h with
  | nil => exact hrelayed
  | snoc _ hstep ih =>
      cases hstep with
      | take d step => exact ih.take step
      | work scene before errand after => exact ih.work

theorem Run.config (h : Run first moments last) :
    last.scene.relay.config = first.scene.relay.config := by
  induction h with
  | nil => rfl
  | snoc _ hstep ih =>
      refine Eq.trans ?_ ih
      cases hstep with
      | take _ step => exact (take_asked _ step).1
      | work scene before errand after => exact work_config rfl

/-! ## Over the primary path -/

/-- A datagram for the path that is taken unless another one is asked for arrives on that path, if it
fits into the memory for it. -/
def Moment.overPrimary (m : Moment) : Moment :=
  match m.label with
  | .take (.sendPrimary data) =>
    if data.length ≤ bufferSize then
      { m with label := .take (.forward m.depot.scene.relay.config.primary data) }
    else m
  | _ => m

theorem Step.overPrimary (h : Step d label next) :
    Step d (Moment.overPrimary ⟨d, label⟩).label next := by
  cases h with
  | work scene before errand after => exact .work scene before errand after
  | take _ step =>
      cases step with
      | sendPrimary data =>
          simp only [Moment.overPrimary]
          split
          · rename_i hfits
            have harrives := Step.take d (.forward d.scene.relay.config.primary data)
            rwa [Depot.take, List.take_of_length_le hfits] at harrives
          · exact .take d _
      | datagram | forward | ignoreAck | stop | call | failure | network | clock => exact .take d _

/-- Only what happens is called by another name, and not the depot it happens to. -/
theorem Moment.overPrimary_eq (m : Moment) : m.overPrimary = ⟨m.depot, m.overPrimary.label⟩ := by
  unfold Moment.overPrimary
  split
  · split <;> rfl
  · rfl

/-- To ask for the primary path is to let a datagram arrive on it, if it is not too long: at no moment
of a run is there a difference. -/
theorem Run.overPrimary (h : Run first moments last) :
    Run first (moments.map Moment.overPrimary) last := by
  induction h with
  | nil => exact .nil _
  | @snoc last _ _ label _ hstep ih =>
      rw [List.map_append, List.map_singleton, Moment.overPrimary_eq ⟨last, label⟩]
      exact ih.snoc hstep.overPrimary

end

end Depot
end Relay
end Uplink
