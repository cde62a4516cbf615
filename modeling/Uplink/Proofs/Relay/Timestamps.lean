import Uplink.Proofs.Relay.Parcels

/-!
# When datagrams were sent

A relay that has sent a datagram notes the time in the store: under one key for both paths, and under
another key, in the same call, for the private path.  The store may refuse the call, and then nothing
is noted of that datagram.

The clock is read in one part of an errand and the store is called in the next one, and parts of other
datagrams may come in between.  So the times are noted in the order in which they are read only where
no time is read while another one is still to be noted.
-/

namespace Uplink
namespace Relay

/-! ## Noting the time -/

/-- The call that notes the time. -/
def noteCall (clock : ℕ) : Path → Store.Call
  | .privateNet =>
    .writeTexts
      [(Store.lastRelayKey, toString clock), (Store.lastPrivateRelayKey, toString clock)]
  | .publicNet => .writeText Store.lastRelayKey (toString clock)

/-- The key is one of the two under which the time is noted. -/
def IsTimeKey (key : String) : Prop :=
  key = Store.lastRelayKey ∨ key = Store.lastPrivateRelayKey

section

variable {store : Store} {clock : ℕ} {path : Path} {key : String}

theorem record_eq (store : Store) (clock : ℕ) (path : Path) :
    record store clock path = (store.perform (noteCall clock path)).2 := by
  cases path <;> rfl

theorem perform_noteCall_isOk :
    (store.perform (noteCall clock path)).1.isOk = true ↔ store.failure = none := by
  cases hfailure : store.failure with
  | some reason => simp [Store.perform, hfailure, Except.isOk, Except.toBool]
  | none =>
      cases path <;>
        simp [Store.perform, hfailure, noteCall, Store.Contents.apply, Except.isOk, Except.toBool]

/-- While the store fails, nothing is noted. -/
theorem find?_record_of_failing (h : store.failure ≠ none) :
    (record store clock path).contents.find? key = store.contents.find? key := by
  obtain ⟨reason, hreason⟩ := Option.ne_none_iff_exists'.mp h
  simp [record_eq, Store.perform, hreason]

theorem find?_record_shared (h : store.failure = none) :
    (record store clock path).contents.find? Store.lastRelayKey =
      some (.text (toString clock)) := by
  have hne : Store.lastRelayKey ≠ Store.lastPrivateRelayKey := by decide
  cases path <;>
    simp [record_eq, Store.perform, h, noteCall, Store.Contents.apply, Keyed.insertAll,
      Keyed.find?_insert_of_ne hne]

theorem find?_record_private (h : store.failure = none) :
    (record store clock .privateNet).contents.find? Store.lastPrivateRelayKey =
      some (.text (toString clock)) := by
  simp [record_eq, Store.perform, h, noteCall, Store.Contents.apply, Keyed.insertAll]

/-- A datagram on the public path leaves the time of the private one alone. -/
theorem find?_record_public (store : Store) (clock : ℕ) :
    (record store clock .publicNet).contents.find? Store.lastPrivateRelayKey =
      store.contents.find? Store.lastPrivateRelayKey := by
  have hne : Store.lastPrivateRelayKey ≠ Store.lastRelayKey := by decide
  rw [record_eq]
  exact Store.perform_frame store (by simpa [Store.Call.writes, noteCall] using hne)

end

/-! ## One part of an errand -/

/-- The time that was read and is still to be noted. -/
def Errand.held? : Errand → Option ℕ
  | .noting _ time => some time
  | _ => none

section

variable {network : Network} {clock : ℕ} {store store' : Store} {relay relay' : Relay}
  {errand : Errand} {rest : Option Errand}

/-- Only the part that notes the time writes the keys of the times. -/
theorem work_timeKeys (h : work network clock store relay errand = (rest, store', relay'))
    (hfiled : errand.Filed) (hnoting : ∀ path time, errand ≠ .noting path time) {key : String}
    (hkey : IsTimeKey key) : store'.contents.find? key = store.contents.find? key := by
  cases errand with
  | noting path time => exact absurd rfl (hnoting path time)
  | queueing outcome queue text =>
      cases h
      have hne : key ≠ queue := by
        obtain ⟨hlast, hprivate⟩ := queue?_ne hfiled
        rcases hkey with rfl | rfl
        · exact Ne.symm hlast
        · exact Ne.symm hprivate
      exact store.push_frame hne text
  | sending path data =>
      simp only [work] at h
      split at h <;> cases h <;> rfl
  | arrived | settled | counted | unsent | sent | timing | noted =>
      cases h
      rfl

/-- Only where the clock is read a time is held afterwards. -/
theorem work_held (network : Network) (clock : ℕ) (store : Store) (relay : Relay) {errand : Errand}
    (htiming : ∀ path, errand ≠ .timing path) :
    (work network clock store relay errand).1.toList.filterMap Errand.held? = [] := by
  cases errand with
  | timing path => exact absurd rfl (htiming path)
  | arrived data =>
      have hnone : (judge relay data).1.held? = none := by
        rcases judge_queue relay data with ⟨_, _, _, h, -⟩ | ⟨_, h, -⟩ <;> rw [h] <;> rfl
      exact List.filterMap_cons_none hnone
  | sending path data =>
      simp only [work]
      split <;> rfl
  | queueing | settled | counted | unsent | sent | noting | noted => rfl

end

namespace Depot

/-! ## What is noted in a run -/

/-- The times that were read and are still to be noted. -/
def held (d : Depot) : List ℕ :=
  d.underway.filterMap Errand.held?

namespace Moment

/-- The time that is noted, with the path. -/
def record? (m : Moment) : Option (Path × ℕ) :=
  match m.label with
  | .work (.noting path time) =>
    if (m.depot.scene.store.perform (noteCall time path)).1.isOk then some (path, time) else none
  | _ => none

/-- Nobody else writes the keys of the times, and the clock does not go backwards. -/
def courteous (m : Moment) : Bool :=
  match m.label with
  | .take (.call call) => Store.lastRelayKey ∉ call.writes ∧ Store.lastPrivateRelayKey ∉ call.writes
  | .take (.clock time) => m.depot.scene.clock ≤ time
  | _ => true

/-- Where the clock is read, no time that was read before is still to be noted. -/
def inTurn (m : Moment) : Bool :=
  match m.label with
  | .work (.timing _) => m.depot.held.isEmpty
  | _ => true

end Moment

/-- The times that were noted, with the paths, the first one first. -/
def records (moments : List Moment) : List (Path × ℕ) :=
  moments.filterMap Moment.record?

theorem records_concat (moments : List Moment) (m : Moment) :
    records (moments ++ [m]) = records moments ++ m.record?.toList := by
  rw [records, List.filterMap_append, records]
  cases h : m.record? <;> simp [h]

/-- Under the keys stand the times that were noted last, and no time lies after the clock. -/
structure Stamped (d : Depot) (noted : List (Path × ℕ)) : Prop where
  sharedKey : d.scene.store.contents.find? Store.lastRelayKey =
    noted.getLast?.map fun r => .text (toString r.2)
  privateKey : d.scene.store.contents.find? Store.lastPrivateRelayKey =
    (noted.filter fun r => r.1 = .privateNet).getLast?.map fun r => .text (toString r.2)
  past : ∀ r ∈ noted, r.2 ≤ d.scene.clock
  read : ∀ time ∈ d.held, time ≤ d.scene.clock

/-- The times are noted in the order in which they were read, one at a time. -/
structure InOrder (d : Depot) (noted : List (Path × ℕ)) : Prop where
  single : d.held.length ≤ 1
  ordered : noted.Pairwise fun r r' => r.2 ≤ r'.2
  before : ∀ r ∈ noted, ∀ time ∈ d.held, r.2 ≤ time

section

variable {d : Depot} {noted : List (Path × ℕ)}

/-- The time that was noted last for the private path was noted for both paths, and so was one that was
noted after it or is the same. -/
theorem Stamped.both (h : Stamped d noted)
    (hprivate : d.scene.store.contents.find? Store.lastPrivateRelayKey ≠ none) :
    ∃ r ∈ noted, ∃ last, noted.getLast? = some last ∧
      d.scene.store.contents.find? Store.lastPrivateRelayKey = some (.text (toString r.2)) ∧
      d.scene.store.contents.find? Store.lastRelayKey = some (.text (toString last.2)) := by
  obtain ⟨r, hr⟩ : ∃ r, (noted.filter fun r => r.1 = .privateNet).getLast? = some r := by
    refine Option.ne_none_iff_exists'.mp ?_
    intro hnone
    rw [h.privateKey, hnone] at hprivate
    exact hprivate rfl
  have hmem : r ∈ noted := (List.mem_filter.mp (List.mem_of_getLast? hr)).1
  obtain ⟨last, hlast⟩ : ∃ last, noted.getLast? = some last :=
    Option.isSome_iff_exists.mp (List.getLast?_isSome.mpr (List.ne_nil_of_mem hmem))
  refine ⟨r, hmem, last, hlast, ?_, ?_⟩
  · rw [h.privateKey, hr]
    rfl
  · rw [h.sharedKey, hlast]
    rfl

theorem InOrder.le_last (h : InOrder d noted) {r last : Path × ℕ} (hmem : r ∈ noted)
    (hlast : noted.getLast? = some last) : r.2 ≤ last.2 := by
  obtain ⟨earlier, rfl⟩ := List.getLast?_eq_some_iff.mp hlast
  rcases List.mem_append.mp hmem with hold | hnew
  · exact (List.pairwise_append.mp h.ordered).2.2 r hold last (List.mem_singleton.mpr rfl)
  · rw [List.mem_singleton.mp hnew]

end

/-! ## What is noted step by step -/

section

variable {d next first last : Depot} {label : Label} {moments : List Moment}
  {noted : List (Path × ℕ)}

/-- A step that begins leaves the keys of the times alone, and the clock does not go back. -/
theorem take_courteous {step : Relay.Step}
    (hcourteous : Moment.courteous ⟨d, .take step⟩ = true) :
    d.scene.clock ≤ (d.take step).scene.clock ∧
      ∀ key, IsTimeKey key → (d.take step).scene.store.contents.find? key =
        d.scene.store.contents.find? key := by
  cases step with
  | call call =>
      simp only [Moment.courteous, decide_eq_true_eq] at hcourteous
      refine ⟨le_rfl, ?_⟩
      rintro key (rfl | rfl)
      · exact Store.perform_frame _ hcourteous.1
      · exact Store.perform_frame _ hcourteous.2
  | clock time => exact ⟨of_decide_eq_true hcourteous, fun _ _ => rfl⟩
  | datagram | forward | sendPrimary | ignoreAck | stop | failure | network =>
      exact ⟨le_rfl, fun _ _ => rfl⟩

/-- A datagram that has only begun holds no time. -/
theorem held_take (d : Depot) (step : Relay.Step) : (d.take step).held = d.held := by
  obtain ⟨more, hmore, hkinds, -⟩ := take_adds d step
  have hnone : more.filterMap Errand.held? = [] := by
    refine List.filterMap_eq_nil_iff.mpr ?_
    intro errand herrand
    rcases hkinds errand herrand with ⟨_, rfl⟩ | ⟨_, _, rfl⟩ <;> rfl
  rw [held, hmore, List.filterMap_append, hnone, List.append_nil, held]

/-- A part of an errand notes a time, or it leaves the keys of the times alone. -/
theorem advance_noted {scene : Scene} {before after : List Errand} {errand : Errand}
    (hfiled : errand.Filed) :
    (∃ path time, errand = .noting path time ∧ scene.store.failure = none ∧
      Moment.record? ⟨⟨scene, before ++ errand :: after⟩, .work errand⟩ = some (path, time) ∧
      (advance scene before errand after).scene.store = record scene.store time path) ∨
    Moment.record? ⟨⟨scene, before ++ errand :: after⟩, .work errand⟩ = none ∧
      ∀ key, IsTimeKey key → (advance scene before errand after).scene.store.contents.find? key =
        scene.store.contents.find? key := by
  by_cases hnoting : ∃ path time, errand = .noting path time
  · obtain ⟨path, time, rfl⟩ := hnoting
    by_cases hworks : scene.store.failure = none
    · exact .inl ⟨path, time, rfl, hworks, if_pos (perform_noteCall_isOk.mpr hworks), rfl⟩
    · refine .inr ⟨if_neg (mt perform_noteCall_isOk.mp hworks), ?_⟩
      intro key _
      exact find?_record_of_failing hworks
  · simp only [not_exists] at hnoting
    rcases hwork : work scene.network scene.clock scene.store scene.relay errand with
      ⟨rest, store', relay'⟩
    refine .inr ⟨?_, ?_⟩
    · unfold Moment.record?
      split
      · rename_i path time hlabel
        exact absurd (Label.work.inj hlabel) (hnoting path time)
      · rfl
    · intro key hkey
      rw [advance, hwork]
      exact work_timeKeys hwork hfiled hnoting hkey

/-- What a step does about the times that are still to be noted: the clock is read, or one of them is
noted or lost, or it does nothing about them. -/
inductive Holds (d : Depot) (label : Label) (next : Depot) : Prop where
  | same (held : next.held = d.held) (record : Moment.record? ⟨d, label⟩ = none)
  | reads (path : Path) (timing : label = .work (.timing path)) (before after : List ℕ)
      (held : d.held = before ++ after) (held' : next.held = before ++ d.scene.clock :: after)
      (record : Moment.record? ⟨d, label⟩ = none)
  | notes (time : ℕ) (before after : List ℕ) (held : d.held = before ++ time :: after)
      (held' : next.held = before ++ after)
      (record : ∀ r ∈ Moment.record? ⟨d, label⟩, r.2 = time)

theorem held_advance (scene : Scene) (before : List Errand) (errand : Errand) (after : List Errand) :
    (advance scene before errand after).held =
      before.filterMap Errand.held? ++
        ((Relay.work scene.network scene.clock scene.store scene.relay errand).1.toList.filterMap
          Errand.held? ++ after.filterMap Errand.held?) := by
  rw [held, advance, List.filterMap_append, List.filterMap_append]

theorem Step.holds (h : Step d label next) : Holds d label next := by
  cases h with
  | take _ step => exact .same (held_take d step) rfl
  | work scene before errand after =>
      have hheld : held ⟨scene, before ++ errand :: after⟩ =
          before.filterMap Errand.held? ++ (errand :: after).filterMap Errand.held? :=
        List.filterMap_append
      have hadvance := held_advance scene before errand after
      cases errand with
      | timing path => exact .reads path rfl _ _ hheld hadvance rfl
      | noting path time =>
          refine .notes time _ _ hheld hadvance ?_
          intro r hr
          simp only [Moment.record?] at hr
          split at hr
          · cases hr
            rfl
          · cases hr
      | arrived | queueing | settled | counted | sending | unsent | sent | noted =>
          rw [work_held _ _ _ _ (fun _ => Errand.noConfusion)] at hadvance
          exact .same (hadvance.trans hheld.symm) rfl

/-- The clock does not go back in a courteous step, and it writes the keys only where it notes a time
that was still to be noted. -/
theorem Step.keys (h : Step d label next) (hfiled : d.Filed)
    (hcourteous : Moment.courteous ⟨d, label⟩ = true) :
    d.scene.clock ≤ next.scene.clock ∧
      ((∃ path time, time ∈ d.held ∧ d.scene.store.failure = none ∧
        Moment.record? ⟨d, label⟩ = some (path, time) ∧
        next.scene.store = record d.scene.store time path) ∨
      Moment.record? ⟨d, label⟩ = none ∧ ∀ key, IsTimeKey key →
        next.scene.store.contents.find? key = d.scene.store.contents.find? key) := by
  cases h with
  | take _ step =>
      obtain ⟨hclock, hkeys⟩ := take_courteous hcourteous
      exact ⟨hclock, .inr ⟨rfl, hkeys⟩⟩
  | work scene before errand after =>
      refine ⟨le_rfl, ?_⟩
      rcases advance_noted (hfiled errand (by simp)) with
        ⟨path, time, rfl, hworks, hrecord, hstore⟩ | hsame
      · exact .inl ⟨path, time, by simp [held, Errand.held?], hworks, hrecord, hstore⟩
      · exact .inr hsame

theorem Step.stamped (h : Step d label next) (hfiled : d.Filed)
    (hcourteous : Moment.courteous ⟨d, label⟩ = true) (hstamped : Stamped d noted) :
    Stamped next (noted ++ (Moment.record? ⟨d, label⟩).toList) := by
  obtain ⟨hclock, hkeys⟩ := h.keys hfiled hcourteous
  have hread : ∀ time ∈ next.held, time ≤ next.scene.clock := by
    intro time htime
    refine le_trans ?_ hclock
    cases h.holds with
    | same hheld => exact hstamped.read time (hheld ▸ htime)
    | reads _ _ before after hheld hheld' =>
        rw [hheld', List.mem_append, List.mem_cons] at htime
        rcases htime with hbefore | rfl | hafter
        · exact hstamped.read time (hheld ▸ List.mem_append_left _ hbefore)
        · exact le_rfl
        · exact hstamped.read time (hheld ▸ List.mem_append_right _ hafter)
    | notes noted' before after hheld hheld' =>
        rw [hheld', List.mem_append] at htime
        refine hstamped.read time ?_
        rw [hheld, List.mem_append, List.mem_cons]
        exact htime.imp_right .inr
  have hpast : ∀ r ∈ noted, r.2 ≤ next.scene.clock := fun r hr => (hstamped.past r hr).trans hclock
  rcases hkeys with ⟨path, time, htime, hworks, hrecord, hstore⟩ | ⟨hrecord, hsame⟩
  · rw [hrecord]
    refine ⟨?_, ?_, ?_, hread⟩
    · rw [hstore, find?_record_shared hworks]
      simp
    · rw [hstore]
      cases path with
      | privateNet => simp [find?_record_private hworks]
      | publicNet => simpa [find?_record_public] using hstamped.privateKey
    · intro r hr
      rcases List.mem_append.mp hr with hold | hnew
      · exact hpast r hold
      · rw [List.mem_singleton.mp hnew]
        exact (hstamped.read time htime).trans hclock
  · rw [hrecord, Option.toList_none, List.append_nil]
    exact ⟨(hsame _ (.inl rfl)).trans hstamped.sharedKey,
      (hsame _ (.inr rfl)).trans hstamped.privateKey, hpast, hread⟩

/-- As long as no time is read while another one is still to be noted, the times are noted in order. -/
theorem Step.inOrder (h : Step d label next) (hturn : Moment.inTurn ⟨d, label⟩ = true)
    (hstamped : Stamped d noted) (horder : InOrder d noted) :
    InOrder next (noted ++ (Moment.record? ⟨d, label⟩).toList) := by
  cases h.holds with
  | same hheld hrecord =>
      rw [hrecord, Option.toList_none, List.append_nil]
      exact ⟨hheld ▸ horder.single, horder.ordered, hheld ▸ horder.before⟩
  | reads path hlabel before after hheld hheld' hrecord =>
      subst hlabel
      have hnone : d.held = [] := List.isEmpty_iff.mp hturn
      obtain ⟨rfl, rfl⟩ := List.append_eq_nil_iff.mp (hheld.symm.trans hnone)
      rw [hrecord, Option.toList_none, List.append_nil]
      refine ⟨by simp [hheld'], horder.ordered, ?_⟩
      intro r hr time htime
      rw [hheld', List.nil_append, List.mem_singleton] at htime
      exact htime ▸ hstamped.past r hr
  | notes time before after hheld hheld' hrecord =>
      have hsingle := horder.single
      rw [hheld, List.length_append, List.length_cons] at hsingle
      have hnone : next.held = [] := by
        rw [hheld', List.append_eq_nil_iff, ← List.length_eq_zero_iff, ← List.length_eq_zero_iff]
        omega
      refine ⟨by simp [hnone], ?_, by simp [hnone]⟩
      have hrecords : ((Moment.record? ⟨d, label⟩).toList).Pairwise fun r r' => r.2 ≤ r'.2 := by
        cases Moment.record? ⟨d, label⟩ <;> simp
      refine List.pairwise_append.mpr ⟨horder.ordered, hrecords, ?_⟩
      intro r hr r' hr'
      rw [hrecord r' (Option.mem_toList.mp hr')]
      exact horder.before r hr time (by simp [hheld])

theorem Run.stamped (h : Run first moments last) (hfiled : first.Filed)
    (hcourteous : ∀ m ∈ moments, m.courteous = true) (hstamped : Stamped first []) :
    last.Filed ∧ Stamped last (records moments) := by
  induction h with
  | nil => exact ⟨hfiled, hstamped⟩
  | snoc _ hstep ih =>
      obtain ⟨hlast, hnoted⟩ := ih (fun m hm => hcourteous m (List.mem_append_left _ hm))
      refine ⟨hstep.filed hlast, ?_⟩
      rw [records_concat]
      exact hstep.stamped hlast (hcourteous _ (by simp)) hnoted

theorem Run.inOrder (h : Run first moments last) (hfiled : first.Filed)
    (hcourteous : ∀ m ∈ moments, m.courteous = true) (hstamped : Stamped first [])
    (hturn : ∀ m ∈ moments, m.inTurn = true) (horder : InOrder first []) :
    InOrder last (records moments) := by
  induction h with
  | nil => exact horder
  | snoc hrun hstep ih =>
      have hbefore : ∀ {p : Moment → Prop} {ms : List Moment} {m : Moment},
          (∀ m' ∈ ms ++ [m], p m') → ∀ m' ∈ ms, p m' :=
        fun hall m' hm' => hall m' (List.mem_append_left _ hm')
      rw [records_concat]
      exact hstep.inOrder (hturn _ (by simp)) (hrun.stamped hfiled (hbefore hcourteous) hstamped).2
        (ih (hbefore hcourteous) (hbefore hturn))

end

/-! ## Who writes the keys -/

/-- The keys of the times change only where a time is noted, and the key of the private path only where
it is noted for that path. -/
structure Moment.Reserved (m : Moment) : Prop where
  sharedKey : m.storeAfter.contents.find? Store.lastRelayKey ≠
      m.depot.scene.store.contents.find? Store.lastRelayKey →
    ∃ path time, m.label = .work (.noting path time) ∧ m.record? = some (path, time)
  privateKey : m.storeAfter.contents.find? Store.lastPrivateRelayKey ≠
      m.depot.scene.store.contents.find? Store.lastPrivateRelayKey →
    ∃ time, m.label = .work (.noting .privateNet time) ∧ m.record? = some (.privateNet, time)

section

variable {d next first last : Depot} {label : Label} {moments : List Moment}

theorem Step.reserved (h : Step d label next) (hfiled : d.Filed)
    (hcourteous : Moment.courteous ⟨d, label⟩ = true) : Moment.Reserved ⟨d, label⟩ := by
  cases h with
  | take _ step =>
      obtain ⟨-, hkeys⟩ := take_courteous hcourteous
      constructor
      · intro hchanged
        exact absurd (hkeys _ (.inl rfl)) hchanged
      · intro hchanged
        exact absurd (hkeys _ (.inr rfl)) hchanged
  | work scene before errand after =>
      rcases advance_noted (hfiled errand (by simp)) with
        ⟨path, time, rfl, hworks, hrecord, hstore⟩ | ⟨-, hkeys⟩
      · refine ⟨fun _ => ⟨path, time, rfl, hrecord⟩, ?_⟩
        intro hchanged
        cases path with
        | privateNet => exact ⟨time, rfl, hrecord⟩
        | publicNet => exact absurd (find?_record_public _ _) hchanged
      · constructor
        · intro hchanged
          exact absurd (hkeys _ (.inl rfl)) hchanged
        · intro hchanged
          exact absurd (hkeys _ (.inr rfl)) hchanged

theorem Run.reserved (h : Run first moments last) (hfiled : first.Filed)
    (hcourteous : ∀ m ∈ moments, m.courteous = true) :
    last.Filed ∧ ∀ m ∈ moments, m.Reserved := by
  induction h with
  | nil => exact ⟨hfiled, by simp⟩
  | snoc _ hstep ih =>
      obtain ⟨hlast, hreserved⟩ := ih (fun m hm => hcourteous m (List.mem_append_left _ hm))
      refine ⟨hstep.filed hlast, ?_⟩
      intro m hm
      rcases List.mem_append.mp hm with hold | hnew
      · exact hreserved m hold
      · rw [List.mem_singleton.mp hnew]
        exact hstep.reserved hlast (hcourteous _ (by simp))

end

/-! ## The bookkeeping -/

/-- What is noted of the datagrams that a relay sends, and what is sent. -/
structure Bookkept (first : Depot) (moments : List Moment) (last : Depot) : Prop where
  stamped : Stamped last (records moments)
  both : last.scene.store.contents.find? Store.lastPrivateRelayKey ≠ none →
    ∃ lastPrivate last' : ℕ,
      last.scene.store.contents.find? Store.lastPrivateRelayKey =
        some (.text (toString lastPrivate)) ∧
      last.scene.store.contents.find? Store.lastRelayKey = some (.text (toString last')) ∧
      ((∀ m ∈ moments, m.inTurn = true) → lastPrivate ≤ last')
  ordered : (∀ m ∈ moments, m.inTurn = true) →
    (records moments).Pairwise fun r r' => r.2 ≤ r'.2
  reserved : ∀ m ∈ moments, m.Reserved
  config : last.scene.relay.config = first.scene.relay.config
  relayed : Relayed last moments
  overPrimary : Run first (moments.map Moment.overPrimary) last

section

variable {first last : Depot} {moments : List Moment}

/-- Of a relay that was started in a store without times, while nobody else writes the times and the
clock does not go backwards, the following holds at any time.  Under the key for both paths stands the
time that was noted last, and under the key of the private path the time that was noted last for that
path, each as it was noted; the first is there if the second is.  It is not earlier than the second if no
time was read while another one was still to be noted: then the times are noted in their order.  The
keys change only where a time is noted, the second one only for the private path.  The time is noted of
datagrams that were sent, and of no others; each datagram is sent, as it is asked for or as it was read,
to the host and port that are configured for its path, or it cannot be sent.  And it makes no difference
whether the relay is asked to send a datagram over its primary path or the datagram arrives on that
path, if it fits into the memory for what arrives. -/
theorem Run.bookkept {network network' : Network} {binding : Binding} {config : Config}
    (hstart : Relay.start network binding config = .ok (first.scene.relay, network'))
    (hidle : first.underway = [])
    (habsent : ∀ key, IsTimeKey key → first.scene.store.contents.find? key = none)
    (hrun : Run first moments last) (hcourteous : ∀ m ∈ moments, m.courteous = true) :
    Bookkept first moments last := by
  have hrelay : first.scene.relay = { config, address := binding.address } := (start_eq_ok hstart).1
  have hfiled : first.Filed := by
    intro errand herrand
    rw [hidle] at herrand
    cases herrand
  have hheld : first.held = [] := by rw [held, hidle, List.filterMap_nil]
  have hstamped : Stamped first [] :=
    ⟨habsent _ (.inl rfl), habsent _ (.inr rfl), by simp, by simp [hheld]⟩
  have horder : InOrder first [] := ⟨by simp [hheld], .nil, by simp⟩
  have hrelayed : Relayed first [] := by
    refine ⟨?_, ?_, ?_⟩ <;> simp [hrelay, hidle]
  have hlast := (hrun.stamped hfiled hcourteous hstamped).2
  have hinOrder := fun hturn => hrun.inOrder hfiled hcourteous hstamped hturn horder
  refine ⟨hlast, ?_, fun hturn => (hinOrder hturn).ordered,
    (hrun.reserved hfiled hcourteous).2, hrun.config, hrun.relayed hrelayed, hrun.overPrimary⟩
  intro hprivate
  obtain ⟨r, hmem, r', hgetLast, hprivate, hshared⟩ := hlast.both hprivate
  exact ⟨r.2, r'.2, hprivate, hshared, fun hturn => (hinOrder hturn).le_last hmem hgetLast⟩

end

/-! ## One datagram after the other -/

/-- A network that everything gets through. -/
def openNetwork : Network :=
  { startedScene.network with route := fun _ _ => some .unspecified }

/-- At five a datagram arrives on the private path.  The store fails when another one is sent over that
path at six, and works when one is sent over the primary path at nine; and one more cannot be sent. -/
def relayingScript : List (Option Relay.Step) :=
  [some (.network openNetwork), some (.clock 5), some (.forward .privateNet [1]), none, none, none,
    none, none, some (.failure (some "down")), some (.clock 6), some (.forward .privateNet [2]), none,
    none, none, none, none, some (.failure none), some (.clock 9), some (.sendPrimary [3]), none, none,
    none, none, none, some (.network .isolated), some (.clock 12), some (.forward .privateNet [4]), none,
    none]

/-- What happens by that script. -/
def relayedMoments : List Moment :=
  ((⟨startedScene, []⟩ : Depot).follow relayingScript).1

/-- The depot after that script. -/
def relayedDepot : Depot :=
  ((⟨startedScene, []⟩ : Depot).follow relayingScript).2

/-- Nine is noted for both paths, and five for the private one. -/
theorem Run.bookkept_relayedDepot :
    Bookkept ⟨startedScene, []⟩ relayedMoments relayedDepot ∧
      records relayedMoments = [(.privateNet, 5), (.publicNet, 9)] ∧
      (records relayedMoments).Pairwise (fun r r' => r.2 ≤ r'.2) ∧
      relayedDepot.scene.store.text? Store.lastRelayKey = some "9" ∧
      relayedDepot.scene.store.text? Store.lastPrivateRelayKey = some "5" ∧
      relayedDepot.scene.relay.parcels.map Parcel.data = [[3], [2], [1]] := by
  have hrun : Run ⟨startedScene, []⟩ relayedMoments relayedDepot := run_follow _ relayingScript
  have habsent : ∀ key, IsTimeKey key →
      (⟨startedScene, []⟩ : Depot).scene.store.contents.find? key = none := fun _ _ => rfl
  have hbookkept := Run.bookkept start_startedScene rfl habsent hrun (by decide +kernel)
  refine ⟨hbookkept, by decide +kernel, hbookkept.ordered (by decide +kernel), ?_⟩
  exact ⟨by decide +kernel, by decide +kernel, by decide +kernel⟩

/-! ## Two datagrams side by side, and one that is too long -/

/-- A datagram was sent over the primary path, which is the public one, and five was read for it.  At
nine another one arrives on the private path. -/
def overtakenDepot : Depot :=
  ((⟨startedScene, []⟩ : Depot).follow
    [some (.network openNetwork), some (.clock 5), some (.sendPrimary [1]), none, none, none,
      some (.clock 9), some (.forward .privateNet [2])]).2

/-- The second datagram is sent, nine is noted for both paths, and then five for the first one. -/
def belatedDepot : Depot :=
  let sent := advance overtakenDepot.scene [.noting .publicNet 5] (.sending .privateNet [2]) []
  let counted := advance sent.scene [.noting .publicNet 5] (.sent .privateNet) []
  let timed := advance counted.scene [.noting .publicNet 5] (.timing .privateNet) []
  let noted := advance timed.scene [.noting .publicNet 5] (.noting .privateNet 9) []
  advance noted.scene [] (.noting .publicNet 5) [.noted .privateNet]

/-- An address of version 6. -/
def wideAddress : Address :=
  .v6 (.ofFn fun i => if i = 7 then 1 else 0)

/-- A network of version 6. -/
def wideNetwork : Network :=
  { startedScene.network with route := fun _ _ => some wideAddress }

/-- More than is read of a datagram, and less than can be sent in that network. -/
def longDatagram : List UInt8 :=
  .replicate 65520 0

/-- What gets on its way leaves as it was to be sent. -/
theorem parcels_advance {scene : Scene} {path : Path} {data : List UInt8}
    (h : sends scene.network scene.relay path data = true) (before after : List Errand) :
    (advance scene before (.sending path data) after).scene.relay.parcels =
      scene.relay.parcel path data :: scene.relay.parcels := by
  cases hsent : scene.network.send (scene.relay.config.destination path).1
      (scene.relay.config.destination path).2 data with
  | ok _ => simp [advance, Relay.work, hsent, parcel]
  | error failure => simp [sends, hsent, Except.isOk, Except.toBool] at h

/-- The primary path carries datagrams up to the limit of version 6. -/
theorem sends_wideNetwork {data : List UInt8} (h : data.length ≤ 65527) :
    sends wideNetwork startedScene.relay .publicNet data = true := by
  have hcarries : ∀ host port, wideNetwork.carries host port data.length = true := by
    intro host port
    have hlimit : wideAddress.datagramLimit = 65527 := by decide
    simpa [Network.carries, wideNetwork, hlimit] using h
  simp [sends, Network.send, hcarries, Except.isOk, Except.toBool]

/-- Where two datagrams are sent side by side, the time under the key for both paths may be earlier than
the one under the key of the private path.  And a datagram that is too long for the memory of the relay
leaves cut if it arrives, and as it is if the relay is asked to send it over the same path. -/
theorem bookkept_otherwise_belatedDepot :
    (∃ moments, Run ⟨startedScene, []⟩ moments belatedDepot ∧
      (∀ m ∈ moments, m.courteous = true) ∧
      belatedDepot.scene.store.text? Store.lastRelayKey = some "5" ∧
      belatedDepot.scene.store.text? Store.lastPrivateRelayKey = some "9") ∧
    ∃ arrived asked : Depot,
      (∃ moments, Run ⟨startedScene, []⟩ moments arrived ∧ moments.map Moment.label =
        [.take (.network wideNetwork), .take (.forward .publicNet longDatagram),
          .work (.sending .publicNet (longDatagram.take bufferSize))]) ∧
      arrived.scene.relay.parcels =
        [startedScene.relay.parcel .publicNet (List.replicate 65507 0)] ∧
      (∃ moments, Run ⟨startedScene, []⟩ moments asked ∧ moments.map Moment.label =
        [.take (.network wideNetwork), .take (.sendPrimary longDatagram),
          .work (.sending .publicNet longDatagram)]) ∧
      asked.scene.relay.parcels = [startedScene.relay.parcel .publicNet longDatagram] := by
  have hcut : longDatagram.take bufferSize = List.replicate 65507 0 := List.take_replicate
  have hcutLength : (longDatagram.take bufferSize).length ≤ 65527 := by
    rw [hcut, List.length_replicate]
    omega
  have hlength : longDatagram.length ≤ 65527 := by
    rw [longDatagram, List.length_replicate]
    omega
  constructor
  · have hovertaken := run_follow (⟨startedScene, []⟩ : Depot)
      [some (.network openNetwork), some (.clock 5), some (.sendPrimary [1]), none, none, none,
        some (.clock 9), some (.forward .privateNet [2])]
    have hsent := hovertaken.snoc (.work_of_underway [.noting .publicNet 5]
      (.sending .privateNet [2]) [] (by decide +kernel))
    have hcounted := hsent.snoc (.work_of_underway [.noting .publicNet 5]
      (.sent .privateNet) [] (by decide +kernel))
    have htimed := hcounted.snoc (.work_of_underway [.noting .publicNet 5]
      (.timing .privateNet) [] (by decide +kernel))
    have hnoted := htimed.snoc (.work_of_underway [.noting .publicNet 5]
      (.noting .privateNet 9) [] (by decide +kernel))
    refine ⟨_, hnoted.snoc (.work_of_underway [] (.noting .publicNet 5) [.noted .privateNet]
      (by decide +kernel)), by decide +kernel, by decide +kernel, by decide +kernel⟩
  · let scene : Scene := { startedScene with network := wideNetwork }
    have hwide := Run.single (.take ⟨startedScene, []⟩ (.network wideNetwork))
    have hparcels : ∀ data : List UInt8, data.length ≤ 65527 →
        (advance scene [] (.sending .publicNet data) []).scene.relay.parcels =
          [startedScene.relay.parcel .publicNet data] :=
      fun data hdata => parcels_advance (sends_wideNetwork hdata) [] []
    refine ⟨advance scene [] (.sending .publicNet (longDatagram.take bufferSize)) [],
      advance scene [] (.sending .publicNet longDatagram) [], ⟨_, (hwide.snoc (.take _
        (.forward .publicNet longDatagram))).snoc (.work scene [] _ []), rfl⟩, ?_,
      ⟨_, (hwide.snoc (.take _ (.sendPrimary longDatagram))).snoc (.work scene [] _ []), rfl⟩,
      hparcels _ hlength⟩
    exact hcut ▸ hparcels _ hcutLength

end Depot
end Relay
end Uplink

