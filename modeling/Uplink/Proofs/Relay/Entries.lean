import Uplink.Proofs.Relay.Accounting

/-!
# What is told of the queues

A relay asks the store to put a text into a queue, and then counts and tells that the text was queued.
What the store answers makes no difference to it.  So what is told of a queue are the entries that were
added to it and the texts that the store refused, together; and a text is refused while the store
fails, or while something else than a list is kept under the key of the queue.

As in the account of the relay, the law that every step keeps has a term for the datagrams under way.
-/

namespace Uplink

namespace Store

/-! ## Texts that are taken, and texts that are refused -/

section

variable {store : Store} {key value : String}

/-- A text is taken if the store works and keeps a list under the key, or nothing. -/
theorem push_isOk_iff :
    (store.push key value).1.isOk = true ↔ store.failure = none ∧ store.IsQueue key := by
  simp only [push, perform]
  cases store.failure with
  | some reason => simp [Except.map, Except.isOk, Except.toBool]
  | none =>
      simp only [Contents.apply, IsQueue]
      cases hfind : store.contents.find? key with
      | none => simp [Except.map, Except.isOk, Except.toBool]
      | some entry => cases entry <;> simp [Except.map, Except.isOk, Except.toBool]

/-- A text that is refused changes nothing of what is kept. -/
theorem contents_push_of_refused (h : (store.push key value).1.isOk = false) :
    (store.push key value).2.contents = store.contents := by
  simp only [push, perform] at h ⊢
  split
  · rfl
  · rename_i hfailure
    simp only [hfailure] at h
    split
    · rename_i hok
      rw [hok] at h
      cases h
    · rfl

end
end Store

namespace Relay

/-- The queue that an outcome tells of. -/
def Outcome.Kind.queue? : Outcome.Kind → Option String
  | .command => some Store.commandQueue
  | .relayAck => some Store.ackQueue
  | _ => none

namespace Errand

/-- A text that is to be put into a queue goes into the one that its outcome tells of. -/
def Filed : Errand → Prop
  | .queueing outcome key _ => outcome.kind.queue? = some key
  | _ => True

/-- It is known what became of it, and the observers do not know yet. -/
def decided (kind : Outcome.Kind) : Errand → Bool
  | .settled outcome | .counted outcome => outcome.kind = kind
  | _ => false

/-- A text is to be put into the queue under a key. -/
def queues (key : String) : Errand → Bool
  | .queueing _ key' _ => key' = key
  | _ => false

end Errand

section

variable {kind kind' : Outcome.Kind} {key : String}

theorem queue?_eq_some_iff : kind.queue? = some key ↔
    kind = .command ∧ key = Store.commandQueue ∨ kind = .relayAck ∧ key = Store.ackQueue := by
  cases kind <;> simp [Outcome.Kind.queue?, eq_comm]

/-- Each queue is told of by one kind of outcomes. -/
theorem queue?_inj (h : kind.queue? = some key) (h' : kind'.queue? = some key) : kind = kind' := by
  rcases queue?_eq_some_iff.mp h with ⟨rfl, rfl⟩ | ⟨rfl, rfl⟩
  · rcases queue?_eq_some_iff.mp h' with ⟨rfl, -⟩ | ⟨-, hkey⟩
    · rfl
    · exact absurd hkey commandQueue_ne_ackQueue
  · rcases queue?_eq_some_iff.mp h' with ⟨-, hkey⟩ | ⟨rfl, -⟩
    · exact absurd hkey.symm commandQueue_ne_ackQueue
    · rfl

/-- The times of the last datagrams are kept elsewhere. -/
theorem queue?_ne (h : kind.queue? = some key) :
    key ≠ Store.lastRelayKey ∧ key ≠ Store.lastPrivateRelayKey := by
  rcases queue?_eq_some_iff.mp h with ⟨-, rfl⟩ | ⟨-, rfl⟩ <;> decide

end

/-! ## One part of an errand -/

section

variable {network : Network} {clock : ℕ} {store store' : Store} {relay relay' : Relay}
  {errand : Errand} {rest : Option Errand} {kind : Outcome.Kind} {key : String}

theorem told_publish (relay : Relay) (outcome : Outcome) (kind : Outcome.Kind) :
    (relay.publish (.inbound outcome)).told kind =
      relay.told kind + if outcome.kind = kind then 1 else 0 := by
  simp [told, publish, Feed.publish, List.countP_cons]

/-- What becomes of a datagram is to be queued where its outcome tells, or tells of no queue. -/
theorem judge_queue (relay : Relay) (data : List UInt8) :
    (∃ outcome key text, (judge relay data).1 = .queueing outcome key text ∧
      outcome.kind.queue? = some key) ∨
    ∃ outcome, (judge relay data).1 = .settled outcome ∧ outcome.kind.queue? = none := by
  unfold judge sort
  split
  · split_ifs
    · exact .inl ⟨_, _, _, rfl, rfl⟩
    · exact .inr ⟨_, rfl, rfl⟩
    · exact .inl ⟨_, _, _, rfl, rfl⟩
    · exact .inr ⟨_, rfl, rfl⟩
  · exact .inr ⟨_, rfl, rfl⟩
  · exact .inr ⟨_, rfl, rfl⟩

/-- What is settled without a text is nothing that is told of a queue. -/
theorem kind_ne_of_queue? {outcome : Outcome} (h : outcome.kind.queue? = none)
    (hkind : kind.queue? = some key) : outcome.kind ≠ kind := by
  rintro rfl
  rw [h] at hkind
  cases hkind

/-- A part of an errand that is filed leaves one that is filed, and what was asked of a queue, told of
it or is still to be told of it is the same afterwards. -/
theorem work_filed (h : work network clock store relay errand = (rest, store', relay'))
    (hfiled : errand.Filed) : (∀ left ∈ rest, left.Filed) ∧
      ∀ kind key, kind.queue? = some key →
        relay.told kind + ((if errand.decided kind then 1 else 0) +
          if errand.queues key then 1 else 0) =
        relay'.told kind + rest.toList.countP (Errand.decided kind) := by
  cases errand with
  | arrived data =>
      have hwork : work network clock store relay (.arrived data) =
          (some (judge relay data).1, store, (judge relay data).2) := rfl
      rw [hwork] at h
      obtain ⟨rfl, -, rfl⟩ := Prod.mk.injEq .. ▸ h
      have htold : ∀ kind, (judge relay data).2.told kind = relay.told kind :=
        told_congr (judge_events relay data)
      rcases judge_queue relay data with ⟨outcome, key, text, hjudge, hqueue⟩ | ⟨outcome, hjudge, hnone⟩
      · rw [hjudge]
        refine ⟨by simpa [Errand.Filed] using hqueue, ?_⟩
        intro kind key' _
        simp [htold, Errand.decided, Errand.queues]
      · rw [hjudge]
        refine ⟨by simp [Errand.Filed], ?_⟩
        intro kind key hkind
        simp [htold, kind_ne_of_queue? hnone hkind, Errand.decided, Errand.queues]
  | queueing outcome key text =>
      cases h
      refine ⟨by simp [Errand.Filed], ?_⟩
      intro kind key' hkind
      -- the text goes into the queue of the kind exactly if it is the outcome of that kind
      have hiff : outcome.kind = kind ↔ key = key' := by
        constructor
        · rintro rfl
          exact Option.some.inj (hfiled.symm.trans hkind)
        · rintro rfl
          exact queue?_inj hfiled hkind
      simp [Errand.decided, Errand.queues, hiff]
  | counted outcome =>
      cases h
      refine ⟨by simp, ?_⟩
      intro kind key _
      simp [told_publish, Errand.decided, Errand.queues]
  | noted path =>
      cases h
      refine ⟨by simp, ?_⟩
      intro kind key _
      have htold : (relay.publish (.sent path)).told kind = relay.told kind := told_of_sent rfl kind
      simp [htold, Errand.decided, Errand.queues]
  | sending path data =>
      simp only [work] at h
      split at h
      all_goals
        cases h
        refine ⟨by simp [Errand.Filed], ?_⟩
        intro kind key _
        simp [told, Errand.decided, Errand.queues]
  | settled | unsent | sent | timing | noting =>
      cases h
      refine ⟨by simp [Errand.Filed], ?_⟩
      intro kind key _
      simp [told, Errand.decided, Errand.queues]

end

/-! ## What the store answers -/

namespace Errand

/-- A text is to be put into the queue under a key, and the store takes it. -/
def taken (store : Store) (key : String) : Errand → Bool
  | .queueing _ key' text => key' = key && (store.push key text).1.isOk
  | _ => false

/-- A text is to be put into the queue under a key, and the store refuses it. -/
def refused (store : Store) (key : String) : Errand → Bool
  | .queueing _ key' text => key' = key && !(store.push key text).1.isOk
  | _ => false

theorem queues_eq_taken_add_refused (store : Store) (key : String) (errand : Errand) :
    (if errand.queues key then 1 else 0) =
      (if errand.taken store key then 1 else 0) + if errand.refused store key then 1 else 0 := by
  cases errand with
  | queueing outcome key' text =>
      by_cases hkey : key' = key
      · cases hok : (store.push key text).1.isOk <;> simp [queues, taken, refused, hkey, hok]
      · simp [queues, taken, refused, hkey]
  | arrived | settled | counted | sending | unsent | sent | timing | noting | noted => rfl

/-- A text that is refused changes nothing. -/
theorem contents_of_refused {network : Network} {clock : ℕ} {store : Store} {relay : Relay}
    {key : String} {errand : Errand} (h : errand.refused store key = true) :
    (work network clock store relay errand).2.1.contents = store.contents := by
  cases errand with
  | queueing outcome key' text =>
      simp only [refused, Bool.and_eq_true, decide_eq_true_eq, Bool.not_eq_true'] at h
      obtain ⟨rfl, hrefused⟩ := h
      exact Store.contents_push_of_refused hrefused
  | arrived | settled | counted | sending | unsent | sent | timing | noting | noted => cases h

/-- A text is refused while the store fails, or because it keeps no list there. -/
theorem refused_iff (store : Store) (key : String) (errand : Errand) :
    errand.refused store key = true ↔
      errand.queues key = true ∧ (store.failure ≠ none ∨ ¬store.IsQueue key) := by
  cases errand with
  | queueing outcome key' text =>
      have hok : (store.push key text).1.isOk = false ↔
          store.failure ≠ none ∨ ¬store.IsQueue key := by
        rw [← Bool.not_eq_true, Store.push_isOk_iff]
        exact Classical.not_and_iff_not_or_not
      simp [queues, refused, hok]
  | arrived | settled | counted | sending | unsent | sent | timing | noting | noted =>
      simp [queues, refused]

end Errand

section

variable {network : Network} {clock : ℕ} {store store' : Store} {relay relay' : Relay}
  {errand : Errand} {rest : Option Errand} {key : String}

/-- A text that is taken is the new head of its queue, and nothing else is done to the queues. -/
theorem work_items (h : work network clock store relay errand = (rest, store', relay'))
    (hlast : key ≠ Store.lastRelayKey) (hprivate : key ≠ Store.lastPrivateRelayKey) :
    (store'.items key).length =
      (store.items key).length + if errand.taken store key then 1 else 0 := by
  cases errand with
  | queueing outcome key' text =>
      cases h
      by_cases hkey : key' = key
      · subst hkey
        cases hok : (store.push key' text).1.isOk with
        | true =>
            obtain ⟨hworks, hqueue⟩ := Store.push_isOk_iff.mp hok
            simp [Errand.taken, hok, Store.items_push hworks hqueue]
        | false =>
            have hsame := Store.contents_push_of_refused hok
            simp [Errand.taken, hok, Store.items, hsame]
      · have hframe := Store.items_congr (store.push_frame (Ne.symm hkey) text)
        simp [Errand.taken, hkey, hframe]
  | noting path time =>
      cases h
      have hframe := Store.items_congr (record_frame store time path hlast hprivate)
      simp [Errand.taken, hframe]
  | sending path data =>
      simp only [work] at h
      split at h <;> cases h <;> rfl
  | arrived | settled | counted | unsent | sent | timing | noted =>
      cases h
      rfl

end

namespace Depot

namespace Moment

/-- The store afterwards. -/
def storeAfter (m : Moment) : Store :=
  match m.label with
  | .work errand =>
    (work m.depot.scene.network m.depot.scene.clock m.depot.scene.store m.depot.scene.relay
      errand).2.1
  | .take step => (m.depot.take step).scene.store

/-- A text is to be put into the queue under a key. -/
def asks (key : String) (m : Moment) : Bool :=
  match m.label with
  | .work errand => errand.queues key
  | .take _ => false

/-- How many entries the relay adds to the queue under a key. -/
def added (key : String) (m : Moment) : ℕ :=
  match m.label with
  | .work _ => (m.storeAfter.items key).length - (m.depot.scene.store.items key).length
  | .take _ => 0

/-- The store refuses a text for the queue under a key. -/
def refuses (key : String) (m : Moment) : Bool :=
  match m.label with
  | .work errand => errand.refused m.depot.scene.store key
  | .take _ => false

variable {key : String} {m : Moment}

/-- A text that the relay asks to be queued is an entry more, or it is refused. -/
theorem asks_eq_added_add_refuses (hlast : key ≠ Store.lastRelayKey)
    (hprivate : key ≠ Store.lastPrivateRelayKey) :
    (if m.asks key then 1 else 0) = m.added key + if m.refuses key then 1 else 0 := by
  obtain ⟨⟨scene, underway⟩, label⟩ := m
  cases label with
  | take step => rfl
  | work errand =>
      rcases hwork : work scene.network scene.clock scene.store scene.relay errand with
        ⟨rest, store', relay'⟩
      simp only [asks, added, refuses, storeAfter, hwork, work_items hwork hlast hprivate,
        Nat.add_sub_cancel_left]
      exact errand.queues_eq_taken_add_refused scene.store key

theorem refuses_iff : m.refuses key = true ↔ m.asks key = true ∧
    (m.depot.scene.store.failure ≠ none ∨ ¬m.depot.scene.store.IsQueue key) := by
  obtain ⟨⟨scene, underway⟩, label⟩ := m
  cases label with
  | take step => simp [refuses, asks]
  | work errand => exact errand.refused_iff scene.store key

theorem contents_of_refuses (h : m.refuses key = true) :
    m.storeAfter.contents = m.depot.scene.store.contents := by
  obtain ⟨⟨scene, underway⟩, label⟩ := m
  cases label with
  | take step => cases h
  | work errand => exact Errand.contents_of_refused h

end Moment

/-- How many entries the relay added to the queue under a key. -/
def added (key : String) (moments : List Moment) : ℕ :=
  (moments.map (Moment.added key)).sum

/-- How many texts for the queue under a key were refused. -/
def refused (key : String) (moments : List Moment) : ℕ :=
  moments.countP (Moment.refuses key)

theorem countP_asks {key : String} (hlast : key ≠ Store.lastRelayKey)
    (hprivate : key ≠ Store.lastPrivateRelayKey) (moments : List Moment) :
    moments.countP (Moment.asks key) = added key moments + refused key moments := by
  induction moments with
  | nil => rfl
  | cons m moments ih =>
      have hmoment := m.asks_eq_added_add_refuses hlast hprivate
      simp only [added, refused, List.countP_cons, List.map_cons, List.sum_cons] at ih ⊢
      omega

/-! ## The law -/

/-- The outcomes of a kind that are known, and of which the observers do not know yet. -/
def untold (d : Depot) (kind : Outcome.Kind) : ℕ :=
  d.underway.countP (Errand.decided kind)

/-- Everything that is to be queued goes where its outcome tells. -/
def Filed (d : Depot) : Prop :=
  ∀ errand ∈ d.underway, errand.Filed

/-- A step that begins tells nobody anything.  What it adds to the datagrams under way is one that has
come in, or one that is to be sent. -/
theorem take_adds (d : Depot) (step : Relay.Step) :
    ∃ more, (d.take step).underway = d.underway ++ more ∧
      (∀ errand ∈ more, (∃ data, errand = .arrived data) ∨
        ∃ path data, errand = .sending path data) ∧
      (d.take step).scene.relay.events = d.scene.relay.events := by
  have hbegin : ∀ path data, ∀ errand ∈ (attempt d.scene.relay path data).toOption.toList,
      errand = .sending path data := by
    intro path data errand herrand
    unfold attempt at herrand
    split at herrand
    · exact List.mem_singleton.mp herrand
    · cases herrand
  cases step with
  | datagram data =>
      simp only [take, accept]
      split
      · exact ⟨_, rfl, by simp, rfl⟩
      · exact ⟨[], rfl, by simp, rfl⟩
  | forward path data => exact ⟨_, rfl, fun _ h => .inr ⟨_, _, hbegin _ _ _ h⟩, rfl⟩
  | sendPrimary data => exact ⟨_, rfl, fun _ h => .inr ⟨_, _, hbegin _ _ _ h⟩, rfl⟩
  | stop => exact ⟨[], (List.append_nil _).symm, by simp, (stop_same _ _).2⟩
  | ignoreAck | call | failure | network | clock =>
      exact ⟨[], (List.append_nil _).symm, by simp, rfl⟩

section

variable {d next first last : Depot} {label : Label} {moments : List Moment}
  {kind : Outcome.Kind} {key : String}

theorem Step.filed (h : Step d label next) (hfiled : d.Filed) : next.Filed := by
  cases h with
  | work scene before errand after =>
      rcases hwork : Relay.work scene.network scene.clock scene.store scene.relay errand with
        ⟨rest, store', relay'⟩
      have hrest := (work_filed hwork (hfiled errand (by simp))).1
      intro other hother
      simp only [advance, hwork, List.mem_append, Option.mem_toList] at hother
      rcases hother with hbefore | hleft | hafter
      · exact hfiled other (by simp [hbefore])
      · exact hrest other hleft
      · exact hfiled other (by simp [hafter])
  | take _ step =>
      obtain ⟨more, hmore, hfresh, -⟩ := take_adds d step
      intro errand herrand
      rw [hmore, List.mem_append] at herrand
      rcases herrand with hold | hnew
      · exact hfiled errand hold
      · rcases hfresh errand hnew with ⟨data, rfl⟩ | ⟨path, data, rfl⟩
        · trivial
        · trivial

/-- What was asked of a queue is told of it, or it is known and still to be told. -/
theorem Step.asked (h : Step d label next) (hfiled : d.Filed) (hkind : kind.queue? = some key) :
    d.scene.relay.told kind + d.untold kind + (if Moment.asks key ⟨d, label⟩ then 1 else 0) =
      next.scene.relay.told kind + next.untold kind := by
  cases h with
  | work scene before errand after =>
      rcases hwork : Relay.work scene.network scene.clock scene.store scene.relay errand with
        ⟨rest, store', relay'⟩
      have hpart := (work_filed hwork (hfiled errand (by simp))).2 kind key hkind
      have hasks : Moment.asks key ⟨⟨scene, before ++ errand :: after⟩, .work errand⟩ =
          errand.queues key := rfl
      rw [hasks]
      simp only [untold, advance, hwork, List.countP_append, List.countP_cons]
      omega
  | take _ step =>
      obtain ⟨more, hmore, hfresh, hevents⟩ := take_adds d step
      have hnone : more.countP (Errand.decided kind) = 0 := by
        rw [List.countP_eq_zero]
        intro errand herrand
        rcases hfresh errand herrand with ⟨data, rfl⟩ | ⟨path, data, rfl⟩ <;> simp [Errand.decided]
      rw [told_congr hevents, untold, untold, hmore, List.countP_append, hnone]
      rfl

theorem Run.asked (h : Run first moments last) (hfiled : first.Filed)
    (hkind : kind.queue? = some key) : last.Filed ∧
      first.scene.relay.told kind + first.untold kind + moments.countP (Moment.asks key) =
        last.scene.relay.told kind + last.untold kind := by
  induction h with
  | nil => exact ⟨hfiled, rfl⟩
  | snoc _ hstep ih =>
      obtain ⟨hlast, hsum⟩ := ih
      have hone := hstep.asked hlast hkind
      refine ⟨hstep.filed hlast, ?_⟩
      rw [List.countP_append, List.countP_singleton]
      omega

/-! ## What is told, and what is there -/

/-- What is told of a queue, when nothing is under way: the entries that were added to it and the texts
that were refused. -/
structure Entered (relay : Relay) (kind : Outcome.Kind) (key : String) (moments : List Moment) :
    Prop where
  told : relay.told kind = added key moments + refused key moments
  counter : relay.stats.outcome kind = .ofNat (added key moments + refused key moments)
  exact : relay.told kind = added key moments ↔ ∀ m ∈ moments, m.refuses key = false

/-- Whatever the store answers, the observers of a relay that was started are told of as many outcomes
of a queue as there are entries that the relay added to it and texts for it that were refused, up to
the outcomes that are still to be told.  So as many outcomes were told as entries were added exactly
if no text was refused; and a text is refused just if the store fails, or keeps something else than a
list under the key of the queue, and then nothing of what it keeps is changed. -/
theorem Run.entered {network network' : Network} {binding : Binding} {config : Config}
    (hstart : Relay.start network binding config = .ok (first.scene.relay, network'))
    (hidle : first.underway = []) (hrun : Run first moments last)
    (hkind : kind.queue? = some key) :
    last.scene.relay.told kind + last.untold kind = added key moments + refused key moments ∧
      (last.underway = [] → Entered last.scene.relay kind key moments) ∧
      ∀ m ∈ moments, (m.refuses key = true ↔ m.asks key = true ∧
          (m.depot.scene.store.failure ≠ none ∨ ¬m.depot.scene.store.IsQueue key)) ∧
        (m.refuses key = true → m.storeAfter.contents = m.depot.scene.store.contents) := by
  obtain ⟨hlast, hprivate⟩ := queue?_ne hkind
  have hrelay : first.scene.relay = { config, address := binding.address } := (start_eq_ok hstart).1
  have hfiled : first.Filed := by
    intro errand herrand
    rw [hidle] at herrand
    cases herrand
  have htold : first.scene.relay.told kind = 0 := by
    rw [hrelay]
    rfl
  have huntold : first.untold kind = 0 := by
    rw [untold, hidle]
    rfl
  have hlaw := (hrun.asked hfiled hkind).2
  rw [htold, huntold, countP_asks hlast hprivate] at hlaw
  refine ⟨by omega, ?_, ?_⟩
  · intro hrest
    have hnone : last.untold kind = 0 := by
      rw [untold, hrest]
      rfl
    have hsum : last.scene.relay.told kind = added key moments + refused key moments := by omega
    have hledger := hrun.ledger (hidle ▸ ledger_of_start hstart)
    rw [hrest] at hledger
    refine ⟨hsum, ?_, ?_⟩
    · rw [(balanced_of_ledger hledger).told kind, hsum]
    · rw [hsum, Nat.add_eq_left, refused, List.countP_eq_zero]
      simp
  · intro m _
    exact ⟨Moment.refuses_iff, Moment.contents_of_refuses⟩

end

/-- A message for the field device comes in and is queued.  Somebody keeps a text under the key of the
queue of acknowledgements, and an acknowledgement comes in; then the store fails, and another message
for the field device comes in. -/
def refusingScript : List (Option Relay.Step) :=
  [some (.datagram commandDatagram), none, none, none, none,
    some (.call (.writeText Store.ackQueue "x")), some (.datagram ackDatagram), none, none, none, none,
    some (.failure (some "down")), some (.datagram commandDatagram), none, none, none, none]

/-- What happens by that script. -/
def refusedMoments : List Moment :=
  ((⟨startedScene, []⟩ : Depot).follow refusingScript).1

/-- The depot after that script. -/
def refusedDepot : Depot :=
  ((⟨startedScene, []⟩ : Depot).follow refusingScript).2

theorem run_refusedDepot : Run ⟨startedScene, []⟩ refusedMoments refusedDepot :=
  run_follow ⟨startedScene, []⟩ refusingScript

/-- The first message is an entry; the acknowledgement and the second message were told, counted and
refused. -/
theorem Run.entered_refusedDepot :
    Entered refusedDepot.scene.relay .command Store.commandQueue refusedMoments ∧
      added Store.commandQueue refusedMoments = 1 ∧
      refused Store.commandQueue refusedMoments = 1 ∧
      Entered refusedDepot.scene.relay .relayAck Store.ackQueue refusedMoments ∧
      added Store.ackQueue refusedMoments = 0 ∧ refused Store.ackQueue refusedMoments = 1 := by
  have hrest : refusedDepot.underway = [] := by decide +kernel
  have hcommands := (Run.entered start_startedScene rfl run_refusedDepot
    (queue?_eq_some_iff.mpr (.inl ⟨rfl, rfl⟩))).2.1 hrest
  have hacks := (Run.entered start_startedScene rfl run_refusedDepot
    (queue?_eq_some_iff.mpr (.inr ⟨rfl, rfl⟩))).2.1 hrest
  exact ⟨hcommands, by decide +kernel, by decide +kernel, hacks, by decide +kernel,
    by decide +kernel⟩

/-- The observers are told of two messages for the field device, and there is one in the queue; they
are told of an acknowledgement, and there is none. -/
theorem told_not_added_refusedDepot :
    Run ⟨startedScene, []⟩ refusedMoments refusedDepot ∧ refusedDepot.underway = [] ∧
      refusedDepot.scene.relay.told .command = 2 ∧
      refusedDepot.scene.relay.stats.commands = 2 ∧
      added Store.commandQueue refusedMoments = 1 ∧
      (refusedDepot.scene.store.items Store.commandQueue).length = 1 ∧
      refusedDepot.scene.relay.told .relayAck = 1 ∧
      refusedDepot.scene.relay.stats.relayedAcks = 1 ∧
      added Store.ackQueue refusedMoments = 0 ∧
      refusedDepot.scene.store.items Store.ackQueue = [] :=
  ⟨run_refusedDepot, by decide +kernel, by decide +kernel, by decide +kernel, by decide +kernel,
    by decide +kernel, by decide +kernel, by decide +kernel, by decide +kernel, by decide +kernel⟩

end Depot
end Relay
end Uplink
