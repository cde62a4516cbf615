import Uplink.Proofs.Relay.Announcement
import Uplink.Proofs.Relay.Errands

/-!
# The account balances

Each datagram is counted when it comes in and once more when it is known what became of it; each
attempt to send one is counted by how it ended; the observers are told the same.  While datagrams are
under way the counters differ from each other by those that are between two counts.  So the law that
every step keeps has a term for the datagrams under way, and when nothing is under way the account
balances.

The counters are taken modulo `2 ^ 64`.
-/

namespace Uplink
namespace Relay

namespace Outcome

/-- What became of a datagram, without its number or type. -/
inductive Kind where
  | command
  | relayAck
  | ignoreAck
  | crcError
  | decodeError
  | unexpectedType
  deriving DecidableEq, Repr

/-- The kind of an outcome. -/
def kind : Outcome → Kind
  | .command => .command
  | .relayAck _ => .relayAck
  | .ignoreAck _ => .ignoreAck
  | .crcError => .crcError
  | .decodeError => .decodeError
  | .unexpectedType _ => .unexpectedType

end Outcome

namespace Stats

/-- The counter of a kind of outcomes. -/
def outcome (stats : Stats) : Outcome.Kind → UInt64
  | .command => stats.commands
  | .relayAck => stats.relayedAcks
  | .ignoreAck => stats.ignoredAcks
  | .crcError => stats.crcErrors
  | .decodeError => stats.decodeErrors
  | .unexpectedType => stats.unexpectedTypes

/-- The counter of a path. -/
def sent (stats : Stats) : Path → UInt64
  | .privateNet => stats.sentPrivate
  | .publicNet => stats.sentPublic

/-- All outcomes together. -/
def outcomes (stats : Stats) : UInt64 :=
  stats.commands + stats.relayedAcks + stats.ignoredAcks + stats.crcErrors + stats.decodeErrors +
    stats.unexpectedTypes

/-- All attempts to send a datagram that have ended. -/
def attempts (stats : Stats) : UInt64 :=
  stats.sentPrivate + stats.sentPublic + stats.sendErrors

section

variable (stats : Stats) (o : Outcome) (kind : Outcome.Kind) (path path' : Path)

@[simp]
theorem received_countOutcome : (stats.countOutcome o).received = stats.received := by
  cases o <;> rfl

@[simp]
theorem outcome_countOutcome :
    (stats.countOutcome o).outcome kind = stats.outcome kind + if o.kind = kind then 1 else 0 := by
  cases o <;> cases kind <;> simp [countOutcome, outcome, Outcome.kind]

@[simp]
theorem outcomes_countOutcome : (stats.countOutcome o).outcomes = stats.outcomes + 1 := by
  cases o <;> simp only [countOutcome, outcomes] <;> ac_rfl

@[simp]
theorem sent_countOutcome : (stats.countOutcome o).sent path = stats.sent path := by
  cases o <;> cases path <;> rfl

@[simp]
theorem attempts_countOutcome : (stats.countOutcome o).attempts = stats.attempts := by
  cases o <;> rfl

@[simp]
theorem received_countSent : (stats.countSent path).received = stats.received := by
  cases path <;> rfl

@[simp]
theorem outcome_countSent : (stats.countSent path).outcome kind = stats.outcome kind := by
  cases path <;> cases kind <;> rfl

@[simp]
theorem outcomes_countSent : (stats.countSent path).outcomes = stats.outcomes := by
  cases path <;> rfl

@[simp]
theorem sent_countSent :
    (stats.countSent path).sent path' = stats.sent path' + if path = path' then 1 else 0 := by
  cases path <;> cases path' <;> simp [countSent, sent]

@[simp]
theorem attempts_countSent : (stats.countSent path).attempts = stats.attempts + 1 := by
  cases path <;> simp only [countSent, attempts] <;> ac_rfl

@[simp]
theorem outcome_countSendError : stats.countSendError.outcome kind = stats.outcome kind := by
  cases kind <;> rfl

@[simp]
theorem sent_countSendError : stats.countSendError.sent path = stats.sent path := by
  cases path <;> rfl

@[simp]
theorem attempts_countSendError : stats.countSendError.attempts = stats.attempts + 1 := by
  simp only [countSendError, attempts]
  ac_rfl

@[simp]
theorem outcome_countReceived : stats.countReceived.outcome kind = stats.outcome kind := by
  cases kind <;> rfl

@[simp]
theorem sent_countReceived : stats.countReceived.sent path = stats.sent path := by
  cases path <;> rfl

end
end Stats

/-! ## Datagrams between two counts -/

namespace Errand

/-- It was counted when it came in, and not yet by what became of it. -/
def unsettled : Errand → Bool
  | .arrived _ | .queueing _ _ _ | .settled _ => true
  | _ => false

/-- It was counted by what became of it, and the observers do not know yet. -/
def tells (kind : Outcome.Kind) : Errand → Bool
  | .counted outcome => outcome.kind = kind
  | _ => false

/-- It was attempted to send it, and how that ended is not counted yet. -/
def attempted : Errand → Bool
  | .sending _ _ | .unsent | .sent _ => true
  | _ => false

/-- It was counted that it was sent, and the observers do not know yet. -/
def announces (path : Path) : Errand → Bool
  | .timing path' | .noting path' _ | .noted path' => path' = path
  | _ => false

end Errand

/-- How many of the datagrams under way have a property, as the counters count. -/
def held (p : Errand → Bool) (underway : List Errand) : UInt64 :=
  .ofNat (underway.countP p)

section

variable (p : Errand → Bool) (errand : Errand) (underway underway' : List Errand)

@[simp]
theorem held_nil : held p [] = 0 :=
  rfl

@[simp]
theorem held_cons : held p (errand :: underway) = held p underway + if p errand then 1 else 0 := by
  rw [held, List.countP_cons, UInt64.ofNat_add]
  split <;> rfl

@[simp]
theorem held_append : held p (underway ++ underway') = held p underway + held p underway' := by
  rw [held, List.countP_append, UInt64.ofNat_add]
  rfl

end

/-- How often the observers were told of a kind of outcomes. -/
def told (relay : Relay) (kind : Outcome.Kind) : ℕ :=
  relay.events.items.countP fun
    | .inbound outcome => outcome.kind = kind
    | .sent _ => false

/-- How often the observers were told of a datagram that was sent over a path. -/
def toldSent (relay : Relay) (path : Path) : ℕ :=
  relay.events.items.count (.sent path)

section

variable {relay relay' : Relay} {outcome : Outcome} {path : Path}

theorem told_congr (h : relay'.events = relay.events) (kind : Outcome.Kind) :
    relay'.told kind = relay.told kind := by
  rw [told, h, told]

theorem told_of_inbound (h : relay'.events = relay.events.publish (.inbound outcome))
    (kind : Outcome.Kind) :
    UInt64.ofNat (relay'.told kind) =
      .ofNat (relay.told kind) + if outcome.kind = kind then 1 else 0 := by
  simp only [told, h, Feed.publish, List.countP_cons, UInt64.ofNat_add, decide_eq_true_eq]
  split <;> rfl

theorem told_of_sent (h : relay'.events = relay.events.publish (.sent path))
    (kind : Outcome.Kind) : relay'.told kind = relay.told kind := by
  simp [told, h, Feed.publish]

theorem toldSent_congr (h : relay'.events = relay.events) (path : Path) :
    relay'.toldSent path = relay.toldSent path := by
  rw [toldSent, h, toldSent]

theorem toldSent_of_inbound (h : relay'.events = relay.events.publish (.inbound outcome))
    (path : Path) : relay'.toldSent path = relay.toldSent path := by
  simp [toldSent, h, Feed.publish]

theorem toldSent_of_sent (h : relay'.events = relay.events.publish (.sent path)) (path' : Path) :
    UInt64.ofNat (relay'.toldSent path') =
      .ofNat (relay.toldSent path') + if path = path' then 1 else 0 := by
  simp only [toldSent, h, Feed.publish, List.count_cons, UInt64.ofNat_add, beq_iff_eq,
    Event.sent.injEq]
  split <;> rfl

end

/-! ## One part of an errand -/

/-- Two errands that the account does not tell apart. -/
structure Errand.Alike (errand rest : Errand) : Prop where
  unsettled : rest.unsettled = errand.unsettled
  tells : ∀ kind, rest.tells kind = errand.tells kind
  attempted : rest.attempted = errand.attempted
  announces : ∀ path, rest.announces path = errand.announces path

/-- What a part of an errand counts, and what it tells the observers. -/
inductive Counts (relay relay' : Relay) : Errand → Option Errand → Prop where
  | nothing {errand rest : Errand} (stats : relay'.stats = relay.stats)
      (events : relay'.events = relay.events) (alike : errand.Alike rest) :
      Counts relay relay' errand (some rest)
  | outcome (outcome : Outcome) (stats : relay'.stats = relay.stats.countOutcome outcome)
      (events : relay'.events = relay.events) :
      Counts relay relay' (.settled outcome) (some (.counted outcome))
  | tell (outcome : Outcome) (stats : relay'.stats = relay.stats)
      (events : relay'.events = relay.events.publish (.inbound outcome)) :
      Counts relay relay' (.counted outcome) none
  | sendError (stats : relay'.stats = relay.stats.countSendError)
      (events : relay'.events = relay.events) : Counts relay relay' .unsent none
  | sent (path : Path) (stats : relay'.stats = relay.stats.countSent path)
      (events : relay'.events = relay.events) :
      Counts relay relay' (.sent path) (some (.timing path))
  | announce (path : Path) (stats : relay'.stats = relay.stats)
      (events : relay'.events = relay.events.publish (.sent path)) :
      Counts relay relay' (.noted path) none

section

variable {network : Network} {clock : ℕ} {store store' : Store} {relay relay' : Relay}
  {errand : Errand} {rest : Option Errand}

theorem judge_stats (relay : Relay) (data : List UInt8) :
    (judge relay data).2.stats = relay.stats := by
  rcases judge_relay relay data with h | h <;> rw [h]

theorem judge_events (relay : Relay) (data : List UInt8) :
    (judge relay data).2.events = relay.events := by
  rcases judge_relay relay data with h | h <;> rw [h]

/-- As long as it is not counted what becomes of a datagram, it is one like any other. -/
theorem judge_alike (relay : Relay) (data : List UInt8) :
    Errand.Alike (.arrived data) (judge relay data).1 := by
  rcases judge_cases {} relay data with ⟨_, _, _, _, h, -⟩ | ⟨_, _, h, -⟩
  · rw [h]
    exact ⟨rfl, fun _ => rfl, rfl, fun _ => rfl⟩
  · rw [h]
    exact ⟨rfl, fun _ => rfl, rfl, fun _ => rfl⟩

theorem judge_started (relay : Relay) (data : List UInt8) :
    (judge relay data).2.started = relay.started := by
  rcases judge_relay relay data with h | h <;> rw [h]

/-- No part of an errand opens or closes the sockets. -/
theorem work_started (h : work network clock store relay errand = (rest, store', relay')) :
    relay'.started = relay.started := by
  cases errand with
  | arrived data =>
      cases h
      exact judge_started relay data
  | sending path data =>
      simp only [work] at h
      split at h <;> cases h <;> rfl
  | queueing | settled | counted | unsent | sent | timing | noting | noted =>
      cases h
      rfl

theorem work_counts (h : work network clock store relay errand = (rest, store', relay')) :
    Counts relay relay' errand rest := by
  have halike : ∀ errand : Errand, errand.Alike errand :=
    fun _ => ⟨rfl, fun _ => rfl, rfl, fun _ => rfl⟩
  cases errand with
  | arrived data =>
      have hwork : work network clock store relay (.arrived data) =
          (some (judge relay data).1, store, (judge relay data).2) := rfl
      rw [hwork] at h
      obtain ⟨rfl, -, rfl⟩ := Prod.mk.injEq .. ▸ h
      exact .nothing (judge_stats relay data) (judge_events relay data) (judge_alike relay data)
  | queueing outcome key text =>
      cases h
      exact .nothing rfl rfl ⟨rfl, fun _ => rfl, rfl, fun _ => rfl⟩
  | settled outcome =>
      cases h
      exact .outcome outcome rfl rfl
  | counted outcome =>
      cases h
      exact .tell outcome rfl rfl
  | sending path data =>
      simp only [work] at h
      split at h
      · cases h
        exact .nothing rfl rfl ⟨rfl, fun _ => rfl, rfl, fun _ => rfl⟩
      · cases h
        exact .nothing rfl rfl ⟨rfl, fun _ => rfl, rfl, fun _ => rfl⟩
  | unsent =>
      cases h
      exact .sendError rfl rfl
  | sent path =>
      cases h
      exact .sent path rfl rfl
  | timing | noting =>
      cases h
      exact .nothing rfl rfl ⟨rfl, fun _ => rfl, rfl, fun _ => rfl⟩
  | noted path =>
      cases h
      exact .announce path rfl rfl

/-- A datagram that came in is counted by what becomes of it. -/
theorem Counts.received (h : Counts relay relay' errand rest) :
    relay'.stats.received = relay.stats.received ∧
      relay'.stats.outcomes + held Errand.unsettled rest.toList =
        relay.stats.outcomes + held Errand.unsettled [errand] := by
  cases h with
  | nothing hstats _ halike => simp [hstats, halike.unsettled]
  | outcome _ hstats _ => simp [hstats, Errand.unsettled]
  | sendError hstats _ => exact hstats ▸ ⟨rfl, rfl⟩
  | sent _ hstats _ => simp [hstats, Errand.unsettled]
  | tell _ hstats _ | announce _ hstats _ => simp [hstats, Errand.unsettled]

/-- An outcome that was counted is told. -/
theorem Counts.told (h : Counts relay relay' errand rest) (kind : Outcome.Kind) :
    relay'.stats.outcome kind + .ofNat (relay.told kind) + held (Errand.tells kind) [errand] =
      relay.stats.outcome kind + .ofNat (relay'.told kind) +
        held (Errand.tells kind) rest.toList := by
  cases h with
  | nothing hstats hevents halike => simp [hstats, told_congr hevents, halike.tells]
  | outcome _ hstats hevents =>
      simp [hstats, told_congr hevents, Errand.tells]
      ac_rfl
  | tell _ hstats hevents => simp [hstats, told_of_inbound hevents, Errand.tells, UInt64.add_assoc]
  | sendError hstats hevents => simp [hstats, told_congr hevents, Errand.tells]
  | sent _ hstats hevents => simp [hstats, told_congr hevents, Errand.tells]
  | announce _ hstats hevents => simp [hstats, told_of_sent hevents, Errand.tells]

/-- A datagram of which it was counted that it was sent is told. -/
theorem Counts.toldSent (h : Counts relay relay' errand rest) (path : Path) :
    relay'.stats.sent path + .ofNat (relay.toldSent path) + held (Errand.announces path) [errand] =
      relay.stats.sent path + .ofNat (relay'.toldSent path) +
        held (Errand.announces path) rest.toList := by
  cases h with
  | nothing hstats hevents halike => simp [hstats, toldSent_congr hevents, halike.announces]
  | outcome _ hstats hevents => simp [hstats, toldSent_congr hevents, Errand.announces]
  | tell _ hstats hevents => simp [hstats, toldSent_of_inbound hevents, Errand.announces]
  | sendError hstats hevents => simp [hstats, toldSent_congr hevents, Errand.announces]
  | sent _ hstats hevents =>
      simp [hstats, toldSent_congr hevents, Errand.announces]
      ac_rfl
  | announce _ hstats hevents =>
      simp [hstats, toldSent_of_sent hevents, Errand.announces, UInt64.add_assoc]

/-- An attempt is counted by how it ended. -/
theorem Counts.attempts (h : Counts relay relay' errand rest) :
    relay'.stats.attempts + held Errand.attempted rest.toList =
      relay.stats.attempts + held Errand.attempted [errand] := by
  cases h with
  | nothing hstats _ halike => simp [hstats, halike.attempted]
  | sendError hstats _ => simp [hstats, Errand.attempted]
  | sent _ hstats _ => simp [hstats, Errand.attempted]
  | outcome _ hstats _ | tell _ hstats _ | announce _ hstats _ => simp [hstats, Errand.attempted]

end

/-! ## The law -/

/-- The counters and what the observers were told agree up to the datagrams under way, after a number
of attempts to send one. -/
structure Ledger (relay : Relay) (underway : List Errand) (attempts : ℕ) : Prop where
  received : relay.stats.received = relay.stats.outcomes + held Errand.unsettled underway
  told : ∀ kind, relay.stats.outcome kind =
    .ofNat (relay.told kind) + held (Errand.tells kind) underway
  toldSent : ∀ path, relay.stats.sent path =
    .ofNat (relay.toldSent path) + held (Errand.announces path) underway
  attempts : .ofNat attempts = relay.stats.attempts + held Errand.attempted underway

section

variable {relay relay' : Relay} {errand : Errand} {rest : Option Errand} {attempts : ℕ}
  {underway before after : List Errand}

theorem Ledger.congr (h : Ledger relay underway attempts) (hstats : relay'.stats = relay.stats)
    (hevents : relay'.events = relay.events) : Ledger relay' underway attempts where
  received := hstats ▸ h.received
  told kind := by
    rw [hstats, told_congr hevents]
    exact h.told kind
  toldSent path := by
    rw [hstats, toldSent_congr hevents]
    exact h.toldSent path
  attempts := hstats ▸ h.attempts

/-- A part of an errand that stands between others keeps the law. -/
theorem Ledger.work (h : Ledger relay (before ++ errand :: after) attempts)
    (hcounts : Counts relay relay' errand rest) :
    Ledger relay' (before ++ (rest.toList ++ after)) attempts where
  received := by
    -- the law before the part, and what the part changes in it; the rest is arithmetic modulo 2 ^ 64
    obtain ⟨hreceived, hsum⟩ := hcounts.received
    have hlaw := h.received
    simp only [held_append, held_cons, held_nil] at hlaw hsum ⊢
    grind
  told kind := by
    have hsum := hcounts.told kind
    have hlaw := h.told kind
    simp only [held_append, held_cons, held_nil] at hlaw hsum ⊢
    grind
  toldSent path := by
    have hsum := hcounts.toldSent path
    have hlaw := h.toldSent path
    simp only [held_append, held_cons, held_nil] at hlaw hsum ⊢
    grind
  attempts := by
    have hsum := hcounts.attempts
    have hlaw := h.attempts
    simp only [held_append, held_cons, held_nil] at hlaw hsum ⊢
    grind

/-- A datagram that comes in is counted as one that came in. -/
theorem Ledger.accept (h : Ledger relay underway attempts) (data : List UInt8) :
    Ledger (Relay.accept relay data).2 (underway ++ (Relay.accept relay data).1) attempts := by
  unfold Relay.accept
  split
  · have hsame : ∀ p : Errand → Bool, p (.arrived data) = false →
        held p (underway ++ [.arrived data]) = held p underway := by
      intro p hp
      simp [hp]
    refine ⟨?_, ?_, ?_, ?_⟩
    · have hlaw := h.received
      have houtcomes : relay.stats.countReceived.outcomes = relay.stats.outcomes := rfl
      simp only [held_append, held_cons, held_nil, Errand.unsettled, houtcomes]
      simp only [Stats.countReceived, hlaw]
      ac_rfl
    · intro kind
      dsimp only
      rw [Stats.outcome_countReceived, hsame _ rfl]
      exact h.told kind
    · intro path
      dsimp only
      rw [Stats.sent_countReceived, hsame _ rfl]
      exact h.toldSent path
    · dsimp only
      rw [hsame _ rfl]
      exact h.attempts
  · simpa using h

/-- An attempt to send a datagram begins where the sockets are open. -/
theorem Ledger.attempt (h : Ledger relay underway attempts) (path : Path) (data : List UInt8) :
    Ledger relay (underway ++ (Relay.attempt relay path data).toOption.toList)
      (attempts + if relay.started then 1 else 0) := by
  unfold Relay.attempt
  split
  · refine ⟨?_, ?_, ?_, ?_⟩
    · simpa [Except.toOption, Errand.unsettled] using h.received
    · intro kind
      simpa [Except.toOption, Errand.tells] using h.told kind
    · intro path
      simpa [Except.toOption, Errand.announces] using h.toldSent path
    · have hlaw := h.attempts
      simp only [Except.toOption, Option.toList_some, held_append, held_cons, held_nil,
        Errand.attempted, UInt64.ofNat_add, hlaw]
      exact UInt64.add_assoc _ _ _
  · simpa [Except.toOption] using h

end

/-! ## Runs -/

theorem accept_started (relay : Relay) (data : List UInt8) :
    (accept relay data).2.started = relay.started := by
  unfold accept
  split <;> rfl

theorem stop_started (network : Network) (relay : Relay) :
    (stop network relay).1.started = false := by
  unfold stop
  split
  · rfl
  · rename_i hstopped
    exact eq_false_of_ne_true hstopped

/-- To close the sockets counts nothing and tells nothing. -/
theorem stop_same (network : Network) (relay : Relay) :
    (stop network relay).1.stats = relay.stats ∧ (stop network relay).1.events = relay.events := by
  unfold stop
  split <;> exact ⟨rfl, rfl⟩

namespace Depot

/-- A step that asks to send a datagram over a path. -/
def Label.isAttempt : Label → Bool
  | .take (.forward _ _) | .take (.sendPrimary _) => true
  | _ => false

/-- How often it was asked to send a datagram while the sockets were open. -/
def attempts (moments : List Moment) : ℕ :=
  moments.countP fun m => m.label.isAttempt && m.depot.scene.relay.started

theorem attempts_concat (moments : List Moment) (m : Moment) :
    attempts (moments ++ [m]) =
      attempts moments + if m.label.isAttempt && m.depot.scene.relay.started then 1 else 0 := by
  rw [attempts, List.countP_append, List.countP_singleton, attempts]

section

variable {d next first last : Depot} {label : Label} {moments : List Moment} {count : ℕ}

theorem Step.ledger (h : Step d label next) (hledger : Ledger d.scene.relay d.underway count) :
    Ledger next.scene.relay next.underway
      (count + if label.isAttempt && d.scene.relay.started then 1 else 0) := by
  cases h with
  | work scene before errand after => exact hledger.work (work_counts rfl)
  | take _ step =>
      cases step with
      | datagram data => exact hledger.accept data
      | forward path data => exact hledger.attempt path (data.take bufferSize)
      | sendPrimary data => exact hledger.attempt d.scene.relay.config.primary data
      | stop =>
          have hsame := stop_same d.scene.network d.scene.relay
          exact hledger.congr hsame.1 hsame.2
      | ignoreAck | call | failure | network | clock => exact hledger.congr rfl rfl

theorem Run.ledger (h : Run first moments last)
    (hledger : Ledger first.scene.relay first.underway 0) :
    Ledger last.scene.relay last.underway (attempts moments) := by
  induction h with
  | nil => exact hledger
  | snoc _ hstep ih =>
      rw [attempts_concat]
      exact hstep.ledger ih

/-- The sockets are not opened again. -/
theorem Step.started_eq_false (h : Step d label next) (hstopped : d.scene.relay.started = false) :
    next.scene.relay.started = false := by
  cases h with
  | work scene before errand after => exact (work_started rfl).trans hstopped
  | take _ step =>
      cases step with
      | datagram data => exact (accept_started _ data).trans hstopped
      | stop => exact stop_started _ _
      | forward | sendPrimary | ignoreAck | call | failure | network | clock => exact hstopped

theorem Run.started_eq_false (h : Run first moments last)
    (hstop : .take .stop ∈ moments.map Moment.label) : last.scene.relay.started = false := by
  induction h with
  | nil => cases hstop
  | snoc _ hstep ih =>
      rw [List.map_append, List.mem_append] at hstop
      rcases hstop with hmem | hmem
      · exact hstep.started_eq_false (ih hmem)
      · obtain rfl := List.mem_singleton.mp hmem
        cases hstep
        exact stop_started _ _

theorem ledger_of_start {network network' : Network} {binding : Binding} {config : Config}
    {relay : Relay} (h : Relay.start network binding config = .ok (relay, network')) :
    Ledger relay [] 0 := by
  obtain ⟨rfl, -⟩ := start_eq_ok h
  refine ⟨rfl, ?_, ?_, rfl⟩
  · intro kind
    cases kind <;> rfl
  · intro path
    cases path <;> rfl

/-- A depot whose relay is stopped: an attempt to send a datagram fails, and nothing changes. -/
structure Refuses (d : Depot) (path : Path) (data : List UInt8) : Prop where
  attempt : Relay.attempt d.scene.relay path data = .error (.notStarted component)
  forward : d.take (.forward path data) = d
  sendPrimary : d.take (.sendPrimary data) = d
  inOnePiece : ∀ network clock,
    Relay.forward network clock d.scene.store d.scene.relay path data =
      (.error (.notStarted component), d.scene.store, d.scene.relay) ∧
    Relay.sendPrimary network clock d.scene.store d.scene.relay data =
      (.error (.notStarted component), d.scene.store, d.scene.relay)

theorem refuses_of_stopped (h : d.scene.relay.started = false) (path : Path) (data : List UInt8) :
    d.Refuses path data := by
  have hattempt : ∀ path data,
      Relay.attempt d.scene.relay path data = .error (.notStarted component) := by
    intro path data
    simp [Relay.attempt, h]
  have hbegin : ∀ path data, d.begin path data = d := by
    intro path data
    rw [begin, hattempt]
    simp [Except.toOption]
  refine ⟨hattempt path data, hbegin path _, hbegin _ _, ?_⟩
  intro network clock
  simp [Relay.sendPrimary, Relay.forward, h]

/-- The account of a relay with nothing under way, after a number of attempts. -/
structure Balanced (relay : Relay) (attempts : ℕ) : Prop where
  received : relay.stats.received =
    relay.stats.commands + relay.stats.relayedAcks + relay.stats.ignoredAcks +
      relay.stats.crcErrors + relay.stats.decodeErrors + relay.stats.unexpectedTypes
  told : ∀ kind, relay.stats.outcome kind = .ofNat (relay.told kind)
  toldSent : ∀ path, relay.stats.sent path = .ofNat (relay.toldSent path)
  attempts : relay.stats.sentPrivate + relay.stats.sentPublic + relay.stats.sendErrors =
    .ofNat attempts

theorem balanced_of_ledger {relay : Relay} (h : Ledger relay [] count) : Balanced relay count where
  received := h.received.trans (UInt64.add_zero _)
  told kind := (h.told kind).trans (UInt64.add_zero _)
  toldSent path := (h.toldSent path).trans (UInt64.add_zero _)
  attempts := (h.attempts.trans (UInt64.add_zero _)).symm

/-- Whenever a relay that was started has nothing under way, its account balances: the datagrams that
came in are those of which it is known what became of them, the observers were told of as many, and
every attempt to send one while the sockets were open is counted by how it ended.  Once the relay is
stopped an attempt fails and changes nothing. -/
theorem Run.conserved {network network' : Network} {binding : Binding} {config : Config}
    (hstart : Relay.start network binding config = .ok (first.scene.relay, network'))
    (hidle : first.underway = []) (hrun : Run first moments last) :
    (last.underway = [] → Balanced last.scene.relay (attempts moments)) ∧
      (.take .stop ∈ moments.map Moment.label → ∀ path data, last.Refuses path data) := by
  have hfirst : Ledger first.scene.relay first.underway 0 := hidle ▸ ledger_of_start hstart
  have hledger := hrun.ledger hfirst
  constructor
  · intro hrest
    rw [hrest] at hledger
    exact balanced_of_ledger hledger
  · intro hstop path data
    exact refuses_of_stopped (hrun.started_eq_false hstop) path data

end

/-- A corrupt datagram comes in, and before it is decoded the relay is asked to send another one. -/
def askedDepot : Depot :=
  (take ⟨startedScene, []⟩ (.datagram corruptDatagram)).take (.sendPrimary [7])

/-- Both errands go on, and the relay is stopped before either is counted. -/
def stoppedDepot : Depot :=
  let judged := advance askedDepot.scene [] (.arrived corruptDatagram) [.sending .publicNet [7]]
  (advance judged.scene [.settled .crcError] (.sending .publicNet [7]) []).take .stop

/-- Both errands come to their ends. -/
def restingDepot : Depot :=
  let counted := advance stoppedDepot.scene [] (.settled .crcError) [.unsent]
  let alone := advance counted.scene [.counted .crcError] .unsent []
  advance alone.scene [] (.counted .crcError) []

theorem exists_run_restingDepot :
    ∃ moments, Run ⟨startedScene, []⟩ moments restingDepot ∧ attempts moments = 1 ∧
      .take .stop ∈ moments.map Moment.label := by
  have hasked := (Run.single (.take ⟨startedScene, []⟩ (.datagram corruptDatagram))).snoc
    (.take _ (.sendPrimary [7]))
  have hjudged := hasked.snoc (.work_of_underway [] (.arrived corruptDatagram)
    [.sending .publicNet [7]] (by decide +kernel))
  have hstopped := (hjudged.snoc (.work_of_underway [.settled .crcError]
    (.sending .publicNet [7]) [] (by decide +kernel))).snoc (.take _ .stop)
  have hcounted := hstopped.snoc (.work_of_underway [] (.settled .crcError) [.unsent]
    (by decide +kernel))
  have halone := hcounted.snoc (.work_of_underway [.counted .crcError] .unsent []
    (by decide +kernel))
  refine ⟨_, halone.snoc (.work_of_underway [] (.counted .crcError) [] (by decide +kernel)),
    by decide +kernel, by simp⟩

/-- A datagram that came in and one that was to be sent are accounted for after the relay was stopped
in between. -/
theorem Run.conserved_restingDepot :
    restingDepot.scene.relay.stats = { received := 1, crcErrors := 1, sendErrors := 1 } ∧
      Balanced restingDepot.scene.relay 1 ∧ restingDepot.Refuses .publicNet [7] := by
  obtain ⟨moments, hrun, hattempts, hstop⟩ := exists_run_restingDepot
  obtain ⟨hbalanced, hrefuses⟩ := Run.conserved start_startedScene rfl hrun
  rw [hattempts] at hbalanced
  exact ⟨by decide +kernel, hbalanced (by decide +kernel), hrefuses hstop _ _⟩

end Depot
end Relay
end Uplink
