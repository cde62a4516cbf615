import Uplink.Gateway.Rest
import Uplink.Proofs.Checkpoint.Run
import Uplink.Proofs.Relay.Sockets
import Uplink.Proofs.Watcher.Stopped

/-!
# Runs of a gateway

A gateway is started and shut down by its owner, and while it is started its components work side by
side: the checkpoint looks, the watchers move, the relay takes datagrams.  A start that waits for the
configuration goes on when the checkpoint has handed the fields over; until then it may be given up,
and nothing else is asked of the gateway.  The store, the network, the shell and the peer of the modem
belong to others as well, and change at any time; the sockets of the gateway are closed by nobody
else.

The end of a start is one step, at the moment at which the store answers: nothing that follows waits
for anybody, and the owner can ask nothing else meanwhile.

The moves come in any order, so everything that is proved of all runs holds of `advance`.
-/

namespace Uplink
namespace Gateway

/-- A gateway, and the sockets that others have bound. -/
structure Scene where
  gateway : Gateway
  others : List Endpoint

/-- What happens: calls of the owner, the end of a start, what the components do, and changes around
them. -/
inductive Label where
  | start
  | abandon
  | conclude
  | shutdown
  | time
  | gate (label : Checkpoint.Label)
  | modem (label : Watcher.Label Unit)
  | route (label : Watcher.Label Route.Config)
  | relay (step : Relay.Step)
  | store
  | network
  | shell
  | line

/-- Where the sockets of a gateway are bound. -/
def endpoints (g : Gateway) : List Endpoint :=
  (g.relay.map Relay.endpoints).getD []

/-- The scene with the gateway in another state. -/
def Scene.withGateway (s : Scene) (g : Gateway) : Scene :=
  { s with gateway := g }

/-- One thing that may happen to a gateway. -/
inductive Step : Scene → Label → Scene → Prop where
  | start {s : Scene} : s.gateway.awaiting = false → Step s .start (s.withGateway s.gateway.start)
  | abandon {s : Scene} : s.gateway.awaiting = true →
      Step s .abandon (s.withGateway s.gateway.abandonStart)
  | conclude {s : Scene} {fields : List (String × Json)} {earlier : List Checkpoint.Event} :
      s.gateway.awaiting = true → s.gateway.checkpoint.events = .ready fields :: earlier →
        Step s .conclude (s.withGateway (s.gateway.conclude fields))
  | shutdown {s : Scene} : s.gateway.awaiting = false →
      Step s .shutdown (s.withGateway s.gateway.shutdown.2)
  | time {s : Scene} {moment : ℕ} : s.gateway.now ≤ moment →
      Step s .time (s.withGateway { s.gateway with now := moment })
  | gate {s : Scene} {label : Checkpoint.Label} {next : Checkpoint.Scene} :
      Checkpoint.Step ⟨s.gateway.store, s.gateway.checkpoint⟩ label next → label.IsOwn →
        Step s (.gate label)
          (s.withGateway { s.gateway with store := next.store, checkpoint := next.checkpoint })
  | modem {s : Scene} {label : Watcher.Label Unit} {modem next : Modem.Watched} :
      s.gateway.modem = some modem → Watcher.Step Modem.Session.resource modem label next →
        label.IsOwn → Step s (.modem label) (s.withGateway { s.gateway with modem := some next })
  | route {s : Scene} {label : Watcher.Label Route.Config} {next : Route.Watched} :
      Watcher.Step Route.Keeper.resource s.gateway.route label next → label.IsOwn →
        Step s (.route label) (s.withGateway { s.gateway with route := next })
  | relay {s : Scene} {relay : Relay} {step : Relay.Step} (clock : ℕ) :
      s.gateway.relay = some relay → step.IsOwn →
        Step s (.relay step) (s.withGateway
          { s.gateway with
            store :=
              (Relay.Scene.next ⟨relay, s.gateway.store, s.gateway.network, clock⟩ step).store
            relay :=
              some (Relay.Scene.next ⟨relay, s.gateway.store, s.gateway.network, clock⟩ step).relay })
  | store (s : Scene) (store : Store) : Step s .store (s.withGateway { s.gateway with store })
  | network {s : Scene} {network : Network} {others : List Endpoint} :
      network.bound.Perm (s.gateway.endpoints ++ others) →
        Step s .network { gateway := { s.gateway with network }, others }
  | shell (s : Scene) (shell : Shell) :
      Step s .shell
        (s.withGateway { s.gateway with route := Route.Watched.withShell s.gateway.route shell })
  | line (s : Scene) (line : Transport) : Step s .line (s.withGateway (s.gateway.withLine line))

/-- A scene, what happens, and the scene afterwards. -/
structure Moment where
  scene : Scene
  label : Label
  next : Scene

/-- A row of things that happen to a gateway. -/
inductive Run : Scene → List Moment → Scene → Prop where
  | nil (s : Scene) : Run s [] s
  | snoc {first last next : Scene} {moments : List Moment} {label : Label} :
      Run first moments last → Step last label next →
        Run first (moments ++ [⟨last, label, next⟩]) next

/-- A gateway that was never started. -/
inductive Fresh : Scene → Prop where
  | of (settings : Settings) (store : Store) (shell : Shell) (network : Network)
      (transport : Option Transport) :
      Fresh ⟨.of settings store shell network transport, network.bound⟩

section

variable {s first middle last next : Scene} {label : Label} {moments moments' : List Moment}

theorem Run.single (h : Step s label next) : Run s [⟨s, label, next⟩] next :=
  .snoc (.nil s) h

theorem Run.trans (h : Run first moments middle) (h' : Run middle moments' last) :
    Run first (moments ++ moments') last := by
  induction h' with
  | nil => simpa using h
  | snoc _ hstep ih =>
      rw [← List.append_assoc]
      exact ih.snoc hstep

theorem Run.of_concat {m : Moment} (h : Run first (moments ++ [m]) last) :
    Run first moments m.scene ∧ Step m.scene m.label m.next ∧ last = m.next := by
  generalize hrow : moments ++ [m] = row at h
  cases h with
  | nil => simp at hrow
  | snoc hrun hstep =>
      obtain ⟨rfl, hm⟩ := List.append_inj' hrow rfl
      cases hm
      exact ⟨hrun, hstep, rfl⟩

/-- A run passes through each of its moments. -/
theorem Run.split {earlier later : List Moment} {m : Moment}
    (h : Run first (earlier ++ m :: later) last) :
    Run first earlier m.scene ∧ Step m.scene m.label m.next := by
  induction later using List.reverseRecOn generalizing last with
  | nil =>
      obtain ⟨hrun, hstep, -⟩ := h.of_concat
      exact ⟨hrun, hstep⟩
  | append_singleton later m' ih =>
      rw [← List.cons_append, ← List.append_assoc] at h
      exact ih h.of_concat.1

/-! ## The components by themselves -/

theorem exists_run_gate {start final : Checkpoint.Scene} {row : List Checkpoint.Moment}
    (h : Checkpoint.Run start row final) (hown : ∀ m ∈ row, m.label.IsOwn)
    (hstart : start = ⟨s.gateway.store, s.gateway.checkpoint⟩) :
    ∃ moments, Run s moments (s.withGateway
      { s.gateway with store := final.store, checkpoint := final.checkpoint }) := by
  induction h with
  | nil =>
      subst hstart
      exact ⟨[], .nil s⟩
  | snoc _ hstep ih =>
      obtain ⟨moments, hrun⟩ := ih fun m hm => hown m (List.mem_append_left _ hm)
      exact ⟨_, hrun.snoc (.gate hstep (hown _ (List.mem_append_right _ List.mem_cons_self)))⟩

theorem exists_run_modem {start final : Modem.Watched} {row : List (Watcher.Label Unit)}
    (h : Watcher.Run Modem.Session.resource start row final) (hown : ∀ label ∈ row, label.IsOwn)
    (hstart : s.gateway.modem = some start) :
    ∃ moments, Run s moments (s.withGateway { s.gateway with modem := some final }) := by
  induction h with
  | nil =>
      rw [← hstart]
      exact ⟨[], .nil s⟩
  | snoc _ hstep ih =>
      obtain ⟨moments, hrun⟩ := ih fun m hm => hown m (List.mem_append_left _ hm)
      exact ⟨_, hrun.snoc (.modem rfl hstep (hown _ (List.mem_append_right _ List.mem_cons_self)))⟩

theorem exists_run_route {start final : Route.Watched} {row : List (Watcher.Label Route.Config)}
    (h : Watcher.Run Route.Keeper.resource start row final) (hown : ∀ label ∈ row, label.IsOwn)
    (hstart : s.gateway.route = start) :
    ∃ moments, Run s moments (s.withGateway { s.gateway with route := final }) := by
  induction h with
  | nil =>
      rw [← hstart]
      exact ⟨[], .nil s⟩
  | snoc _ hstep ih =>
      obtain ⟨moments, hrun⟩ := ih fun m hm => hown m (List.mem_append_left _ hm)
      exact ⟨_, hrun.snoc (.route hstep (hown _ (List.mem_append_right _ List.mem_cons_self)))⟩

/-! ## The gateway over time -/

/-- Both watchers make the moves of a row of their own. -/
theorem exists_run_watchers (s : Scene) (onModem : Modem.Watched → Modem.Watched)
    (onRoute : Route.Watched → Route.Watched)
    (hmodem : ∀ w, ∃ row, Watcher.Run Modem.Session.resource w row (onModem w) ∧
      ∀ label ∈ row, label.IsOwn)
    (hroute : ∀ w, ∃ row, Watcher.Run Route.Keeper.resource w row (onRoute w) ∧
      ∀ label ∈ row, label.IsOwn) :
    ∃ moments, Run s moments (s.withGateway
      { s.gateway with modem := s.gateway.modem.map onModem, route := onRoute s.gateway.route }) := by
  obtain ⟨row, hrow, hown⟩ := hroute s.gateway.route
  obtain ⟨moments, hrun⟩ := exists_run_route hrow hown rfl
  cases hmodem' : s.gateway.modem with
  | none =>
      refine ⟨moments, ?_⟩
      rw [Option.map_none, ← hmodem']
      exact hrun
  | some w =>
      obtain ⟨row', hrow', hown'⟩ := hmodem w
      obtain ⟨moments', hrun'⟩ := exists_run_modem
        (s := s.withGateway { s.gateway with route := onRoute s.gateway.route }) hrow' hown' hmodem'
      exact ⟨_, hrun.trans hrun'⟩

theorem exists_run_settleStart (s : Scene) :
    ∃ moments, Run s moments (s.withGateway s.gateway.settleStart) := by
  obtain ⟨row, hrow, hown⟩ := Checkpoint.exists_run_settle s.gateway.store s.gateway.checkpoint
  obtain ⟨moments, hrun⟩ := exists_run_gate hrow (fun m hm => (hown m hm).1) rfl
  unfold settleStart
  dsimp only
  split
  · rename_i fields earlier hawaiting hevents
    exact ⟨_, hrun.snoc (.conclude hawaiting hevents)⟩
  · exact ⟨moments, hrun⟩

/-- The moves of the present moment are a run. -/
theorem exists_run_settle (s : Scene) : ∃ moments, Run s moments (s.withGateway s.gateway.settle) := by
  obtain ⟨moments, hrun⟩ := exists_run_settleStart s
  obtain ⟨moments', hrun'⟩ := exists_run_watchers (s.withGateway s.gateway.settleStart)
    (Watcher.settle Modem.Session.resource) (Watcher.settle Route.Keeper.resource)
    Watcher.exists_run_settle Watcher.exists_run_settle
  exact ⟨_, hrun.trans hrun'⟩

theorem exists_run_passTo (s : Scene) {moment : ℕ} (hmoment : s.gateway.now ≤ moment) :
    ∃ moments, Run s moments (s.withGateway (s.gateway.passTo moment)) := by
  have htime := Run.single (.time hmoment)
  obtain ⟨row, hrow, hown, -⟩ :=
    Checkpoint.exists_run_advance moment s.gateway.store s.gateway.checkpoint
  obtain ⟨gate, hgate⟩ := exists_run_gate
    (s := s.withGateway { s.gateway with now := moment }) hrow hown rfl
  obtain ⟨watchers, hwatchers⟩ := exists_run_watchers
    (s.withGateway { s.gateway with
      now := moment
      store := (s.gateway.checkpoint.advance moment s.gateway.store).1
      checkpoint := (s.gateway.checkpoint.advance moment s.gateway.store).2 })
    (Watcher.advance Modem.Session.resource moment) (Watcher.advance Route.Keeper.resource moment)
    (Watcher.exists_run_advanceUntil _ moment) (Watcher.exists_run_advanceUntil _ moment)
  obtain ⟨settling, hsettling⟩ := exists_run_settle (s.withGateway { s.gateway with
    now := moment
    store := (s.gateway.checkpoint.advance moment s.gateway.store).1
    checkpoint := (s.gateway.checkpoint.advance moment s.gateway.store).2
    modem := s.gateway.modem.map (Watcher.advance Modem.Session.resource moment)
    route := s.gateway.route.advance Route.Keeper.resource moment })
  exact ⟨_, ((htime.trans hgate).trans hwatchers).trans hsettling⟩

theorem exists_run_awaitStart (limit : ℕ) (g : Gateway) (others : List Endpoint) :
    ∃ moments, Run ⟨g, others⟩ moments ⟨g.awaitStart limit, others⟩ := by
  fun_induction awaitStart limit g with
  | case1 g _ moment hmoment _ ih =>
      obtain ⟨moments, hpass⟩ := exists_run_passTo ⟨g, others⟩
        (Nat.le_of_lt (nextMoment?_bounds hmoment).1)
      obtain ⟨moments', hrest⟩ := ih
      exact ⟨_, hpass.trans hrest⟩
  | case2 g _ hmoment => exact exists_run_passTo ⟨g, others⟩ (Nat.le_max_left g.now limit)
  | case3 g _ => exact ⟨[], .nil _⟩

/-- Letting time pass is a run. -/
theorem exists_run_advance (limit : ℕ) (g : Gateway) (others : List Endpoint) :
    ∃ moments, Run ⟨g, others⟩ moments ⟨g.advance limit, others⟩ := by
  obtain ⟨moments, hstart⟩ := exists_run_awaitStart limit g others
  obtain ⟨moments', hrest⟩ := exists_run_passTo ⟨g.awaitStart limit, others⟩
    (Nat.le_max_left (g.awaitStart limit).now limit)
  exact ⟨_, hstart.trans hrest⟩

end
end Gateway
end Uplink
