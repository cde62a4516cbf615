import Uplink.Gateway

/-!
# The gateway over time

The components of the gateway run side by side.  Only the checkpoint decides what another one does:
a start that waits goes on at the moment at which the configuration is complete.
-/

namespace Uplink
namespace Gateway

/-- Let the checkpoint make its moves, and end a start that waits for them. -/
def settleStart (g : Gateway) : Gateway :=
  let (store, checkpoint) := g.checkpoint.settle g.store
  let g := { g with store, checkpoint }
  match g.awaiting, g.checkpoint.events with
  | true, .ready fields :: _ => g.conclude fields
  | _, _ => g

/-- Let all components make the moves of the present moment. -/
def settle (g : Gateway) : Gateway :=
  let g := g.settleStart
  { g with
    modem := g.modem.map (Watcher.settle Modem.Session.resource)
    route := g.route.settle Route.Keeper.resource }

/-- Go to a moment, through all moments at which a single component makes moves. -/
def passTo (g : Gateway) (moment : Nat) : Gateway :=
  let (store, checkpoint) := g.checkpoint.advance moment g.store
  settle { g with
    now := moment
    store, checkpoint
    modem := g.modem.map (Watcher.advance Modem.Session.resource moment)
    route := g.route.advance Route.Keeper.resource moment }

theorem stopAll_now (g : Gateway) : g.stopAll.now = g.now := by
  unfold stopAll stopRelay
  dsimp only
  split <;> rfl

theorem andThen_now {now : Except Failure Unit × Gateway}
    {go : Gateway → Except Failure Unit × Gateway} (hgo : ∀ g, (go g).2.now = g.now) :
    (andThen now go).2.now = now.2.now := by
  unfold andThen
  split
  · exact hgo _
  · rfl

theorem startAll_now (g : Gateway) (relay : Relay.Config) (route : Route.Config)
    (modem : Modem.Config) : (g.startAll relay route modem).2.now = g.now := by
  have hrelay (g : Gateway) : (g.startRelay relay).2.now = g.now := by
    unfold startRelay; split <;> rfl
  have hroute (g : Gateway) :
      (andThen (g.startRoute route) fun g => g.startRelay relay).2.now = g.now :=
    andThen_now hrelay
  exact andThen_now hroute

theorem bringUp_now (g : Gateway) (fields : List (String × Json)) :
    (g.bringUp fields).2.now = g.now := by
  unfold bringUp
  split
  · rfl
  · dsimp only
    split
    · exact startAll_now _ _ _ _
    · rfl

theorem settle_now (g : Gateway) : g.settle.now = g.now := by
  have hconclude (g : Gateway) (fields : List (String × Json)) :
      (g.conclude fields).now = g.now := by
    have h := bringUp_now g fields
    unfold conclude
    split <;> rename_i heq <;> rw [heq] at h
    · exact h
    · exact (stopAll_now _).trans h
  show g.settleStart.now = g.now
  unfold settleStart
  dsimp only
  split
  · exact hconclude _ _
  · rfl

theorem passTo_now (g : Gateway) (moment : Nat) : (g.passTo moment).now = moment :=
  settle_now _

/-- The next moment at which the checkpoint makes moves, not later than the given time. -/
def nextMoment? (g : Gateway) (limit : Nat) : Option Nat :=
  g.checkpoint.due?.bind fun due =>
    let moment := max (g.now + 1) due
    if moment ≤ limit then some moment else none

theorem nextMoment?_bounds {g : Gateway} {limit moment : Nat}
    (h : g.nextMoment? limit = some moment) : g.now < moment ∧ moment ≤ limit := by
  obtain ⟨due, _, h⟩ := Option.bind_eq_some_iff.1 h
  dsimp only at h
  split at h
  · simp only [Option.some.injEq] at h
    omega
  · cases h

theorem passTo_nearer {g : Gateway} {limit moment : Nat} (h : g.nextMoment? limit = some moment) :
    limit - (g.passTo moment).now < limit - g.now := by
  have := nextMoment?_bounds h
  rw [passTo_now]
  omega

/-- Let time pass until a start has ended, but not longer than until `limit`. -/
def awaitStart (limit : Nat) (g : Gateway) : Gateway :=
  if g.awaiting then
    match h : g.nextMoment? limit with
    | some moment =>
      have := passTo_nearer h
      awaitStart limit (g.passTo moment)
    | none => g.passTo (max g.now limit)
  else g
  termination_by limit - g.now
  decreasing_by exact this

/-- Let time pass until `limit`, with all moves of each moment. -/
def advance (limit : Nat) (g : Gateway) : Gateway :=
  let g := g.awaitStart limit
  g.passTo (max g.now limit)

end Gateway
end Uplink
