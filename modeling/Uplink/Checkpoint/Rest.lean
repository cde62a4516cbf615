import Uplink.Checkpoint

/-!
# The checkpoint at rest

At one moment a checkpoint makes few moves: a look is followed by a wait that ends later, or at once
if a request was kept, which is then used up.  This needs an interval that is not empty.
-/

namespace Uplink
namespace Checkpoint

/-- How many moves may lie ahead at a moment. -/
def rank (c : Checkpoint) : Nat :=
  2 * c.permit.toNat +
    match c.stage with
    | none => 0
    | some .looking => 1
    | some (.waiting wake asked) => if asked || decide (wake ≤ c.now) then 2 else 0

theorem look_now (store : Store) (c : Checkpoint) : (look store c).2.now = c.now := by
  unfold look
  dsimp only
  split
  · rfl
  · unfold postpone; split <;> rfl

theorem rank_postpone {c : Checkpoint} (hretry : 0 < c.retry) :
    c.postpone.rank ≤ 2 * c.permit.toNat := by
  unfold postpone
  split
  · simp only [rank, Bool.toNat_false, Nat.mul_zero, Nat.zero_add]
    have hlater : ¬ c.now + c.retry ≤ c.now := by omega
    cases c.permit <;> simp [hlater]
  · simp [rank]

theorem rank_look (store : Store) {c : Checkpoint} (hretry : 0 < c.retry) :
    (look store c).2.rank ≤ 2 * c.permit.toNat := by
  unfold look
  dsimp only
  split
  · simp [rank, succeed]
  · exact rank_postpone hretry

/-- A wait that ends at the request. -/
theorem awake?_request {c next : Checkpoint} (h : c.awake? .request = some next) :
    ∃ wake, c.stage = some (.waiting wake true) ∧ next = { c with stage := some .looking } := by
  unfold awake? at h
  split at h
  · rename_i hstage _
    exact ⟨_, hstage, (Option.some.inj h).symm⟩
  · rename_i hwake; cases hwake
  · cases h

/-- A wait that ends with the interval. -/
theorem awake?_timer {c next : Checkpoint} (h : c.awake? .timer = some next) :
    ∃ time asked, c.stage = some (.waiting time asked) ∧ time ≤ c.now ∧
      next = { c with stage := some .looking, permit := c.permit || asked } := by
  unfold awake? at h
  split at h
  · rename_i hwake; cases hwake
  · rename_i time asked hstage _
    split at h
    · rename_i hle
      exact ⟨time, asked, hstage, hle, (Option.some.inj h).symm⟩
    · cases h
  · cases h

/-- A move takes no time. -/
theorem move?_now {store : Store} {c : Checkpoint} {next : Store × Checkpoint}
    (h : move? store c = some next) : next.2.now = c.now := by
  unfold move? at h
  split at h
  · rw [← Option.some.inj h]
    exact look_now store c
  · obtain ⟨woken, hor, rfl⟩ := Option.map_eq_some_iff.1 h
    rcases Option.or_eq_some_iff.1 hor with hreq | ⟨-, htimer⟩
    · obtain ⟨wake, -, rfl⟩ := awake?_request hreq
      rfl
    · obtain ⟨time, asked, -, -, rfl⟩ := awake?_timer htimer
      rfl

/-- A move of a checkpoint that waits between two looks leaves fewer moves. -/
theorem rank_lt_of_move? {store : Store} {c : Checkpoint} {next : Store × Checkpoint}
    (hretry : 0 < c.retry) (h : move? store c = some next) : next.2.rank < c.rank := by
  unfold move? at h
  split at h
  · rename_i hstage
    rw [← Option.some.inj h]
    refine Nat.lt_of_le_of_lt (rank_look store hretry) ?_
    simp [rank, hstage]
  · obtain ⟨woken, hor, rfl⟩ := Option.map_eq_some_iff.1 h
    rcases Option.or_eq_some_iff.1 hor with hreq | ⟨hnone, htimer⟩
    · obtain ⟨wake, hstage, rfl⟩ := awake?_request hreq
      simp [rank, hstage]
    · obtain ⟨time, asked, hstage, hle, rfl⟩ := awake?_timer htimer
      cases asked
      · simp [rank, hstage, hle]
      · simp [awake?, hstage] at hnone

theorem look_retry (store : Store) (c : Checkpoint) : (look store c).2.retry = c.retry := by
  unfold look
  dsimp only
  split
  · rfl
  · unfold postpone; split <;> rfl

theorem move?_retry {store : Store} {c : Checkpoint} {next : Store × Checkpoint}
    (h : move? store c = some next) : next.2.retry = c.retry := by
  unfold move? at h
  split at h
  · rw [← Option.some.inj h]
    exact look_retry store c
  · obtain ⟨woken, hor, rfl⟩ := Option.map_eq_some_iff.1 h
    rcases Option.or_eq_some_iff.1 hor with hreq | ⟨-, htimer⟩
    · obtain ⟨wake, -, rfl⟩ := awake?_request hreq
      rfl
    · obtain ⟨time, asked, -, -, rfl⟩ := awake?_timer htimer
      rfl

/-- Make all moves of the present moment.  A checkpoint that does not wait between two looks never
comes to rest; it is left after a look. -/
def settle (store : Store) (c : Checkpoint) : Store × Checkpoint :=
  match move? store c with
  | some next => if next.2.rank < c.rank then settle next.1 next.2 else next
  | none => (store, c)
  termination_by c.rank

/-- A settled checkpoint has nothing to do at the moment. -/
theorem move?_settle (store : Store) {c : Checkpoint} (hretry : 0 < c.retry) :
    move? (settle store c).1 (settle store c).2 = none := by
  fun_induction settle store c with
  | case1 store c next h _ ih => exact ih (move?_retry h ▸ hretry)
  | case2 store c next h hle => exact absurd (rank_lt_of_move? hretry h) hle
  | case3 store c h => exact h

theorem settle_now (store : Store) (c : Checkpoint) : (settle store c).2.now = c.now := by
  fun_induction settle store c with
  | case1 store c next h _ ih => exact ih.trans (move?_now h)
  | case2 store c next h _ => exact move?_now h
  | case3 store c h => rfl

/-! ## The passing of time -/

/-- When a wait ends. -/
def due? (c : Checkpoint) : Option Nat :=
  match c.stage with
  | none => none
  | some .looking => some c.now
  | some (.waiting wake _) => some wake

/-- The next moment with a look, not later than the given time. -/
def nextMoment? (c : Checkpoint) (limit : Nat) : Option Nat :=
  c.due?.bind fun due =>
    let moment := max (c.now + 1) due
    if moment ≤ limit then some moment else none

theorem nextMoment?_bounds {c : Checkpoint} {limit moment : Nat}
    (h : c.nextMoment? limit = some moment) : c.now < moment ∧ moment ≤ limit := by
  obtain ⟨due, _, h⟩ := Option.bind_eq_some_iff.1 h
  dsimp only at h
  split at h
  · simp only [Option.some.injEq] at h
    omega
  · cases h

/-- Go to a moment and make all its moves. -/
def passTo (store : Store) (c : Checkpoint) (moment : Nat) : Store × Checkpoint :=
  settle store { c with now := moment }

theorem passTo_nearer (store : Store) {c : Checkpoint} {limit moment : Nat}
    (h : c.nextMoment? limit = some moment) :
    limit - (passTo store c moment).2.now < limit - c.now := by
  have := nextMoment?_bounds h
  rw [passTo, settle_now]
  dsimp only
  omega

/-- Let time pass until `limit`, with all moves of each moment. -/
def advance (limit : Nat) (store : Store) (c : Checkpoint) : Store × Checkpoint :=
  match h : c.nextMoment? limit with
  | some moment =>
    have := passTo_nearer store h
    advance limit (passTo store c moment).1 (passTo store c moment).2
  | none => (store, { c with now := max c.now limit })
  termination_by limit - c.now
  decreasing_by exact this

end Checkpoint
end Uplink
