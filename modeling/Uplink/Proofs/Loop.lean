import Mathlib.Data.Nat.Notation

/-!
# Loops

A loop goes from state to state in turns.  A turn leads to the next one, or it ends the loop; it fails
if it looks up what is not there.

That a loop never fails, and how many turns it can take, is seen from a single turn: if no turn fails
in the states that satisfy an invariant, and every turn keeps the invariant and lowers a rank, then
the same holds throughout.
-/

namespace Uplink

/-- What a turn of a loop comes to if it does not fail. -/
inductive Loop.Outcome (σ ρ : Type) where
  | next (state : σ)
  | done (result : ρ)
  deriving DecidableEq, Repr

/-- A loop is given by its turn. -/
abbrev Loop (σ ρ : Type) := σ → Option (Loop.Outcome σ ρ)

namespace Loop

variable {σ ρ : Type}

/-- The states to which a loop comes, with the number of turns it takes. -/
inductive Turns (loop : Loop σ ρ) (first : σ) : ℕ → σ → Prop where
  | zero : Turns loop first 0 first
  | succ {n : ℕ} {state next : σ} : Turns loop first n state →
      loop state = some (.next next) → Turns loop first (n + 1) next

/-- The loop ends, and this is its result. -/
inductive Ends (loop : Loop σ ρ) : σ → ρ → Prop where
  | done {state : σ} {result : ρ} : loop state = some (.done result) → Ends loop state result
  | next {state next : σ} {result : ρ} : loop state = some (.next next) →
      Ends loop next result → Ends loop state result

/-- What a turn does in the states that satisfy an invariant: it does not fail, and if it leads to
another turn, it keeps the invariant and lowers the rank by an amount. -/
structure Steady (loop : Loop σ ρ) (Inv : σ → Prop) (rank : σ → ℕ) (amount : ℕ) : Prop where
  safe : ∀ state, Inv state → loop state ≠ none
  keeps : ∀ state next, Inv state → loop state = some (.next next) → Inv next
  lowers : ∀ state next, Inv state → loop state = some (.next next) →
    rank next + amount ≤ rank state

variable {loop : Loop σ ρ} {first state other : σ} {result : ρ} {Inv : σ → Prop} {rank : σ → ℕ}
  {n amount : ℕ}

/-- The result depends on what the first turn comes to. -/
theorem Ends.of_eq (heq : loop first = loop other) (h : Ends loop other result) :
    Ends loop first result := by
  cases h with
  | done h => exact .done (heq.trans h)
  | next h hrest => exact .next (heq.trans h) hrest

theorem Steady.keeps_turns (h : Steady loop Inv rank amount) (hfirst : Inv first)
    (hturns : Turns loop first n state) : Inv state := by
  induction hturns with
  | zero => exact hfirst
  | succ _ hturn ih => exact h.keeps _ _ ih hturn

/-- So many turns lower the rank by so many amounts. -/
theorem Steady.lowers_turns (h : Steady loop Inv rank amount) (hfirst : Inv first)
    (hturns : Turns loop first n state) : rank state + n * amount ≤ rank first := by
  induction hturns with
  | zero => simp
  | @succ n state next hturns hturn ih =>
      have hlower := h.lowers state next (h.keeps_turns hfirst hturns) hturn
      rw [Nat.succ_mul]
      omega

end Loop
end Uplink
