import Mathlib.Tactic.Ring
import Uplink.Proofs.Loop
import Uplink.Text.Glob

/-!
# The walk ends and stays in range

The walk through a pattern and a text looks up characters by their places.  Here it is a loop whose
turn fails at a place that is not there, so that it can be said that this never happens.

The place in the text goes back whenever the last star is made to reach further, and the place in the
pattern goes back to a star that a later one may replace.  What never goes back is the measure of the
walk, which looks at the last star first, then at its reach, and then at the place in the pattern.
Written as one number, it bounds how many turns the walk takes.
-/

namespace Uplink
namespace Text
namespace Glob
namespace Cursor

/-! ## One turn -/

/-- Whether the character of the pattern stands for that of the text. -/
def passes? (pattern text : Array Char) (c : Cursor) : Option Bool :=
  if c.inPattern < pattern.size then do
    let x ← pattern[c.inPattern]?
    if x = '?' then return true
    let y ← text[c.inText]?
    return x = y
  else some false

/-- Whether the character of the pattern is a star. -/
def marks? (pattern : Array Char) (c : Cursor) : Option Bool :=
  if c.inPattern < pattern.size then do
    let x ← pattern[c.inPattern]?
    return x = '*'
  else some false

/-- The characters from a place on. -/
def rest? (chars : Array Char) (place : ℕ) : Option (List Char) :=
  if place ≤ chars.size then some (chars.toList.drop place) else none

/-- One turn of the walk, which fails where it looks up a character that is not there. -/
def turn (pattern text : Array Char) : Loop Cursor Bool := fun c => do
  if c.inText < text.size then
    if ← c.passes? pattern text then
      return .next { c with inPattern := c.inPattern + 1, inText := c.inText + 1 }
    if ← c.marks? pattern then
      return .next { c with inPattern := c.inPattern + 1, star := some (c.inPattern, c.inText) }
    match c.star with
    | some (star, reach) => return .next ⟨star + 1, reach + 1, some (star, reach + 1)⟩
    | none => return .done false
  else
    let rest ← rest? pattern c.inPattern
    return .done (rest.all fun x => x = '*')

variable {pattern text : Array Char} {c next : Cursor}

theorem passes?_eq (htext : c.inText < text.size) :
    c.passes? pattern text = some (decide (pattern[c.inPattern]?.isSome ∧
      (pattern[c.inPattern]? = some '?' ∨ pattern[c.inPattern]? = text[c.inText]?))) := by
  rw [passes?]
  by_cases hpattern : c.inPattern < pattern.size
  · rw [if_pos hpattern, Array.getElem?_eq_getElem hpattern, Array.getElem?_eq_getElem htext]
    by_cases hany : pattern[c.inPattern] = '?'
    · simp [hany]
    · simp [hany]
  · simp [hpattern]

theorem marks?_eq (pattern : Array Char) (c : Cursor) :
    c.marks? pattern = some (decide (pattern[c.inPattern]? = some '*')) := by
  rw [marks?]
  by_cases hpattern : c.inPattern < pattern.size
  · simp [hpattern]
  · simp [hpattern]

/-- Within the text a turn is a step of the walk. -/
theorem turn_of_lt (pattern : Array Char) (htext : c.inText < text.size) :
    turn pattern text c = some (match c.step pattern text with
      | some next => .next next
      | none => .done false) := by
  rw [turn, if_pos htext, passes?_eq htext, marks?_eq, step]
  by_cases hpass : pattern[c.inPattern]?.isSome ∧
      (pattern[c.inPattern]? = some '?' ∨ pattern[c.inPattern]? = text[c.inText]?)
  · rw [if_pos hpass, decide_eq_true hpass]
    rfl
  · rw [if_neg hpass, decide_eq_false hpass]
    by_cases hmark : pattern[c.inPattern]? = some '*'
    · rw [if_pos hmark, decide_eq_true hmark]
      rfl
    · rw [if_neg hmark, decide_eq_false hmark]
      cases c.star with
      | none => rfl
      | some last => rfl

/-- At the end of the text a turn gives the answer of the walk. -/
theorem turn_of_le (h : InRange pattern text c) (htext : ¬ c.inText < text.size) :
    turn pattern text c = some (.done (c.walk h)) := by
  rw [turn, if_neg htext, rest?, if_pos h.inPattern_le, walk, dif_neg htext]
  rfl

theorem turn_ne_none (h : InRange pattern text c) : turn pattern text c ≠ none := by
  by_cases htext : c.inText < text.size
  · rw [turn_of_lt pattern htext]
    exact Option.some_ne_none _
  · rw [turn_of_le h htext]
    exact Option.some_ne_none _

/-- A turn that is not the last one is a step within the text. -/
theorem step_of_turn (h : InRange pattern text c) (hturn : turn pattern text c = some (.next next)) :
    c.inText < text.size ∧ c.step pattern text = some next := by
  by_cases htext : c.inText < text.size
  · rw [turn_of_lt pattern htext] at hturn
    cases hstep : c.step pattern text with
    | none => simp [hstep] at hturn
    | some other =>
        simp only [hstep, Option.some.injEq, Loop.Outcome.next.injEq] at hturn
        exact ⟨htext, by rw [hturn]⟩
  · rw [turn_of_le h htext] at hturn
    cases hturn

/-- The loop ends with the answer of the walk. -/
theorem ends_walk (h : InRange pattern text c) :
    Loop.Ends (turn pattern text) c (c.walk h) := by
  fun_induction walk c h with
  | case1 c h htext next hstep ih =>
      refine .next ?_ ih
      rw [turn_of_lt pattern htext, hstep]
  | case2 c h htext hstep =>
      refine .done ?_
      rw [turn_of_lt pattern htext, hstep]
  | case3 c h htext =>
      refine .done ?_
      rw [turn_of_le h htext, walk, dif_neg htext]

/-! ## The number of turns -/

/-- The measure of a cursor, written as one number. -/
def rank (pattern text : Array Char) (c : Cursor) : ℕ :=
  let left := c.measure pattern text
  (left.1 * (text.size + 1) + left.2.1) * (pattern.size + 1) + left.2.2

/-- Of two numbers with two digits the one with the lower first digit is the lower one. -/
theorem digits_lt {a a' b b' base : ℕ} (h : a' < a ∨ a' = a ∧ b' < b) (hb : b' ≤ base) :
    a' * (base + 1) + b' < a * (base + 1) + b := by
  rcases h with hlt | ⟨rfl, hlt⟩
  · calc a' * (base + 1) + b' < (a' + 1) * (base + 1) := by
          rw [Nat.succ_mul]
          omega
      _ ≤ a * (base + 1) := Nat.mul_le_mul_right _ hlt
      _ ≤ a * (base + 1) + b := Nat.le_add_right _ _
  · omega

theorem measure_le (pattern text : Array Char) (c : Cursor) :
    (c.measure pattern text).2.1 ≤ text.size ∧ (c.measure pattern text).2.2 ≤ pattern.size := by
  rw [measure]
  split <;> simp

theorem rank_lt_of_lex
    (h : Prod.Lex (· < ·) (Prod.Lex (· < ·) (· < ·)) (next.measure pattern text)
      (c.measure pattern text)) : next.rank pattern text < c.rank pattern text := by
  obtain ⟨hreach, hplace⟩ := measure_le pattern text next
  rw [rank, rank]
  refine digits_lt ?_ hplace
  rw [Prod.lex_def, Prod.lex_def] at h
  rcases h with hstar | ⟨hstar, hreach' | ⟨hreach', hplace'⟩⟩
  · exact .inl (digits_lt (.inl hstar) hreach)
  · exact .inl (digits_lt (.inr ⟨hstar, hreach'⟩) hreach)
  · refine .inr ⟨?_, hplace'⟩
    rw [hstar, hreach']

/-- No turn fails where all places are in range; the next ones are in range, and the rank is lower. -/
theorem steady_turn (pattern text : Array Char) :
    Loop.Steady (turn pattern text) (InRange pattern text) (rank pattern text) 1 where
  safe := fun _ h => turn_ne_none h
  keeps := by
    intro c next h hturn
    obtain ⟨htext, hstep⟩ := step_of_turn h hturn
    exact h.step htext hstep
  lowers := by
    intro c next h hturn
    obtain ⟨htext, hstep⟩ := step_of_turn h hturn
    exact rank_lt_of_lex (h.measure_step htext hstep)

theorem rank_start_lt (pattern text : Array Char) :
    rank pattern text {} < (pattern.size + 1) * (pattern.size + 2) * (text.size + 1) := by
  have hrank : rank pattern text {} =
      ((pattern.size + 1) * (text.size + 1) + text.size) * (pattern.size + 1) + pattern.size := rfl
  have hbound : (pattern.size + 1) * (pattern.size + 2) * (text.size + 1) =
      ((pattern.size + 1) * (text.size + 1) + text.size) * (pattern.size + 1) + pattern.size + 1 := by
    ring
  omega

end Cursor
end Glob

open Glob

/-- Whether a text has the form of a pattern is found out in the end, whatever they are.  On the way
no place passes the end of the pattern or of the text; the last star lies before the place in the
pattern and does not reach past the place in the text; and no turn looks up a character that is not
there.  The number of turns is bounded by the lengths of the two. -/
theorem globMatches_ends_in_range (pattern text : String) :
    let p := pattern.toList.toArray
    let t := text.toList.toArray
    Loop.Ends (Cursor.turn p t) {} (globMatches pattern text) ∧
      ∀ n c, Loop.Turns (Cursor.turn p t) {} n c →
        c.inPattern ≤ p.size ∧ c.inText ≤ t.size ∧
        (∀ star reach, c.star = some (star, reach) → star < c.inPattern ∧ reach ≤ c.inText) ∧
        Cursor.turn p t c ≠ none ∧
        n < (p.size + 1) * (p.size + 2) * (t.size + 1) := by
  intro p t
  have hstart : Cursor.InRange p t {} := Cursor.inRange_start p t
  refine ⟨Cursor.ends_walk hstart, ?_⟩
  intro n c hturns
  have hsteady := Cursor.steady_turn p t
  have hrange := hsteady.keeps_turns hstart hturns
  have hlower := hsteady.lowers_turns hstart hturns
  have hrank := Cursor.rank_start_lt p t
  refine ⟨hrange.inPattern_le, hrange.inText_le, ?_, hsteady.safe c hrange, by omega⟩
  intro star reach hstar
  exact hrange.star_lt _ hstar

/-- The star has to reach further, so the walk goes back from the third character of the text to the
second. -/
theorem globMatches_ends_in_range_back :
    let p := "*aab".toList.toArray
    let t := "aaab".toList.toArray
    let c : Cursor := ⟨1, 1, some (0, 1)⟩
    Loop.Turns (Cursor.turn p t) {} 4 c ∧ Cursor.turn p t ⟨3, 2, some (0, 0)⟩ = some (.next c) ∧
      c.inPattern ≤ p.size ∧ c.inText ≤ t.size ∧ 0 < c.inPattern ∧ 1 ≤ c.inText ∧
      Cursor.turn p t c ≠ none ∧ 4 < (p.size + 1) * (p.size + 2) * (t.size + 1) := by
  intro p t c
  have hback : Cursor.turn p t ⟨3, 2, some (0, 0)⟩ = some (.next c) := by decide
  have hmark : Loop.Turns (Cursor.turn p t) {} 1 ⟨1, 0, some (0, 0)⟩ := .succ .zero (by decide)
  have hpass : Loop.Turns (Cursor.turn p t) {} 2 ⟨2, 1, some (0, 0)⟩ := hmark.succ (by decide)
  have hturns : Loop.Turns (Cursor.turn p t) {} 3 ⟨3, 2, some (0, 0)⟩ := hpass.succ (by decide)
  obtain ⟨-, hall⟩ := globMatches_ends_in_range "*aab" "aaab"
  obtain ⟨hpattern, htext, hstar, hsafe, hnumber⟩ := hall 4 c (hturns.succ hback)
  obtain ⟨hbefore, hreach⟩ := hstar 0 1 rfl
  exact ⟨hturns.succ hback, hback, hpattern, htext, hbefore, hreach, hsafe, hnumber⟩

end Text
end Uplink
