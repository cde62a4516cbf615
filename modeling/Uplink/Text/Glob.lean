/-!
# Patterns with stars

In a pattern a question mark stands for one character and a star for any number of characters; every
other character stands for itself.

Matching walks through the pattern and the text at once.  It remembers the last star and the place
of the text up to which the star was taken to reach; when the walk is stuck it goes back there and
lets the star reach one character further.  A star of the text is first taken for the star of the
pattern that meets it.
-/

namespace Uplink
namespace Text
namespace Glob

/-- How far the walk has come. -/
structure Cursor where
  /-- The place in the pattern. -/
  inPattern : Nat := 0
  /-- The place in the text. -/
  inText : Nat := 0
  /-- The last star, and the place in the text up to which it reaches. -/
  star : Option (Nat × Nat) := none
  deriving DecidableEq, Repr

namespace Cursor

variable {pattern text : Array Char}

/-- All places lie in the pattern and in the text, and the last star lies behind. -/
structure InRange (pattern text : Array Char) (c : Cursor) : Prop where
  /-- The place in the pattern is not past its end. -/
  inPattern_le : c.inPattern ≤ pattern.size
  /-- The place in the text is not past its end. -/
  inText_le : c.inText ≤ text.size
  /-- The last star lies before the place in the pattern, and does not reach past the place in the
  text. -/
  star_lt : ∀ at', c.star = some at' → at'.1 < c.inPattern ∧ at'.2 ≤ c.inText

theorem inRange_start (pattern text : Array Char) : InRange pattern text {} where
  inPattern_le := Nat.zero_le _
  inText_le := Nat.zero_le _
  star_lt := by simp

/-- One step of the walk, unless it is stuck for good. -/
def step (pattern text : Array Char) (c : Cursor) : Option Cursor :=
  let here := pattern[c.inPattern]?
  if here.isSome ∧ (here = some '?' ∨ here = text[c.inText]?) then
    some { c with inPattern := c.inPattern + 1, inText := c.inText + 1 }
  else if here = some '*' then
    some { c with inPattern := c.inPattern + 1, star := some (c.inPattern, c.inText) }
  else
    match c.star with
    | some (star, reach) => some ⟨star + 1, reach + 1, some (star, reach + 1)⟩
    | none => none

/-- What is left to try: stars of the pattern, then places up to which the last one may reach, then
places of the pattern. -/
def measure (pattern text : Array Char) (c : Cursor) : Nat × Nat × Nat :=
  match c.star with
  | some (star, reach) => (pattern.size - star, text.size - reach, pattern.size - c.inPattern)
  | none => (pattern.size + 1, text.size, pattern.size - c.inPattern)

theorem lt_size_of_getElem? {a : Array Char} {i : Nat} (h : (a[i]?).isSome = true) :
    i < a.size := by
  simpa using h

/-- A step stays in range. -/
theorem InRange.step {c next : Cursor} (h : InRange pattern text c) (htext : c.inText < text.size)
    (hstep : c.step pattern text = some next) : InRange pattern text next := by
  simp only [Cursor.step] at hstep
  split at hstep
  · rename_i hhere
    have hlt := lt_size_of_getElem? hhere.1
    simp only [Option.some.injEq] at hstep
    subst hstep
    refine ⟨hlt, htext, fun at' hat => ?_⟩
    have := h.star_lt at' hat
    exact ⟨Nat.lt_succ_of_lt this.1, Nat.le_succ_of_le this.2⟩
  · split at hstep
    · rename_i hstar
      have hlt : c.inPattern < pattern.size := lt_size_of_getElem? (by rw [hstar]; rfl)
      simp only [Option.some.injEq] at hstep
      subst hstep
      refine ⟨hlt, h.inText_le, fun at' hat => ?_⟩
      simp only [Option.some.injEq] at hat
      subst hat
      exact ⟨Nat.lt_succ_self _, Nat.le_refl _⟩
    · split at hstep
      · rename_i star reach hstar
        have hrange := h.star_lt _ hstar
        have hpattern := h.inPattern_le
        simp only [Option.some.injEq] at hstep
        subst hstep
        refine
          ⟨Nat.le_trans hrange.1 hpattern, Nat.lt_of_le_of_lt hrange.2 htext, fun at' hat => ?_⟩
        simp only [Option.some.injEq] at hat
        subst hat
        exact ⟨Nat.lt_succ_self _, Nat.le_refl _⟩
      · cases hstep

/-- A step leaves less to try, although it may go back. -/
theorem InRange.measure_step {c next : Cursor} (h : InRange pattern text c)
    (htext : c.inText < text.size) (hstep : c.step pattern text = some next) :
    Prod.Lex (· < ·) (Prod.Lex (· < ·) (· < ·)) (next.measure pattern text)
      (c.measure pattern text) := by
  simp only [Cursor.step] at hstep
  split at hstep
  · rename_i hhere
    have hlt := lt_size_of_getElem? hhere.1
    simp only [Option.some.injEq] at hstep
    subst hstep
    simp only [measure]
    split <;>
    · apply Prod.Lex.right
      apply Prod.Lex.right
      omega
  · split at hstep
    · rename_i hstar
      have hlt : c.inPattern < pattern.size := lt_size_of_getElem? (by rw [hstar]; rfl)
      simp only [Option.some.injEq] at hstep
      subst hstep
      simp only [measure]
      split
      · rename_i star reach hlast
        have := h.star_lt _ hlast
        apply Prod.Lex.left
        simp only at this
        omega
      · apply Prod.Lex.left
        omega
    · split at hstep
      · rename_i star reach hlast
        have := h.star_lt _ hlast
        simp only [Option.some.injEq] at hstep
        subst hstep
        simp only [measure, hlast]
        apply Prod.Lex.right
        apply Prod.Lex.left
        simp only at this
        omega
      · cases hstep

/-- Whether the walk ends well: at the end of the text only stars may be left. -/
def walk (c : Cursor) (h : InRange pattern text c) : Bool :=
  if htext : c.inText < text.size then
    match hstep : c.step pattern text with
    | some next => walk next (h.step htext hstep)
    | none => false
  else (pattern.toList.drop c.inPattern).all fun x => x = '*'
  termination_by c.measure pattern text
  decreasing_by exact h.measure_step htext hstep

end Cursor
end Glob

/-- Whether a text has the form that a pattern describes. -/
def globMatches (pattern text : String) : Bool :=
  Glob.Cursor.walk {} (Glob.Cursor.inRange_start pattern.toList.toArray text.toList.toArray)

end Text
end Uplink
