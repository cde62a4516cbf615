import Mathlib.Data.Nat.Notation
import Uplink.Text.Glob

/-!
# What a pattern describes

A text has the form of a pattern if the stars of the pattern can be replaced by runs of characters
and its question marks by single characters so that the text results.  The walk accepts such texts
only.

The walk remembers just the last star.  That is enough: whatever an earlier star could still be
taken to reach, the last one reaches it as well.  The argument needs that no star of the pattern was
passed as if it stood for itself, which the walk does where it meets a star of the text; so a text
with stars may be refused although it has the form of a pattern with stars.
-/

namespace Uplink
namespace Text
namespace Glob

/-- A text has the form of a pattern. -/
inductive Fits : List Char → List Char → Prop where
  | nil : Fits [] []
  | star {pattern text : List Char} (run : List Char) :
      Fits pattern text → Fits ('*' :: pattern) (run ++ text)
  | any {pattern text : List Char} (c : Char) :
      Fits pattern text → Fits ('?' :: pattern) (c :: text)
  | char {pattern text : List Char} {c : Char} :
      c ≠ '*' → c ≠ '?' → Fits pattern text → Fits (c :: pattern) (c :: text)

variable {pattern text : List Char}

theorem fits_star_iff : Fits ('*' :: pattern) text ↔ ∃ k, Fits pattern (text.drop k) := by
  constructor
  · intro h
    cases h with
    | star run h => exact ⟨run.length, by rwa [List.drop_left]⟩
    | char hstar _ _ => exact absurd rfl hstar
  · rintro ⟨k, h⟩
    rw [← List.take_append_drop k text]
    exact .star _ h

theorem fits_cons_iff {x : Char} (hx : x ≠ '*') :
    Fits (x :: pattern) text ↔ ∃ c rest, text = c :: rest ∧ (x = '?' ∨ x = c) ∧ Fits pattern rest := by
  constructor
  · intro h
    cases h with
    | star run _ => exact absurd rfl hx
    | any c h => exact ⟨c, _, rfl, Or.inl rfl, h⟩
    | char _ _ h => exact ⟨x, _, rfl, Or.inr rfl, h⟩
  · rintro ⟨c, rest, rfl, hxc, h⟩
    by_cases hany : x = '?'
    · rw [hany]
      exact .any c h
    · obtain rfl := hxc.resolve_left hany
      exact .char hx hany h

theorem fits_nil_iff : Fits [] text ↔ text = [] := by
  constructor
  · intro h
    cases h
    rfl
  · rintro rfl
    exact .nil

/-- Only stars stand for nothing. -/
theorem fits_nil_right_iff : Fits pattern [] ↔ ∀ x ∈ pattern, x = '*' := by
  induction pattern with
  | nil => simp [fits_nil_iff]
  | cons x pattern ih =>
      rw [List.forall_mem_cons, ← ih]
      by_cases hx : x = '*'
      · simp [hx, fits_star_iff]
      · simp [hx, fits_cons_iff]

/-- A part of a pattern without stars stands for as many characters. -/
theorem Fits.drop_of_plain {part : List Char} (hpart : '*' ∉ part) (h : Fits (part ++ pattern) text) :
    Fits pattern (text.drop part.length) := by
  induction part generalizing text with
  | nil => exact h
  | cons x part ih =>
      rw [List.mem_cons, not_or] at hpart
      obtain ⟨c, rest, rfl, -, hrest⟩ := (fits_cons_iff (Ne.symm hpart.1)).mp h
      exact ih hpart.2 hrest

namespace Cursor

variable {pattern text : Array Char} {c next : Cursor}

/-! ## One step -/

/-- The rest of the text has the form of the rest of the pattern. -/
def Here (pattern text : Array Char) (c : Cursor) : Prop :=
  Fits (pattern.toList.drop c.inPattern) (text.toList.drop c.inText)

/-- What a step of the walk finds, and where it leads. -/
inductive StepCase (pattern text : Array Char) (c : Cursor) : Option Cursor → Prop where
  | pass {x y : Char} :
      pattern.toList.drop c.inPattern = x :: pattern.toList.drop (c.inPattern + 1) →
      text.toList.drop c.inText = y :: text.toList.drop (c.inText + 1) → x = '?' ∨ x = y →
        StepCase pattern text c
          (some { c with inPattern := c.inPattern + 1, inText := c.inText + 1 })
  | mark :
      pattern.toList.drop c.inPattern = '*' :: pattern.toList.drop (c.inPattern + 1) →
        StepCase pattern text c
          (some { c with inPattern := c.inPattern + 1, star := some (c.inPattern, c.inText) })
  | back {star reach : ℕ} : ¬ Here pattern text c → c.star = some (star, reach) →
      StepCase pattern text c (some ⟨star + 1, reach + 1, some (star, reach + 1)⟩)
  | stuck : ¬ Here pattern text c → c.star = none → StepCase pattern text c none

theorem drop_eq_cons {a : Array Char} {i : ℕ} {x : Char} (h : a[i]? = some x) :
    a.toList.drop i = x :: a.toList.drop (i + 1) := by
  rw [← Array.getElem?_toList] at h
  obtain ⟨hlt, rfl⟩ := List.getElem?_eq_some_iff.mp h
  exact List.drop_eq_getElem_cons hlt

/-- Where a character has no counterpart and is no star, the texts do not fit. -/
theorem not_here {y : Char} (hy : text[c.inText]? = some y)
    (hpass : ∀ x, pattern[c.inPattern]? = some x → ¬ (x = '?' ∨ x = y))
    (hmark : pattern[c.inPattern]? ≠ some '*') : ¬ Here pattern text c := by
  intro h
  rw [Here, drop_eq_cons hy] at h
  cases hx : pattern[c.inPattern]? with
  | none =>
      rw [← Array.getElem?_toList, List.getElem?_eq_none_iff] at hx
      rw [List.drop_eq_nil_of_le hx, fits_nil_iff] at h
      cases h
  | some x =>
      have hstar : x ≠ '*' := fun heq => hmark (heq ▸ hx)
      rw [drop_eq_cons hx, fits_cons_iff hstar] at h
      obtain ⟨_, _, heq, hor, -⟩ := h
      cases heq
      exact hpass x hx hor

theorem step_cases (pattern : Array Char) (htext : c.inText < text.size) :
    StepCase pattern text c (c.step pattern text) := by
  obtain ⟨y, hy⟩ : ∃ y, text[c.inText]? = some y := ⟨_, Array.getElem?_eq_getElem htext⟩
  unfold step
  dsimp only
  rw [hy]
  by_cases hpass : ∃ x, pattern[c.inPattern]? = some x ∧ (x = '?' ∨ x = y)
  · obtain ⟨x, hx, hxy⟩ := hpass
    rw [if_pos (by simpa [hx] using hxy)]
    exact .pass (drop_eq_cons hx) (drop_eq_cons hy) hxy
  · have hskip : ¬ (pattern[c.inPattern]?.isSome = true ∧
        (pattern[c.inPattern]? = some '?' ∨ pattern[c.inPattern]? = some y)) := by
      rintro ⟨-, hx | hx⟩
      · exact hpass ⟨_, hx, Or.inl rfl⟩
      · exact hpass ⟨_, hx, Or.inr rfl⟩
    rw [if_neg hskip]
    by_cases hmark : pattern[c.inPattern]? = some '*'
    · rw [if_pos hmark]
      exact .mark (drop_eq_cons hmark)
    · have hnot : ¬ Here pattern text c :=
        not_here hy (fun x hx hor => hpass ⟨x, hx, hor⟩) hmark
      rw [if_neg hmark]
      cases hstar : c.star with
      | none => exact .stuck hnot hstar
      | some last => exact .back hnot hstar

/-! ## What the walk accepts -/

/-- The walk can still end well: from where it is, or with the last star reaching further. -/
def Open (pattern text : Array Char) (c : Cursor) : Prop :=
  Here pattern text c ∨ ∃ star reach k, c.star = some (star, reach) ∧ reach < k ∧
    Fits (pattern.toList.drop (star + 1)) (text.toList.drop k)

theorem StepCase.open_of (h : StepCase pattern text c (some next)) (hnext : Open pattern text next) :
    Open pattern text c := by
  cases h with
  | @pass x y hx hy hxy =>
      rcases hnext with hhere | hstar
      · left
        rw [Here, hx, hy]
        by_cases heq : x = '*'
        · -- the walk takes the star for itself, which is one way to take it
          rw [heq]
          exact .star [y] hhere
        · exact (fits_cons_iff heq).mpr ⟨y, _, rfl, hxy, hhere⟩
      · exact Or.inr hstar
  | mark hx =>
      left
      rw [Here, hx, fits_star_iff]
      rcases hnext with hhere | ⟨star, reach, k, hstar, hk, hfits⟩
      · exact ⟨0, hhere⟩
      · cases hstar
        refine ⟨k - c.inText, ?_⟩
        rwa [List.drop_drop, Nat.add_sub_cancel' (Nat.le_of_lt hk)]
  | @back star reach _ hstar =>
      right
      rcases hnext with hhere | ⟨_, _, k, hlast, hk, hfits⟩
      · exact ⟨star, reach, reach + 1, hstar, Nat.lt_succ_self reach, hhere⟩
      · cases hlast
        exact ⟨star, reach, k, hstar, Nat.lt_of_succ_lt hk, hfits⟩

/-- What the walk accepts has the form of the pattern. -/
theorem open_of_walk (h : InRange pattern text c) (hwalk : c.walk h = true) :
    Open pattern text c := by
  fun_induction walk c h with
  | case1 c h htext next hstep ih =>
      have hcase := step_cases pattern htext
      rw [hstep] at hcase
      exact hcase.open_of (ih hwalk)
  | case2 c h htext hstep => cases hwalk
  | case3 c h htext =>
      left
      have hend : text.toList.drop c.inText = [] := List.drop_eq_nil_of_le (Nat.le_of_not_lt htext)
      rw [Here, hend, fits_nil_right_iff]
      simpa using hwalk

/-! ## What the walk refuses -/

/-- No star of the pattern can meet a star of the text. -/
def Plain (pattern text : Array Char) : Prop :=
  '*' ∉ pattern.toList ∨ '*' ∉ text.toList

/-- Since the last star the walk has passed a part of the pattern without stars, and as much of the
text. -/
def Tight (pattern : Array Char) (c : Cursor) : Prop :=
  ∀ star reach, c.star = some (star, reach) →
    ∃ part, pattern.toList.drop (star + 1) = part ++ pattern.toList.drop c.inPattern ∧
      '*' ∉ part ∧ c.inText = reach + part.length

theorem Plain.ne_star {x y : Char} {i j : ℕ} {rest later : List Char} (h : Plain pattern text)
    (hx : pattern.toList.drop i = x :: rest) (hy : text.toList.drop j = y :: later)
    (hxy : x = '?' ∨ x = y) : x ≠ '*' := by
  rintro rfl
  have hmem : '*' ∈ pattern.toList := List.mem_of_mem_drop (hx ▸ List.mem_cons_self)
  have hmem' : y ∈ text.toList := List.mem_of_mem_drop (hy ▸ List.mem_cons_self)
  rcases hxy with heq | rfl
  · exact absurd heq (by decide)
  · exact h.elim (absurd hmem) (absurd hmem')

theorem StepCase.tight (h : StepCase pattern text c (some next)) (hplain : Plain pattern text)
    (htight : Tight pattern c) : Tight pattern next := by
  intro star reach hstar
  cases h with
  | @pass x y hx hy hxy =>
      obtain ⟨part, hpart, hnot, hreach⟩ := htight star reach hstar
      refine ⟨part ++ [x], ?_, ?_, ?_⟩
      · rw [hpart, hx, List.append_assoc, List.singleton_append]
      · have hne := hplain.ne_star hx hy hxy
        simp [hnot, Ne.symm hne]
      · rw [hreach, List.length_append, List.length_singleton, Nat.add_assoc]
  | mark _ =>
      cases hstar
      exact ⟨[], rfl, List.not_mem_nil, rfl⟩
  | back _ _ =>
      cases hstar
      exact ⟨[], rfl, List.not_mem_nil, rfl⟩

/-- A step gives nothing up. -/
theorem StepCase.open_next (h : StepCase pattern text c (some next)) (hplain : Plain pattern text)
    (htight : Tight pattern c) (hopen : Open pattern text c) : Open pattern text next := by
  cases h with
  | @pass x y hx hy hxy =>
      rcases hopen with hhere | hstar
      · left
        rw [Here, hx, hy] at hhere
        obtain ⟨_, _, heq, -, hrest⟩ := (fits_cons_iff (hplain.ne_star hx hy hxy)).mp hhere
        cases heq
        exact hrest
      · exact Or.inr hstar
  | mark hx =>
      -- what the new star stands for starts here, or later if an older star reaches further
      obtain ⟨k, hk, hfits⟩ : ∃ k, c.inText ≤ k ∧
          Fits (pattern.toList.drop (c.inPattern + 1)) (text.toList.drop k) := by
        rcases hopen with hhere | ⟨star, reach, k, hstar, hk, hfits⟩
        · rw [Here, hx, fits_star_iff] at hhere
          obtain ⟨k, hfits⟩ := hhere
          rw [List.drop_drop] at hfits
          exact ⟨c.inText + k, Nat.le_add_right _ _, hfits⟩
        · obtain ⟨part, hpart, hnot, hreach⟩ := htight star reach hstar
          rw [hpart] at hfits
          have hrest := hfits.drop_of_plain hnot
          rw [hx, fits_star_iff] at hrest
          obtain ⟨j, hfits'⟩ := hrest
          rw [List.drop_drop, List.drop_drop] at hfits'
          exact ⟨_, by omega, hfits'⟩
      rcases Nat.eq_or_lt_of_le hk with rfl | hlt
      · exact Or.inl hfits
      · exact Or.inr ⟨_, _, k, rfl, hlt, hfits⟩
  | @back star reach hnot hstar =>
      rcases hopen with hhere | ⟨_, _, k, hlast, hk, hfits⟩
      · exact absurd hhere hnot
      · rw [hstar] at hlast
        cases hlast
        rcases Nat.eq_or_lt_of_le (Nat.succ_le_of_lt hk) with rfl | hlt
        · exact Or.inl hfits
        · exact Or.inr ⟨_, _, k, rfl, hlt, hfits⟩

/-- At the end of the text only stars may be left, however far the last star reaches. -/
theorem Tight.forall_star_of_end (htight : Tight pattern c) (hend : text.size ≤ c.inText)
    (hopen : Open pattern text c) : ∀ x ∈ pattern.toList.drop c.inPattern, x = '*' := by
  rw [← fits_nil_right_iff]
  rcases hopen with hhere | ⟨star, reach, k, hstar, hk, hfits⟩
  · rwa [Here, List.drop_eq_nil_of_le hend] at hhere
  · obtain ⟨part, hpart, hnot, hreach⟩ := htight star reach hstar
    rw [hpart] at hfits
    have hrest := hfits.drop_of_plain hnot
    have hpast : text.toList.length ≤ k + part.length := by
      rw [Array.length_toList]
      omega
    rwa [List.drop_drop, List.drop_eq_nil_of_le hpast] at hrest

theorem walk_of_open (h : InRange pattern text c) (hplain : Plain pattern text)
    (htight : Tight pattern c) (hopen : Open pattern text c) : c.walk h = true := by
  fun_induction walk c h with
  | case1 c h htext next hstep ih =>
      have hcase := step_cases pattern htext
      rw [hstep] at hcase
      exact ih (hcase.tight hplain htight) (hcase.open_next hplain htight hopen)
  | case2 c h htext hstep =>
      have hcase := step_cases pattern htext
      rw [hstep] at hcase
      cases hcase with
      | stuck hnot hnone =>
          rcases hopen with hhere | ⟨star, reach, k, hstar, -⟩
          · exact absurd hhere hnot
          · rw [hnone] at hstar
            cases hstar
  | case3 c h htext =>
      have hall := htight.forall_star_of_end (Nat.le_of_not_lt htext) hopen
      simpa using hall

end Cursor
end Glob

open Glob

/-- What matches a pattern has its form. -/
theorem fits_of_globMatches {pattern text : String} (h : globMatches pattern text = true) :
    Fits pattern.toList text.toList := by
  rcases Cursor.open_of_walk _ h with hhere | ⟨_, _, _, hstar, -⟩
  · exact hhere
  · cases hstar

/-- What has the form of a pattern matches it, unless both have a star. -/
theorem globMatches_of_fits {pattern text : String}
    (hplain : '*' ∉ pattern.toList ∨ '*' ∉ text.toList) (h : Fits pattern.toList text.toList) :
    globMatches pattern text = true := by
  refine Cursor.walk_of_open _ hplain ?_ (Or.inl h)
  intro star reach hstar
  cases hstar

end Text
end Uplink
