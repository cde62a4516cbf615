import Uplink.Proofs.Modem.Sayings

/-!
# The search for the identity

Of the lines of a modem, those that may be answers about its identity are the numbers and the
confirmations, and no other line changes the search.  The search has five stages: nothing is picked
yet, or a number, or a number and its confirmation, or these and a second number, or all four, and then
the identity is decided.  A whole echo decides the identity whatever was picked before it, but it
decides it well only if no other number was.
-/

namespace Uplink
namespace Modem

/-- A line that may be an answer about the identity. -/
def isAnswer (line : String) : Bool :=
  isIdentity line || line = confirmation

section

variable {line number : String}

theorem isIdentity_confirmation : isIdentity confirmation = false := by
  decide

theorem ne_confirmation_of_isIdentity (h : isIdentity number = true) : number ≠ confirmation := by
  rintro rfl
  rw [isIdentity_confirmation] at h
  cases h

theorem ne_unknownIdentity_of_isIdentity (h : isIdentity number = true) :
    number ≠ unknownIdentity := by
  rintro rfl
  revert h
  decide

/-- No report is an answer about the identity, since it does not start with a digit. -/
theorem isAnswer_report {tag : String} {mark : Char} {rest : List Char}
    (htag : tag.toList = mark :: rest) (hdigit : mark.isDigit = false) (hmark : mark ≠ 'O')
    (data : String) : isAnswer (tag ++ data) = false := by
  have hline : (tag ++ data).toList = mark :: (rest ++ data.toList) := by
    rw [String.toList_append, htag, List.cons_append]
  have hidentity : isIdentity (tag ++ data) = false := by
    simp [isIdentity, hline, hdigit]
  have hne : tag ++ data ≠ confirmation := by
    intro h
    have hconfirmation : confirmation.toList = ['O', 'K'] := by decide
    rw [h, hconfirmation] at hline
    exact hmark (List.cons.inj hline).1.symm
  simp [isAnswer, hidentity, hne]

end

namespace IdentityTracker

/-- The search after lines that are considered one after another. -/
def considerAll (tracker : IdentityTracker) (lines : List String) : IdentityTracker :=
  lines.foldl (fun tracker line => (tracker.consider line).1) tracker

section

variable {tracker : IdentityTracker} {line number : String}

theorem considerAll_cons (tracker : IdentityTracker) (line : String) (lines : List String) :
    tracker.considerAll (line :: lines) = (tracker.consider line).1.considerAll lines :=
  rfl

/-- A line that fits is picked. -/
theorem consider_of_fits (hidentity : tracker.identity = none) (hfits : tracker.fits line = true) :
    (tracker.consider line).1 = ⟨tracker.candidates ++ [line],
      (decide? (tracker.candidates ++ [line])).map Resolution.identity⟩ := by
  simp [consider, hidentity, hfits]

/-- A line that does not fit is passed over. -/
theorem consider_of_not_fits (hfits : tracker.fits line = false) :
    (tracker.consider line).1 = tracker := by
  simp [consider, hfits]

theorem consider_of_decided (hidentity : tracker.identity.isSome = true) :
    (tracker.consider line).1 = tracker := by
  simp [consider, hidentity]

theorem consider_cases (tracker : IdentityTracker) (line : String) :
    (tracker.consider line).1 = tracker ∨
      (tracker.consider line).1.candidates = tracker.candidates ++ [line] := by
  by_cases hidentity : tracker.identity.isSome
  · exact .inl (consider_of_decided hidentity)
  · by_cases hfits : tracker.fits line
    · refine .inr ?_
      rw [consider_of_fits (by simpa using hidentity) hfits]
    · exact .inl (consider_of_not_fits (eq_false_of_ne_true hfits))

theorem isAnswer_of_fits (h : tracker.fits line = true) : isAnswer line = true := by
  unfold fits at h
  unfold isAnswer
  split at h
  · simp only [h, Bool.or_true]
  · simp only [h, Bool.true_or]

/-- The lines that are picked are some of those that are considered, in order. -/
theorem exists_picked (tracker : IdentityTracker) (lines : List String) :
    ∃ picked, (tracker.considerAll lines).candidates = tracker.candidates ++ picked ∧
      picked.Sublist lines := by
  induction lines generalizing tracker with
  | nil => exact ⟨[], by simp [considerAll], .refl _⟩
  | cons line lines ih =>
      rw [considerAll_cons]
      obtain ⟨picked, hcandidates, hsublist⟩ := ih (tracker.consider line).1
      rcases tracker.consider_cases line with hsame | hpicked
      · rw [hsame] at hcandidates ⊢
        exact ⟨picked, hcandidates, hsublist.cons line⟩
      · rw [hpicked, List.append_assoc] at hcandidates
        exact ⟨line :: picked, hcandidates, hsublist.cons_cons line⟩

end

/-- Fewer than four lines decide nothing. -/
theorem decide?_of_length_lt {lines : List String} (h : lines.length < 4) : decide? lines = none := by
  unfold decide?
  split
  · simp at h
  · rfl

@[simp]
theorem map_identity_decide? (first second : String) :
    (decide? [first, confirmation, second, confirmation]).map Resolution.identity =
      some (if first = second then first else unknownIdentity) := by
  by_cases hsame : first = second <;> simp [decide?, hsame, Resolution.identity]

/-! ## The stages of the search -/

/-- How far a search may be. -/
inductive Staged : IdentityTracker → Prop where
  | blank : Staged {}
  | once {number : String} (h : isIdentity number = true) : Staged ⟨[number], none⟩
  | confirmed {number : String} (h : isIdentity number = true) :
      Staged ⟨[number, confirmation], none⟩
  | twice {number number' : String} (h : isIdentity number = true) (h' : isIdentity number' = true) :
      Staged ⟨[number, confirmation, number'], none⟩
  | decided {number number' : String} (h : isIdentity number = true)
      (h' : isIdentity number' = true) :
      Staged ⟨[number, confirmation, number', confirmation],
        some (if number = number' then number else unknownIdentity)⟩

section

variable {tracker : IdentityTracker} {lines : List String} {number : String}

theorem Staged.consider (h : tracker.Staged) (line : String) : (tracker.consider line).1.Staged := by
  by_cases hfits : tracker.fits line
  · cases h with
    | blank =>
        have hline : isIdentity line = true := by simpa [fits] using hfits
        rw [consider_of_fits rfl hfits]
        exact .once hline
    | once h =>
        obtain rfl : line = confirmation := by simpa [fits] using hfits
        rw [consider_of_fits rfl hfits]
        exact .confirmed h
    | confirmed h =>
        have hline : isIdentity line = true := by simpa [fits] using hfits
        rw [consider_of_fits rfl hfits]
        exact .twice h hline
    | @twice number number' h h' =>
        obtain rfl : line = confirmation := by simpa [fits] using hfits
        rw [consider_of_fits rfl hfits]
        simpa using Staged.decided h h'
    | decided h h' =>
        rw [consider_of_decided rfl]
        exact .decided h h'
  · rw [consider_of_not_fits (eq_false_of_ne_true hfits)]
    exact h

theorem Staged.considerAll (h : tracker.Staged) (lines : List String) :
    (tracker.considerAll lines).Staged := by
  induction lines generalizing tracker with
  | nil => exact h
  | cons line lines ih => exact ih (h.consider line)

/-- The identity is decided by two numbers and their confirmations. -/
theorem Staged.decided_by (h : tracker.Staged) {identity : String}
    (hidentity : tracker.identity = some identity) :
    ∃ number number', isIdentity number = true ∧ isIdentity number' = true ∧
      tracker.candidates = [number, confirmation, number', confirmation] ∧
      identity = if number = number' then number else unknownIdentity := by
  cases h with
  | blank | once | confirmed | twice => cases hidentity
  | @decided number number' h h' =>
      cases hidentity
      exact ⟨number, number', h, h', rfl, rfl⟩

/-- What two confirmed numbers decide is a given number just if both are this number. -/
theorem resolution_eq_iff (hnumber : isIdentity number = true) (first second : String) :
    (if first = second then first else unknownIdentity) = number ↔
      first = number ∧ second = number := by
  have hknown := ne_unknownIdentity_of_isIdentity hnumber
  by_cases hsame : first = second
  · subst hsame
    simp
  · rw [if_neg hsame]
    constructor
    · intro h
      exact absurd h.symm hknown
    · rintro ⟨rfl, rfl⟩
      exact absurd rfl hsame

/-- A whole echo adds what is missing to the lines that were picked before it. -/
theorem Staged.echo (h : tracker.Staged) (hidentity : tracker.identity = none)
    (hnumber : isIdentity number = true) :
    ∃ first second,
      tracker.considerAll [number, confirmation, number, confirmation] =
        ⟨[first, confirmation, second, confirmation],
          some (if first = second then first else unknownIdentity)⟩ ∧
      (first = number ∧ second = number ↔
        ∀ other ∈ tracker.candidates, isIdentity other = true → other = number) := by
  have hne := ne_confirmation_of_isIdentity hnumber
  cases h with
  | blank =>
      refine ⟨number, number, ?_, by simp⟩
      simp [IdentityTracker.considerAll, IdentityTracker.consider, fits, hnumber, decide?_of_length_lt]
  | @once first h =>
      -- the first number of the echo stands where a confirmation is due
      refine ⟨first, number, ?_, by simp [h]⟩
      simp [IdentityTracker.considerAll, IdentityTracker.consider, fits, hnumber, hne,
        decide?_of_length_lt]
  | @confirmed first h =>
      refine ⟨first, number, ?_, by simp [h, isIdentity_confirmation]⟩
      simp [IdentityTracker.considerAll, IdentityTracker.consider, fits, hnumber,
        decide?_of_length_lt]
  | @twice first second h h' =>
      refine ⟨first, second, ?_, by simp [h, h', isIdentity_confirmation]⟩
      simp [IdentityTracker.considerAll, IdentityTracker.consider, fits, hne]
  | decided => cases hidentity

end
end IdentityTracker

/-! ## What lines do to the search -/

section

variable {tracker : IdentityTracker} {lines : List String} {number : String}

/-- Of a line, the search regards whether it is an answer and considers it then. -/
theorem interpret_fst (tracker : IdentityTracker) (line : String) :
    (interpret tracker line).1 = if isAnswer line then (tracker.consider line).1 else tracker := by
  rcases interpret_cases tracker line with
    ⟨data, rfl, hinterpret⟩ | ⟨data, rfl, hinterpret⟩ | ⟨-, -, hinterpret⟩
  · have htag : FlowReport.tag.toList = '^' :: "DSFLOWRPT:".toList := by decide
    rw [hinterpret, isAnswer_report htag (by decide) (by decide)]
    rfl
  · have htag : signalTag.toList = '+' :: "CSQ:".toList := by decide
    rw [hinterpret, isAnswer_report htag (by decide) (by decide)]
    rfl
  · rw [hinterpret]
    by_cases hanswer : isAnswer line
    · rw [if_pos hanswer]
    · have hfits : tracker.fits line = false := by
        refine eq_false_of_ne_true ?_
        intro hfits
        exact hanswer (IdentityTracker.isAnswer_of_fits hfits)
      rw [if_neg hanswer, IdentityTracker.consider_of_not_fits hfits]

/-- The search after some lines is the search after those that may be answers. -/
theorem discuss_fst (tracker : IdentityTracker) (lines : List String) :
    (discuss tracker lines).1 = tracker.considerAll (lines.filter isAnswer) := by
  induction lines generalizing tracker with
  | nil => rfl
  | cons line lines ih =>
      rw [discuss, ih, interpret_fst]
      by_cases hanswer : isAnswer line
      · rw [if_pos hanswer, List.filter_cons_of_pos hanswer, IdentityTracker.considerAll_cons]
      · rw [if_neg hanswer, List.filter_cons_of_neg hanswer]

theorem staged_discuss (h : tracker.Staged) (lines : List String) :
    (discuss tracker lines).1.Staged := by
  rw [discuss_fst]
  exact h.considerAll _

end
end Modem
end Uplink
