import Mathlib.Data.List.ReduceOption
import Mathlib.Logic.Relation
import Uplink.Proofs.Modem.Search

/-!
# How the identity is decided

The search has four places: for a number, a confirmation, a second number and a second confirmation.
A line is picked if it fits the first place that is not taken, and skipped otherwise.  Which lines are
picked is said below without the tracker, and the tracker is then a function of them: lines that are
skipped may come and go.
-/

namespace Uplink
namespace Modem

/-- A number has exactly fifteen characters, each of them a digit from zero to nine. -/
def IsNumber (line : String) : Prop :=
  line.toList.length = 15 ∧ ∀ c ∈ line.toList, '0' ≤ c ∧ c ≤ '9'

/-- What each place asks of a line.  There are four places. -/
def Fits : ℕ → String → Prop
  | 0, line | 2, line => IsNumber line
  | 1, line | 3, line => line = "OK"
  | _, _ => False

/-- The lines that are picked for the places from a given one on: each line is picked for the next
place if it fits there, and skipped otherwise. -/
inductive Picks : ℕ → List String → List String → Prop where
  | nil (place : ℕ) : Picks place [] []
  | skip {place : ℕ} {line : String} {lines picked : List String} :
      ¬ Fits place line → Picks place lines picked → Picks place (line :: lines) picked
  | pick {place : ℕ} {line : String} {lines picked : List String} :
      Fits place line → Picks (place + 1) lines picked →
        Picks place (line :: lines) (line :: picked)

/-- A line is put in where it is skipped. -/
inductive Padded : List String → List String → Prop where
  | intro {before picked after : List String} {line : String} :
      Picks 0 before picked → ¬ Fits picked.length line →
        Padded (before ++ after) (before ++ line :: after)

section

variable {place : ℕ} {line : String} {lines before after picked picked' : List String}

theorem isIdentity_iff : isIdentity line = true ↔ IsNumber line := by
  have hdigit : ∀ c : Char, c.isDigit = true ↔ '0' ≤ c ∧ c ≤ '9' := by
    intro c
    simp only [Char.isDigit, Bool.and_eq_true, decide_eq_true_eq]
    rfl
  simp [isIdentity, IsNumber, hdigit]

theorem Fits.lt_four (h : Fits place line) : place < 4 := by
  match place, h with
  | 0, _ | 1, _ | 2, _ | 3, _ => decide

/-! ## Picking -/

theorem exists_picks (place : ℕ) (lines : List String) : ∃ picked, Picks place lines picked := by
  induction lines generalizing place with
  | nil => exact ⟨[], .nil place⟩
  | cons line lines ih =>
      by_cases hfits : Fits place line
      · obtain ⟨picked, hpicked⟩ := ih (place + 1)
        exact ⟨line :: picked, .pick hfits hpicked⟩
      · obtain ⟨picked, hpicked⟩ := ih place
        exact ⟨picked, .skip hfits hpicked⟩

theorem Picks.unique (h : Picks place lines picked) (h' : Picks place lines picked') :
    picked = picked' := by
  induction h generalizing picked' with
  | nil =>
      cases h'
      rfl
  | skip hfits _ ih =>
      cases h' with
      | skip _ h' => exact ih h'
      | pick hfits' _ => exact absurd hfits' hfits
  | pick hfits _ ih =>
      cases h' with
      | skip hfits' _ => exact absurd hfits hfits'
      | pick _ h' => rw [ih h']

/-- No more lines are picked than there are places. -/
theorem Picks.length_le (h : Picks place lines picked) (hplace : place ≤ 4) :
    place + picked.length ≤ 4 := by
  induction h with
  | nil => exact hplace
  | skip _ _ ih => exact ih hplace
  | pick hfits _ ih =>
      have hle := ih hfits.lt_four
      rw [List.length_cons]
      omega

theorem Picks.fits (h : Picks place lines picked) {i : ℕ} (hi : picked[i]? = some line) :
    Fits (place + i) line := by
  induction h generalizing i with
  | nil => cases hi
  | skip _ _ ih => exact ih hi
  | @pick place _ _ _ hfits _ ih =>
      cases i with
      | zero =>
          cases hi
          exact hfits
      | succ i =>
          rw [← Nat.add_assoc, Nat.add_right_comm]
          exact ih hi

theorem Picks.append (h : Picks place before picked)
    (h' : Picks (place + picked.length) after picked') :
    Picks place (before ++ after) (picked ++ picked') := by
  induction h with
  | nil => exact h'
  | skip hfits _ ih => exact .skip hfits (ih h')
  | pick hfits _ ih =>
      rw [List.length_cons, ← Nat.add_assoc, Nat.add_right_comm] at h'
      exact .pick hfits (ih h')

/-- Of fewer lines no more are picked. -/
theorem Picks.exists_of_prefix (h : Picks place lines picked) (hbefore : before <+: lines) :
    ∃ picked', Picks place before picked' ∧ picked'.length ≤ picked.length := by
  obtain ⟨after, rfl⟩ := hbefore
  obtain ⟨early, hearly⟩ := exists_picks place before
  obtain ⟨late, hlate⟩ := exists_picks (place + early.length) after
  refine ⟨early, hearly, ?_⟩
  rw [h.unique (hearly.append hlate), List.length_append]
  exact Nat.le_add_right _ _

/-- Behind the line for the last place no line is picked. -/
theorem Picks.append_last (h : Picks 0 before picked) (hlength : picked.length = 3)
    (hlast : Fits 3 line) (after : List String) :
    Picks 0 (before ++ line :: after) (picked ++ [line]) := by
  obtain ⟨more, hmore⟩ := exists_picks 4 after
  have hnone : more = [] := by
    have hle := hmore.length_le (Nat.le_refl 4)
    exact List.length_eq_zero_iff.mp (by omega)
  subst hnone
  refine h.append ?_
  rw [hlength]
  exact .pick hlast hmore

/-- The line that is picked last stands behind those that are picked before it. -/
theorem Picks.exists_last (h : Picks place lines (picked ++ [line])) :
    ∃ before after, lines = before ++ line :: after ∧ Picks place before picked := by
  generalize hall : picked ++ [line] = all at h
  induction h generalizing picked with
  | nil => simp at hall
  | @skip _ skipped _ _ hfits _ ih =>
      obtain ⟨before, after, rfl, hbefore⟩ := ih hall
      exact ⟨skipped :: before, after, rfl, .skip hfits hbefore⟩
  | @pick place _ lines _ hfits _ ih =>
      cases picked with
      | nil =>
          cases hall
          exact ⟨[], lines, rfl, .nil place⟩
      | cons _ picked =>
          obtain ⟨rfl, hrest⟩ := List.cons.inj hall
          obtain ⟨before, after, rfl, hbefore⟩ := ih hrest
          exact ⟨_ :: before, after, rfl, .pick hfits hbefore⟩

/-- A line that is put in where it is skipped does not change what is picked. -/
theorem Padded.picks_iff (h : Padded lines after) : Picks 0 lines picked ↔ Picks 0 after picked := by
  have hall : ∃ all, Picks 0 lines all ∧ Picks 0 after all := by
    obtain @⟨before, found, after, line, hbefore, hskip⟩ := h
    obtain ⟨more, hmore⟩ := exists_picks found.length after
    rw [← Nat.zero_add found.length] at hmore hskip
    exact ⟨found ++ more, hbefore.append hmore, hbefore.append (.skip hskip hmore)⟩
  obtain ⟨all, hlines, hafter⟩ := hall
  constructor
  · intro h
    rw [h.unique hlines]
    exact hafter
  · intro h
    rw [h.unique hafter]
    exact hlines

theorem picks_iff_of_eqvGen (h : Relation.EqvGen Padded lines after) :
    Picks 0 lines picked ↔ Picks 0 after picked := by
  induction h with
  | rel _ _ h => exact h.picks_iff
  | refl _ => exact Iff.rfl
  | symm _ _ _ ih => exact ih.symm
  | trans _ _ _ _ _ ih ih' => exact ih.trans ih'

end

namespace IdentityTracker

/-- The search that has picked the given lines. -/
def having (picked : List String) : IdentityTracker :=
  ⟨picked, (decide? picked).map Resolution.identity⟩

/-- What comes of each line. -/
def resolutions (tracker : IdentityTracker) : List String → List (Option Resolution)
  | [] => []
  | line :: lines => (tracker.consider line).2 :: (tracker.consider line).1.resolutions lines

section

variable {place : ℕ} {line : String} {lines before after picked found : List String}

theorem isSome_decide?_iff : (decide? picked).isSome = true ↔ picked.length = 4 := by
  unfold decide?
  split
  · simp
  · rename_i hother
    constructor
    · nofun
    · intro hlength
      match picked, hlength with
      | [first, second, third, fourth], _ => exact absurd rfl (hother first second third fourth)

theorem isSome_identity_having : (having picked).identity.isSome = true ↔ picked.length = 4 := by
  rw [having, Option.isSome_map, isSome_decide?_iff]

theorem identity_having_four (first second third fourth : String) :
    (having [first, second, third, fourth]).identity =
      some (if first = third then first else "unknown") := by
  by_cases hsame : first = third
  · simp [having, decide?, hsame, Resolution.identity]
  · simp [having, decide?, hsame, Resolution.identity, unknownIdentity]

/-- While a place is free, a line fits the search if it fits this place. -/
theorem fits_iff (hplace : picked.length < 4) :
    (having picked).fits line = true ↔ Fits picked.length line := by
  have hparity : (having picked).fits line =
      if picked.length % 2 = 1 then decide (line = confirmation) else isIdentity line := rfl
  rw [hparity]
  generalize picked.length = place at hplace
  match place, hplace with
  | 0, _ | 2, _ => exact isIdentity_iff
  | 1, _ | 3, _ => exact decide_eq_true_iff

theorem consider_having_of_fits (h : Fits picked.length line) :
    (having picked).consider line = (having (picked ++ [line]), decide? (picked ++ [line])) := by
  have hplace := h.lt_four
  have hfits := (fits_iff hplace).mpr h
  have hopen : (having picked).identity.isSome = false := by
    rw [← Bool.not_eq_true, isSome_identity_having]
    omega
  rw [consider, hopen, hfits]
  rfl

theorem consider_having_of_not_fits (hplace : picked.length ≤ 4) (h : ¬ Fits picked.length line) :
    (having picked).consider line = (having picked, none) := by
  rcases Nat.lt_or_eq_of_le hplace with hlt | heq
  · have hfits : (having picked).fits line = false := by
      rw [← Bool.not_eq_true, fits_iff hlt]
      exact h
    rw [consider, hfits]
    simp
  · rw [consider, isSome_identity_having.mpr heq]
    rfl

/-! ## A row of lines -/

theorem resolutions_append (tracker : IdentityTracker) (before after : List String) :
    tracker.resolutions (before ++ after) =
      tracker.resolutions before ++ (tracker.considerAll before).resolutions after := by
  induction before generalizing tracker with
  | nil => rfl
  | cons line before ih =>
      rw [List.cons_append, resolutions, ih, resolutions, considerAll_cons]
      rfl

/-- The search has picked what is to be picked. -/
theorem considerAll_having (h : Picks place lines picked) (hplace : found.length = place)
    (hle : place ≤ 4) : (having found).considerAll lines = having (found ++ picked) := by
  induction h generalizing found with
  | nil => rw [List.append_nil]; rfl
  | skip hfits _ ih =>
      subst hplace
      rw [considerAll_cons, consider_having_of_not_fits hle hfits]
      exact ih rfl hle
  | @pick place line lines picked hfits _ ih =>
      subst hplace
      have hlt := hfits.lt_four
      have hmore := @ih (found ++ [line]) (by simp) hlt
      rw [considerAll_cons, consider_having_of_fits hfits, hmore, List.append_assoc]
      rfl

/-- As long as not all places are taken nothing is decided, and nothing is decided again. -/
theorem resolutions_having (h : Picks place lines picked) (hplace : found.length = place)
    (hle : place ≤ 4) (hnone : place + picked.length < 4 ∨ place = 4) :
    (having found).resolutions lines = List.replicate lines.length none := by
  induction h generalizing found with
  | nil => rfl
  | skip hfits _ ih =>
      subst hplace
      rw [resolutions, consider_having_of_not_fits hle hfits, ih rfl hle hnone]
      rfl
  | @pick place line lines picked hfits _ ih =>
      subst hplace
      have hlt := hfits.lt_four
      rw [List.length_cons] at hnone
      have hshort : (found ++ [line]).length < 4 := by
        rw [List.length_append, List.length_singleton]
        omega
      rw [resolutions, consider_having_of_fits hfits, decide?_of_length_lt hshort,
        ih (by simp) hlt (by omega)]
      rfl

theorem considerAll_of_picks (h : Picks 0 lines picked) : considerAll {} lines = having picked := by
  have hall : (having []).considerAll lines = having ([] ++ picked) :=
    considerAll_having h rfl (Nat.zero_le 4)
  exact hall

theorem identity_of_lt (h : Picks 0 lines picked) (hlt : picked.length < 4) :
    (considerAll {} lines).identity = none := by
  rw [considerAll_of_picks h, having, decide?_of_length_lt hlt, Option.map_none]

theorem resolutions_of_lt (h : Picks 0 lines picked) (hlt : picked.length < 4) :
    resolutions {} lines = List.replicate lines.length none := by
  have hall : (having []).resolutions lines = List.replicate lines.length none :=
    resolutions_having h rfl (Nat.zero_le 4) (.inl (by omega))
  exact hall

/-- The line for the last place decides, and no line before or after it does. -/
theorem resolutions_of_four {first second third fourth : String}
    (h : Picks 0 lines [first, second, third, fourth]) :
    ∃ before after, lines = before ++ fourth :: after ∧ Picks 0 before [first, second, third] ∧
      resolutions {} lines = List.replicate before.length none ++
        some (if first = third then .resolved first else .unknown) ::
          List.replicate after.length none := by
  have hlast : Fits 3 fourth := h.fits (i := 3) rfl
  have hconcat : Picks 0 lines ([first, second, third] ++ [fourth]) := h
  obtain ⟨before, after, rfl, hbefore⟩ := hconcat.exists_last
  obtain ⟨more, hmore⟩ := exists_picks 4 after
  have hdecides : (having [first, second, third]).consider fourth =
      (having [first, second, third, fourth],
        some (if first = third then .resolved first else .unknown)) :=
    consider_having_of_fits hlast
  refine ⟨before, after, rfl, hbefore, ?_⟩
  rw [resolutions_append, resolutions_of_lt hbefore (Nat.lt_succ_self 3),
    considerAll_of_picks hbefore, resolutions, hdecides,
    resolutions_having hmore rfl (Nat.le_refl 4) (.inr rfl)]

/-- What is decided depends on the lines that are picked only. -/
theorem reduceOption_resolutions (h : Picks 0 lines picked) :
    (resolutions {} lines).reduceOption = (decide? picked).toList := by
  rcases Nat.lt_or_eq_of_le (h.length_le (Nat.zero_le 4)) with hlt | heq
  · rw [Nat.zero_add] at hlt
    rw [resolutions_of_lt h hlt, decide?_of_length_lt hlt, List.reduceOption_replicate_none]
    rfl
  · rw [Nat.zero_add] at heq
    match picked, heq with
    | [first, second, third, fourth], _ =>
        obtain ⟨before, after, -, -, hall⟩ := resolutions_of_four h
        rw [hall, List.reduceOption_append, List.reduceOption_cons_of_some,
          List.reduceOption_replicate_none, List.reduceOption_replicate_none]
        rfl

/-! ## The decision -/

/-- From a search that begins anew, whatever lines are considered: some of them are picked, and which
ones is determined.  The search has picked these; they are four at most, each fits its place, and the
identity is there if and only if they are four.  With fewer than four no line decides anything.  With
four the last one of them decides, once, that the identity is the first number if the second number is
the same, and that it is unknown otherwise; before, there is no identity, and from then on there is this
one, whatever follows.  Lines that are skipped may be put in or left out anywhere, any number of them. -/
theorem decision (lines : List String) :
    ∃ picked, Picks 0 lines picked ∧ (∀ picked', Picks 0 lines picked' → picked' = picked) ∧
      -- what the search has picked
      ((considerAll {} lines).candidates = picked ∧ picked.length ≤ 4 ∧
        (∀ i line, picked[i]? = some line → Fits i line) ∧
        ((considerAll {} lines).identity.isSome = true ↔ picked.length = 4)) ∧
      -- what is decided, and when
      (picked.length < 4 → resolutions {} lines = List.replicate lines.length none) ∧
      (∀ first second third fourth, picked = [first, second, third, fourth] →
        ∃ before after, lines = before ++ fourth :: after ∧ Picks 0 before [first, second, third] ∧
          resolutions {} lines = List.replicate before.length none ++
            some (if first = third then .resolved first else .unknown) ::
              List.replicate after.length none ∧
          (∀ early, early <+: before → (considerAll {} early).identity = none) ∧
          ∀ later, (considerAll {} (before ++ fourth :: later)).identity =
            some (if first = third then first else "unknown")) ∧
      -- lines that are skipped
      ∀ lines', Relation.EqvGen Padded lines lines' →
        considerAll {} lines' = considerAll {} lines ∧
          (resolutions {} lines').reduceOption = (resolutions {} lines).reduceOption := by
  obtain ⟨picked, hpicked⟩ := exists_picks 0 lines
  have hle : picked.length ≤ 4 := Nat.zero_add picked.length ▸ hpicked.length_le (Nat.zero_le 4)
  refine ⟨picked, hpicked, fun _ h => h.unique hpicked, ⟨?_, hle, ?_, ?_⟩, ?_, ?_, ?_⟩
  · rw [considerAll_of_picks hpicked, having]
  · intro i line hi
    rw [← Nat.zero_add i]
    exact hpicked.fits hi
  · rw [considerAll_of_picks hpicked]
    exact isSome_identity_having
  · intro hlt
    exact resolutions_of_lt hpicked hlt
  · rintro first second third fourth rfl
    obtain ⟨before, after, rfl, hbefore, hall⟩ := resolutions_of_four hpicked
    refine ⟨before, after, rfl, hbefore, hall, ?_, ?_⟩
    · intro early hearly
      obtain ⟨found, hfound, hlength⟩ := hbefore.exists_of_prefix hearly
      exact identity_of_lt hfound (Nat.lt_succ_of_le hlength)
    · intro later
      have hlast : Fits 3 fourth := hpicked.fits (i := 3) rfl
      rw [considerAll_of_picks (hbefore.append_last rfl hlast later)]
      exact identity_having_four first second third fourth
  · intro lines' h
    have hpicked' := (picks_iff_of_eqvGen h).mp hpicked
    rw [considerAll_of_picks hpicked, considerAll_of_picks hpicked',
      reduceOption_resolutions hpicked, reduceOption_resolutions hpicked']
    exact ⟨rfl, rfl⟩

/-- A confirmation before the first number and a third number are skipped. -/
example :
    resolutions {} ["OK", "123456789012345", "AT+CGSN", "OK", "123456789012346", "999999999999999",
      "OK", "OK"] = [none, none, none, none, none, none, some .unknown, none] := by
  decide +kernel

end
end IdentityTracker
end Modem
end Uplink
