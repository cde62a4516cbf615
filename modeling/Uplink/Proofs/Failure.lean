import Mathlib.Data.List.Basic
import Mathlib.Data.List.Forall2
import Uplink.Failure

/-!
# Rows of operations

A row of operations succeeds if each of them does, and then has the results of all.  Otherwise the
first one that fails decides the failure.
-/

namespace Uplink
namespace Failure

variable {α β : Type} {f : α → Except Failure β}

theorem map_eq_error_iff {x : Except Failure α} {g : α → β} {failure : Failure} :
    x.map g = .error failure ↔ x = .error failure := by
  cases x <;> simp [Except.map]

theorem mem_of_mapM {l : List α} {r : List β} (h : l.mapM f = .ok r) {b : β} :
    b ∈ r ↔ ∃ a ∈ l, f a = .ok b := by
  induction l generalizing r with
  | nil =>
      cases h
      simp
  | cons a l ih =>
      rw [List.mapM_cons] at h
      obtain ⟨b', hb', h⟩ := ok_of_bind h
      obtain ⟨r', hr', h⟩ := ok_of_bind h
      cases h
      have htail := ih hr'
      rw [List.mem_cons, htail, List.exists_mem_cons_iff, hb']
      simp [eq_comm]

theorem exists_of_mapM {l : List α} {r : List β} (h : l.mapM f = .ok r) {a : α}
    (ha : a ∈ l) : ∃ b, f a = .ok b := by
  induction l generalizing r with
  | nil => cases ha
  | cons a' l ih =>
      rw [List.mapM_cons] at h
      obtain ⟨b', hb', h⟩ := ok_of_bind h
      obtain ⟨r', hr', -⟩ := ok_of_bind h
      rcases List.mem_cons.mp ha with rfl | ha
      · exact ⟨b', hb'⟩
      · exact ih hr' ha

theorem exists_mapM {l : List α} (h : ∀ a ∈ l, ∃ b, f a = .ok b) : ∃ r, l.mapM f = .ok r := by
  induction l with
  | nil => exact ⟨[], rfl⟩
  | cons a l ih =>
      obtain ⟨b, hb⟩ := h a List.mem_cons_self
      obtain ⟨r, hr⟩ := ih fun a' ha' => h a' (List.mem_cons_of_mem a ha')
      refine ⟨b :: r, ?_⟩
      rw [List.mapM_cons, hb, hr]
      rfl

/-- The first operation that fails decides. -/
theorem mapM_append_cons {before after : List α} {a : α} {failure : Failure}
    (hbefore : ∀ a ∈ before, ∃ b, f a = .ok b) (h : f a = .error failure) :
    (before ++ a :: after).mapM f = .error failure := by
  obtain ⟨r, hr⟩ := exists_mapM hbefore
  rw [List.mapM_append, hr, List.mapM_cons, h]
  rfl

theorem mapM_eq_ok_iff {l : List α} {r : List β} :
    l.mapM f = .ok r ↔ List.Forall₂ (fun a b => f a = .ok b) l r := by
  induction l generalizing r with
  | nil =>
      rw [List.forall₂_nil_left_iff, List.mapM_nil]
      exact ⟨fun h => (Except.ok.inj h).symm, fun h => h ▸ rfl⟩
  | cons a l ih =>
      rw [List.mapM_cons, List.forall₂_cons_left_iff]
      constructor
      · intro h
        obtain ⟨b, hb, h⟩ := ok_of_bind h
        obtain ⟨r, hr, h⟩ := ok_of_bind h
        exact ⟨b, r, hb, ih.mp hr, (Except.ok.inj h).symm⟩
      · rintro ⟨b, r, hb, hr, rfl⟩
        rw [hb, ih.mpr hr]
        rfl

/-- A row fails with the failure of an operation if every one before it succeeds. -/
theorem mapM_eq_error_iff {l : List α} {failure : Failure} :
    l.mapM f = .error failure ↔ ∃ before a after, l = before ++ a :: after ∧
      (∀ a ∈ before, ∃ b, f a = .ok b) ∧ f a = .error failure := by
  constructor
  · intro h
    induction l with
    | nil => cases h
    | cons a l ih =>
        cases ha : f a with
        | error other =>
            rw [List.mapM_cons, ha] at h
            cases h
            exact ⟨[], a, l, rfl, nofun, ha⟩
        | ok b =>
            have hrest : l.mapM f = .error failure := by
              rw [List.mapM_cons, ha] at h
              cases hl : l.mapM f with
              | error other =>
                  rw [hl] at h
                  cases h
                  rfl
              | ok r =>
                  rw [hl] at h
                  cases h
            obtain ⟨before, a', after, rfl, hbefore, ha'⟩ := ih hrest
            refine ⟨a :: before, a', after, rfl, ?_, ha'⟩
            exact List.forall_mem_cons.mpr ⟨⟨b, ha⟩, hbefore⟩
  · rintro ⟨before, a, after, rfl, hbefore, ha⟩
    exact mapM_append_cons hbefore ha

/-- A row fails exactly if one of its operations does. -/
theorem exists_mapM_eq_error_iff {l : List α} : (∃ failure, l.mapM f = .error failure) ↔
    ∃ a ∈ l, ∃ failure, f a = .error failure := by
  constructor
  · rintro ⟨failure, h⟩
    obtain ⟨before, a, after, rfl, -, ha⟩ := mapM_eq_error_iff.mp h
    exact ⟨a, List.mem_append_cons_self, failure, ha⟩
  · rintro ⟨a, hmem, failure, ha⟩
    cases hrow : l.mapM f with
    | error other => exact ⟨other, rfl⟩
    | ok r =>
        obtain ⟨b, hb⟩ := exists_of_mapM hrow hmem
        cases ha.symm.trans hb

theorem mapM_congr {f' : α → Except Failure β} {l : List α} (h : ∀ a ∈ l, f a = f' a) :
    l.mapM f = l.mapM f' := by
  induction l with
  | nil => rfl
  | cons a l ih =>
      rw [List.mapM_cons, List.mapM_cons, h a List.mem_cons_self,
        ih fun a' ha' => h a' (List.mem_cons_of_mem a ha')]

/-- Results that are changed one by one are changed in the row. -/
theorem mapM_of_map {γ : Type} {f' : α → Except Failure γ} {g : β → γ} {l : List α}
    (h : ∀ a ∈ l, f' a = (f a).map g) : l.mapM f' = (l.mapM f).map (List.map g) := by
  induction l with
  | nil => rfl
  | cons a l ih =>
      have hrest := ih fun a' ha' => h a' (List.mem_cons_of_mem a ha')
      rw [List.mapM_cons, List.mapM_cons, h a List.mem_cons_self, hrest]
      cases f a with
      | error failure => rfl
      | ok b => cases l.mapM f <;> rfl

end Failure
end Uplink
