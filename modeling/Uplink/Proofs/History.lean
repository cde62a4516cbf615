import Mathlib.Data.List.Basic

/-!
# What stands

Of a row of things that happened, one may stand: all that happened since left it as it was.
-/

namespace Uplink

variable {α : Type} {happened keeps : α → Prop} {history : List α} {x : α}

/-- Something happened, and all that happened since keeps it. -/
def Stands (happened keeps : α → Prop) (history : List α) : Prop :=
  ∃ earlier x later, history = earlier ++ x :: later ∧ happened x ∧ ∀ y ∈ later, keeps y

theorem not_stands_nil : ¬ Stands happened keeps [] := by
  rintro ⟨earlier, x, later, h, -⟩
  simp at h

/-- What stands has just happened, or it stood before and was kept. -/
theorem stands_concat :
    Stands happened keeps (history ++ [x]) ↔ happened x ∨ keeps x ∧ Stands happened keeps history := by
  constructor
  · rintro ⟨earlier, y, later, h, hy, hlater⟩
    rcases List.eq_nil_or_concat later with rfl | ⟨later, last, rfl⟩
    · obtain ⟨-, hx⟩ := List.append_inj' h rfl
      cases hx
      exact .inl hy
    · rw [List.concat_eq_append, ← List.cons_append, ← List.append_assoc] at h
      obtain ⟨rfl, hx⟩ := List.append_inj' h rfl
      cases hx
      refine .inr ⟨hlater x (by simp), earlier, y, later, rfl, hy, ?_⟩
      intro z hz
      exact hlater z (by simp [hz])
  · rintro (hx | ⟨hx, earlier, y, later, rfl, hy, hlater⟩)
    · exact ⟨history, x, [], rfl, hx, by simp⟩
    · refine ⟨earlier, y, later ++ [x], by simp, hy, ?_⟩
      intro z hz
      rcases List.mem_append.mp hz with hz | hz
      · exact hlater z hz
      · rw [List.mem_singleton.mp hz]
        exact hx

end Uplink
