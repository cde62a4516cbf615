import Mathlib.Data.Nat.Notation
import Uplink.Proofs.Keyed
import Uplink.Store

/-!
# What a call of the store leaves alone

A call names the keys it writes.  What is kept under any other key stays as it is, whether the call
succeeds or fails; this is what keeps users of the store with different keys out of each other's
way.
-/

namespace Uplink

namespace Store

/-- The keys under which a call may change what is kept. -/
def Call.writes : Call → List String
  | .writeFields key _ => [key]
  | .removeFields key _ => [key]
  | .writeText key _ => [key]
  | .writeTexts pairs => pairs.map Prod.fst
  | .push key _ => [key]
  | .readHash _ => []
  | .listKeys _ => []
  | .readText _ => []

/-- A call that succeeds changes nothing under the keys it does not write. -/
theorem Contents.apply_frame {contents after : Contents} {call : Call} {reply : Reply} {key : String}
    (h : contents.apply call = .ok (reply, after)) (hkey : key ∉ call.writes) :
    after.find? key = contents.find? key := by
  cases call with
  | readHash k =>
      simp only [apply] at h
      split at h <;> cases h <;> rfl
  | writeFields k fields =>
      have hne : key ≠ k := by simpa [Call.writes] using hkey
      simp only [apply] at h
      split at h <;> cases h <;> exact Keyed.find?_insert_of_ne hne _ contents
  | removeFields k names =>
      have hne : key ≠ k := by simpa [Call.writes] using hkey
      simp only [apply] at h
      split at h
      · cases h
        rfl
      · cases h
        split
        · exact Keyed.find?_erase_of_ne hne contents
        · exact Keyed.find?_insert_of_ne hne _ contents
      · cases h
  | listKeys pattern =>
      cases h
      rfl
  | readText k =>
      simp only [apply] at h
      split at h <;> cases h <;> rfl
  | writeText k value =>
      have hne : key ≠ k := by simpa [Call.writes] using hkey
      cases h
      exact Keyed.find?_insert_of_ne hne _ contents
  | writeTexts pairs =>
      cases h
      refine Keyed.find?_insertAll_of_not_mem ?_ contents
      simpa [Call.writes] using hkey
  | push k value =>
      have hne : key ≠ k := by simpa [Call.writes] using hkey
      simp only [apply] at h
      split at h <;> cases h <;> exact Keyed.find?_insert_of_ne hne _ contents

/-- A call changes nothing under the keys it does not write. -/
theorem perform_frame (store : Store) {call : Call} {key : String} (h : key ∉ call.writes) :
    (store.perform call).2.contents.find? key = store.contents.find? key := by
  simp only [perform]
  split
  · rfl
  split
  · rename_i hok
    exact Contents.apply_frame hok h
  · rfl

/-- Whether calls fail is not a matter of the calls. -/
@[simp]
theorem perform_failure (store : Store) (call : Call) :
    (store.perform call).2.failure = store.failure := by
  simp only [perform]
  split
  · rfl
  split <;> rfl

/-- Every call is noted, whether it succeeds or fails. -/
theorem journal_perform (store : Store) (call : Call) :
    (store.perform call).2.journal = call :: store.journal := by
  simp only [perform]
  split
  · rfl
  split <;> rfl

/-- To read a hash changes nothing but that it is noted. -/
theorem readHash_store (store : Store) (key : String) :
    (store.readHash key).2 = { store with journal := .readHash key :: store.journal } := by
  simp only [readHash, perform, Contents.apply]
  cases store.failure with
  | some reason => rfl
  | none =>
      cases hfind : store.contents.find? key with
      | none => rfl
      | some entry => cases entry <;> rfl

/-! ## Lists -/

/-- Under the key there is a list, or nothing. -/
def IsQueue (store : Store) (key : String) : Prop :=
  ∀ entry ∈ store.contents.find? key, ∃ items, entry = .list items

theorem isQueue_congr {store after : Store} {key : String}
    (h : after.contents.find? key = store.contents.find? key) :
    after.IsQueue key ↔ store.IsQueue key := by
  rw [IsQueue, IsQueue, h]

theorem items_congr {store after : Store} {key : String}
    (h : after.contents.find? key = store.contents.find? key) :
    after.items key = store.items key := by
  rw [items, items, h]

theorem push_frame (store : Store) {key other : String} (h : other ≠ key) (value : String) :
    (store.push key value).2.contents.find? other = store.contents.find? other :=
  perform_frame store (by simpa [Call.writes] using h)

@[simp]
theorem push_failure (store : Store) (key value : String) :
    (store.push key value).2.failure = store.failure :=
  perform_failure store (.push key value)

/-- What is put into a list stands at its head. -/
theorem find?_push {store : Store} {key : String} (hfailure : store.failure = none)
    (hqueue : store.IsQueue key) (value : String) :
    (store.push key value).2.contents.find? key = some (.list (value :: store.items key)) := by
  simp only [push, perform, hfailure, Contents.apply, items]
  cases hfind : store.contents.find? key with
  | none => simp
  | some entry =>
      obtain ⟨items, rfl⟩ := hqueue entry hfind
      simp

theorem items_push {store : Store} {key : String} (hfailure : store.failure = none)
    (hqueue : store.IsQueue key) (value : String) :
    (store.push key value).2.items key = value :: store.items key := by
  rw [items, find?_push hfailure hqueue]

theorem isQueue_push {store : Store} {key other : String} (hfailure : store.failure = none)
    (hqueue : store.IsQueue key) (hother : store.IsQueue other) (value : String) :
    (store.push key value).2.IsQueue other := by
  by_cases heq : other = key
  · intro entry hentry
    rw [heq, find?_push hfailure hqueue] at hentry
    exact ⟨_, (Option.some.inj hentry).symm⟩
  · exact (isQueue_congr (store.push_frame heq value)).mpr hother

end Store
end Uplink
