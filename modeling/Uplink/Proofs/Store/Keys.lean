import Uplink.Proofs.Keyed
import Uplink.Proofs.Text.Glob
import Uplink.Store

/-!
# The keys of a store

Whatever is done to a store, its keys stay in order and each of them occurs once.  So the keys that
are listed for a pattern are in order, too; each of them is there and has the form of the pattern,
and of the keys that have it none is left out, unless the key has a star where the pattern has one.
-/

namespace Uplink

namespace Store

theorem Contents.sorted_apply {contents after : Contents} {call : Call} {reply : Reply}
    (hsorted : contents.Sorted) (h : contents.apply call = .ok (reply, after)) : after.Sorted := by
  cases call with
  | readHash key =>
      simp only [apply] at h
      split at h <;> cases h <;> exact hsorted
  | writeFields key fields =>
      simp only [apply] at h
      split at h <;> cases h <;> exact hsorted.insert key _
  | removeFields key names =>
      simp only [apply] at h
      split at h
      · cases h
        exact hsorted
      · cases h
        split
        · exact hsorted.erase key
        · exact hsorted.insert key _
      · cases h
  | listKeys pattern =>
      cases h
      exact hsorted
  | readText key =>
      simp only [apply] at h
      split at h <;> cases h <;> exact hsorted
  | writeText key value =>
      cases h
      exact hsorted.insert key _
  | writeTexts pairs =>
      cases h
      exact hsorted.insertAll _
  | push key value =>
      simp only [apply] at h
      split at h <;> cases h <;> exact hsorted.insert key _

theorem sorted_perform {store : Store} (h : store.contents.Sorted) (call : Call) :
    (store.perform call).2.contents.Sorted := by
  simp only [perform]
  split
  · exact h
  split
  · rename_i hok
    exact Contents.sorted_apply h hok
  · exact h

/-- The stores that come about: calls are made, whether they succeed or not, hashes are put in place
beside the calls, the journal is taken out, and failures begin and end. -/
inductive Reached : Store → Prop where
  | empty : Reached {}
  | perform {store : Store} (call : Call) : Reached store → Reached (store.perform call).2
  | seed {store : Store} (key : String) (fields : List (String × String)) :
      Reached store → Reached (store.seed key fields)
  | drain {store : Store} : Reached store → Reached store.drain.2
  | fail {store : Store} (reason : Option String) :
      Reached store → Reached { store with failure := reason }

variable {store : Store}

theorem Reached.sorted (h : Reached store) : store.contents.Sorted := by
  induction h with
  | empty => exact List.Pairwise.nil
  | perform call _ ih => exact sorted_perform ih call
  | seed key fields _ ih => exact ih.insert key _
  | drain _ ih => exact ih
  | fail reason _ ih => exact ih

theorem perform_listKeys (h : store.failure = none) (pattern : String) :
    (store.perform (.listKeys pattern)).1 =
      .ok (.keys (store.contents.keys.filter (Text.globMatches pattern))) := by
  simp only [perform, h, Contents.apply]

open Text.Glob

/-- The keys that are listed for a pattern are in order, each once; they are keys of the store that
have the form of the pattern.  All such keys are listed, but for those with a star under a pattern
with a star. -/
theorem Reached.listKeys_fits (h : Reached store) (hworks : store.failure = none)
    (pattern : String) :
    ∃ names, (store.perform (.listKeys pattern)).1 = .ok (.keys names) ∧
      names.Pairwise (· < ·) ∧
      (∀ key ∈ names, store.contents.has key = true ∧ Fits pattern.toList key.toList) ∧
      ∀ key, '*' ∉ pattern.toList ∨ '*' ∉ key.toList →
        (key ∈ names ↔ store.contents.has key = true ∧ Fits pattern.toList key.toList) := by
  have hlisted : ∀ key ∈ store.contents.keys.filter (Text.globMatches pattern),
      store.contents.has key = true ∧ Fits pattern.toList key.toList := by
    intro key hkey
    obtain ⟨hmem, hmatches⟩ := List.mem_filter.mp hkey
    exact ⟨Keyed.has_iff_mem_keys.mpr hmem, Text.fits_of_globMatches hmatches⟩
  refine ⟨_, perform_listKeys hworks pattern, h.sorted.filter _, hlisted, ?_⟩
  intro key hplain
  constructor
  · exact hlisted key
  · rintro ⟨hhas, hfits⟩
    exact List.mem_filter.mpr
      ⟨Keyed.has_iff_mem_keys.mp hhas, Text.globMatches_of_fits hplain hfits⟩

/-- A store with one key, whose first character is a star. -/
def starredStore : Store :=
  (({} : Store).perform (.writeText "*a" "1")).2

/-- The question mark stands for the star of the key. -/
theorem Reached.listKeys_fits_starred :
    Reached starredStore ∧ starredStore.failure = none ∧
      ∃ names, (starredStore.perform (.listKeys "?a")).1 = .ok (.keys names) ∧
        ("*a" ∈ names ↔
          starredStore.contents.has "*a" = true ∧ Fits "?a".toList "*a".toList) := by
  have hreached : Reached starredStore := Reached.empty.perform _
  obtain ⟨names, hlist, -, -, hexact⟩ := hreached.listKeys_fits rfl "?a"
  exact ⟨hreached, rfl, names, hlist, hexact "*a" (Or.inl (by decide))⟩

/-- A star does not stand for a run of characters that starts with a star, although it should: every
key has the form of a single star, and this one is not listed. -/
theorem listKeys_omits_starred :
    starredStore.contents.has "*a" = true ∧ Fits "*".toList "*a".toList ∧
      (starredStore.perform (.listKeys "*")).1 = .ok (.keys []) := by
  have hno : Text.globMatches "*" "*a" = false := by cbv
  refine ⟨by decide, Fits.star "*a".toList Fits.nil, ?_⟩
  rw [perform_listKeys rfl]
  have hkeys : starredStore.contents.keys = ["*a"] := rfl
  rw [hkeys, List.filter_cons_of_neg (by simp [hno]), List.filter_nil]

end Store
end Uplink
