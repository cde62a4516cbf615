import Uplink.Proofs.History
import Uplink.Proofs.Store.Refinement

/-!
# Keys without contents

Whoever removes the last field of a hash removes its key, so that a key that is listed has something
to be read.  There is one way around it: to write no fields at all under a key at which nothing is
kept leaves a hash without fields there, and the key is listed from then on.  (To put a hash without
fields in place does the same, but this is no call.)

This module shows that there is no other way.  A list that is kept always has items.  A hash without
fields was left in the way described, and whatever has been done under its key since failed or wrote
no fields either.
-/

namespace Uplink
namespace Store

/-- Whether an entry has nothing in it.  A text is something, even if it is empty. -/
def Entry.isEmpty : Entry → Bool
  | .text _ => false
  | .hash fields => fields.isEmpty
  | .list items => items.isEmpty

theorem Entry.isEmpty_iff {entry : Entry} :
    entry.isEmpty = true ↔ entry = .hash [] ∨ entry = .list [] := by
  cases entry with
  | text s => simp [isEmpty]
  | hash fields => simp [isEmpty]
  | list items => simp [isEmpty]

/-- Something is read under a key: a text, fields, or items. -/
def Yields (store : Store) (key : String) : Prop :=
  (∃ s, (store.perform (.readText key)).1 = .ok (.text (some s))) ∨
    (∃ fields, fields ≠ [] ∧ (store.perform (.readHash key)).1 = .ok (.hash fields)) ∨
    store.items key ≠ []

/-- The operations of a row, each with the store it is made with. -/
def course (store : Store) : List Operation → List (Store × Operation)
  | [] => []
  | op :: ops => (store, op) :: course (store.next op).2 ops

namespace Operation

/-- The operation leaves a hash without fields under a key: it puts one in place, or no fields are
written while nothing is kept there. -/
def Hollows (store : Store) (key : String) (op : Operation) : Prop :=
  op = .seed key [] ∨
    op = .call (.writeFields key []) ∧ store.failure = none ∧ store.contents.find? key = none

/-- The operation does not fill or remove a hash without fields: it is not about its key, or it
fails, or it writes no fields. -/
def Spares (store : Store) (key : String) (op : Operation) : Prop :=
  key ∉ op.writes ∨ (∃ failure, (store.next op).1 = .answer (.error failure)) ∨
    op = .call (.writeFields key [])

end Operation

/-- An operation of the row left a hash without fields under a key, and all that were made since
spared it. -/
def Hollowed (key : String) (ops : List Operation) : Prop :=
  Stands (fun made => made.2.Hollows made.1 key) (fun made => made.2.Spares made.1 key)
    (course {} ops)

variable {store : Store} {contents after : Contents} {call : Call} {op : Operation} {key : String}
  {entry : Entry}

/-! ## One call -/

theorem eq_of_find?_insert {written : Entry}
    (h : (contents.insert key written).find? key = some entry) : entry = written := by
  rw [Keyed.find?_insert_self] at h
  exact (Option.some.inj h).symm

/-- Under the keys it writes a call leaves no empty entry, unless it writes no fields where nothing is
kept, or a hash without fields. -/
theorem Contents.eq_writeFields_of_isEmpty {reply : Reply}
    (h : contents.apply call = .ok (reply, after)) (hkey : key ∈ call.writes)
    (hentry : after.find? key = some entry) (hempty : entry.isEmpty = true) :
    call = .writeFields key [] ∧ entry = .hash [] ∧
      (contents.find? key = none ∨ contents.find? key = some (.hash [])) := by
  cases call with
  | readHash k | listKeys k | readText k => cases hkey
  | writeFields k fields =>
      obtain rfl := List.mem_singleton.mp hkey
      simp only [apply] at h
      split at h
      · rename_i hnone
        cases h
        obtain rfl := eq_of_find?_insert hentry
        obtain ⟨-, rfl⟩ := Keyed.insertAll_eq_nil_iff.mp (List.isEmpty_iff.mp hempty)
        exact ⟨rfl, rfl, .inl hnone⟩
      · rename_i old hold
        cases h
        obtain rfl := eq_of_find?_insert hentry
        obtain ⟨rfl, rfl⟩ := Keyed.insertAll_eq_nil_iff.mp (List.isEmpty_iff.mp hempty)
        exact ⟨rfl, rfl, .inr hold⟩
      · cases h
  | removeFields k names =>
      obtain rfl := List.mem_singleton.mp hkey
      simp only [apply] at h
      split at h
      · rename_i hnone
        cases h
        rw [hnone] at hentry
        cases hentry
      · rename_i old hold
        cases h
        by_cases hrest : (removeAll old names).2.isEmpty = true
        · rw [if_pos hrest, Keyed.find?_erase_self] at hentry
          cases hentry
        · rw [if_neg hrest] at hentry
          obtain rfl := eq_of_find?_insert hentry
          exact absurd hempty hrest
      · cases h
  | writeText k value =>
      obtain rfl := List.mem_singleton.mp hkey
      cases h
      obtain rfl := eq_of_find?_insert hentry
      cases hempty
  | writeTexts pairs =>
      cases h
      rw [Keyed.find?_insertAll, ← List.map_reverse, Keyed.lookup_map_snd] at hentry
      cases hlookup : pairs.reverse.lookup key with
      | none =>
          rw [List.lookup_eq_none_iff] at hlookup
          obtain ⟨pair, hpair, rfl⟩ := List.mem_map.mp hkey
          simpa using hlookup pair (List.mem_reverse.mpr hpair)
      | some value =>
          rw [hlookup, Option.map_some, Option.some_or] at hentry
          cases hentry
          cases hempty
  | push k value =>
      obtain rfl := List.mem_singleton.mp hkey
      simp only [apply] at h
      split at h
      · cases h
        obtain rfl := eq_of_find?_insert hentry
        cases hempty
      · cases h
        obtain rfl := eq_of_find?_insert hentry
        cases hempty
      · cases h

/-- A call fails, or the store works and the call changes the contents. -/
theorem perform_cases (store : Store) (call : Call) :
    (∃ failure, (store.perform call).1 = .error failure) ∨
      ∃ reply after, store.failure = none ∧ store.contents.apply call = .ok (reply, after) ∧
        (store.perform call).2.contents = after := by
  rw [perform]
  cases hfailure : store.failure with
  | some reason => exact .inl ⟨_, rfl⟩
  | none =>
      cases happly : store.contents.apply call with
      | error failure => exact .inl ⟨failure, rfl⟩
      | ok result => exact .inr ⟨result.1, result.2, rfl, rfl, rfl⟩

/-! ## One operation -/

/-- An empty entry after an operation is a hash without fields, and it was left by the operation or it
was there before and was spared. -/
theorem next_isEmpty (hentry : (store.next op).2.contents.find? key = some entry)
    (hempty : entry.isEmpty = true) :
    op.Hollows store key ∧ entry = .hash [] ∨
      op.Spares store key ∧ store.contents.find? key = some entry := by
  by_cases hkey : key ∈ op.writes
  · cases op with
    | call call =>
        rcases perform_cases store call with ⟨failure, hfailure⟩ | ⟨reply, after, hworks, hok, rfl⟩
        · rw [next, contents_of_perform_error hfailure] at hentry
          exact .inr ⟨.inr (.inl ⟨failure, congrArg Outcome.answer hfailure⟩), hentry⟩
        · obtain ⟨rfl, rfl, hbefore⟩ :=
            Contents.eq_writeFields_of_isEmpty hok hkey hentry hempty
          rcases hbefore with hnone | hhash
          · exact .inl ⟨.inr ⟨rfl, hworks, hnone⟩, rfl⟩
          · exact .inr ⟨.inr (.inr rfl), hhash⟩
    | seed k fields =>
        obtain rfl := List.mem_singleton.mp hkey
        rw [next, seed] at hentry
        obtain rfl := eq_of_find?_insert hentry
        obtain ⟨-, rfl⟩ := Keyed.insertAll_eq_nil_iff.mp (List.isEmpty_iff.mp hempty)
        exact .inl ⟨.inl rfl, rfl⟩
    | items | text | drain | fail => cases hkey
  · rw [next_frame hkey] at hentry
    exact .inr ⟨.inl hkey, hentry⟩

theorem find?_next_of_hollows (h : op.Hollows store key) :
    (store.next op).2.contents.find? key = some (.hash []) := by
  rcases h with rfl | ⟨rfl, hworks, hnone⟩
  · rw [next, seed, Keyed.find?_insert_self]
    rfl
  · simp only [next, perform, hworks, Contents.apply, hnone, Keyed.find?_insert_self]
    rfl

theorem find?_next_of_spares (h : op.Spares store key)
    (hbefore : store.contents.find? key = some (.hash [])) :
    (store.next op).2.contents.find? key = some (.hash []) := by
  rcases h with hkey | ⟨failure, hfailure⟩ | rfl
  · rw [next_frame hkey, hbefore]
  · cases op with
    | call call => rw [next, contents_of_perform_error (Outcome.answer.inj hfailure), hbefore]
    | seed | items | text | drain | fail => cases hfailure
  · rcases perform_cases store (.writeFields key []) with
      ⟨failure, hfailure⟩ | ⟨reply, after, -, hok, hafter⟩
    · rw [next, contents_of_perform_error hfailure, hbefore]
    · simp only [Contents.apply, hbefore] at hok
      cases hok
      rw [next, hafter, Keyed.find?_insert_self]
      rfl

theorem hash_nil_next_iff :
    (store.next op).2.contents.find? key = some (.hash []) ↔
      op.Hollows store key ∨
        op.Spares store key ∧ store.contents.find? key = some (.hash []) := by
  constructor
  · intro h
    exact (next_isEmpty h rfl).imp_left And.left
  · rintro (h | ⟨h, hbefore⟩)
    · exact find?_next_of_hollows h
    · exact find?_next_of_spares h hbefore

/-! ## Rows of operations -/

theorem follow_concat (store : Store) (ops : List Operation) (op : Operation) :
    (follow next store (ops ++ [op])).2 = ((follow next store ops).2.next op).2 := by
  induction ops generalizing store with
  | nil => rfl
  | cons first ops ih => exact ih (store.next first).2

theorem course_concat (store : Store) (ops : List Operation) (op : Operation) :
    course store (ops ++ [op]) = course store ops ++ [((follow next store ops).2, op)] := by
  induction ops generalizing store with
  | nil => rfl
  | cons first ops ih => exact congrArg ((store, first) :: ·) (ih (store.next first).2)

theorem mem_of_mem_course {ops : List Operation} {made : Store × Operation}
    (h : made ∈ course store ops) : made.2 ∈ ops := by
  induction ops generalizing store with
  | nil => exact absurd h List.not_mem_nil
  | cons first ops ih =>
      rcases List.mem_cons.mp h with rfl | hrest
      · exact List.mem_cons_self
      · exact List.mem_cons_of_mem first (ih hrest)

theorem find?_follow_ne_list_nil (ops : List Operation) (key : String) :
    (follow next {} ops).2.contents.find? key ≠ some (.list []) := by
  induction ops using List.reverseRecOn with
  | nil => simp [follow]
  | append_singleton ops op ih =>
      intro h
      rw [follow_concat] at h
      rcases next_isEmpty h rfl with ⟨-, hhash⟩ | ⟨-, hbefore⟩
      · cases hhash
      · exact ih hbefore

theorem find?_follow_eq_hash_nil_iff (ops : List Operation) (key : String) :
    (follow next {} ops).2.contents.find? key = some (.hash []) ↔ Hollowed key ops := by
  induction ops using List.reverseRecOn with
  | nil => exact iff_of_false (by simp [follow]) not_stands_nil
  | append_singleton ops op ih =>
      rw [follow_concat, hash_nil_next_iff, ih, Hollowed, Hollowed, course_concat, stands_concat]

theorem Hollowed.exists_mem {ops : List Operation} (h : Hollowed key ops) :
    ∃ op ∈ ops, op = .seed key [] ∨ op = .call (.writeFields key []) := by
  obtain ⟨earlier, made, later, hcourse, hmade, -⟩ := h
  have hmem : made ∈ course {} ops := by
    rw [hcourse]
    exact List.mem_append_right _ List.mem_cons_self
  exact ⟨made.2, mem_of_mem_course hmem, hmade.imp_right And.left⟩

/-! ## What is read under a key that is listed -/

theorem yields_iff (hworks : store.failure = none)
    (hentry : store.contents.find? key = some entry) :
    store.Yields key ↔ entry.isEmpty = false := by
  cases entry with
  | text s => simp [Yields, perform, hworks, Contents.apply, hentry, Entry.isEmpty]
  | hash fields =>
      simp [Yields, perform, hworks, Contents.apply, hentry, Entry.isEmpty, items]
  | list row => simp [Yields, perform, hworks, Contents.apply, hentry, Entry.isEmpty, items]

theorem exists_entry_of_listed {pattern : String} {names : List String}
    (h : (store.perform (.listKeys pattern)).1 = .ok (.keys names)) (hkey : key ∈ names) :
    store.failure = none ∧ ∃ entry, store.contents.find? key = some entry := by
  cases hworks : store.failure with
  | some reason => simp [perform, hworks] at h
  | none =>
      rw [perform_listKeys hworks] at h
      cases h
      have hmem := (List.mem_filter.mp hkey).1
      exact ⟨rfl, Option.isSome_iff_exists.mp (Keyed.has_iff_mem_keys.mpr hmem)⟩

theorem perform_listKeys_single {pattern : String} (hworks : store.failure = none)
    (hkeys : store.contents.keys = [key]) (hmatch : Text.globMatches pattern key = true) :
    (store.perform (.listKeys pattern)).1 = .ok (.keys [key]) := by
  rw [perform_listKeys hworks, hkeys, List.filter_cons_of_pos hmatch, List.filter_nil]

/-- Whatever row of operations is made with a new store, no list that is kept is empty.  A hash that is
kept is empty if and only if it was left so: an empty hash was put in place, or no fields were written
under the key while nothing was kept there; and all that was done under the key since failed or wrote
no fields.  Without such an operation nothing empty is kept.  A key that is listed has something to be
read, unless its hash is empty. -/
theorem follow_hollow (ops : List Operation) :
    let store := (follow next {} ops).2
    (∀ key, store.contents.find? key ≠ some (.list [])) ∧
      (∀ key, store.contents.find? key = some (.hash []) ↔ Hollowed key ops) ∧
      (∀ key, Hollowed key ops → .seed key [] ∈ ops ∨ .call (.writeFields key []) ∈ ops) ∧
      ∀ pattern names, (store.perform (.listKeys pattern)).1 = .ok (.keys names) →
        ∀ key ∈ names, (store.Yields key ↔ ¬ Hollowed key ops) := by
  intro store
  refine ⟨find?_follow_ne_list_nil ops, find?_follow_eq_hash_nil_iff ops, ?_, ?_⟩
  · intro key hhollow
    obtain ⟨op, hop, rfl | rfl⟩ := hhollow.exists_mem
    · exact .inl hop
    · exact .inr hop
  · intro pattern names hlisted key hkey
    obtain ⟨hworks, entry, hentry⟩ := exists_entry_of_listed hlisted hkey
    have hlist := find?_follow_ne_list_nil ops key
    have hhash := find?_follow_eq_hash_nil_iff ops key
    rw [hentry, Option.some.injEq] at hhash
    rw [hentry, ne_eq, Option.some.injEq] at hlist
    rw [yields_iff hworks hentry, ← hhash, Bool.eq_false_iff, ne_eq, Entry.isEmpty_iff,
      or_iff_left hlist]

/-- No fields are written under an absent key, and a text is pushed onto what they left. -/
def hollowOperations : List Operation :=
  [.call (.writeFields "k" []), .call (.push "k" "v")]

theorem follow_hollow_refused :
    let store := (follow next {} hollowOperations).2
    (store.perform (.listKeys "?")).1 = .ok (.keys ["k"]) ∧ Hollowed "k" hollowOperations ∧
      ¬ store.Yields "k" := by
  intro store
  have hlisted : (store.perform (.listKeys "?")).1 = .ok (.keys ["k"]) :=
    perform_listKeys_single rfl rfl (by cbv)
  obtain ⟨-, hhash, -, hyields⟩ := follow_hollow hollowOperations
  have hhollow : Hollowed "k" hollowOperations := (hhash "k").mp rfl
  refine ⟨hlisted, hhollow, ?_⟩
  rw [hyields "?" ["k"] hlisted "k" List.mem_cons_self, not_not]
  exact hhollow

/-- A call is enough to make a key without contents, although to remove the last field of a hash removes
its key: the key is listed, and nothing is read under it. -/
theorem listKeys_names_hollow :
    let store := (({} : Store).perform (.writeFields "k" [])).2
    store.contents.find? "k" = some (.hash []) ∧
      (store.perform (.listKeys "*")).1 = .ok (.keys ["k"]) ∧ ¬ store.Yields "k" := by
  intro store
  have hhash : store.contents.find? "k" = some (.hash []) := rfl
  refine ⟨hhash, perform_listKeys_single rfl rfl (by cbv), ?_⟩
  rw [yields_iff rfl hhash]
  decide

end Store
end Uplink
