import Mathlib.Data.Finmap
import Mathlib.Data.Finset.Sort
import Uplink.Proofs.Store.Frame
import Uplink.Proofs.Store.Keys

/-!
# A store as a typed map

A typed map is a finite map from keys to values, each of which is a text, a hash or a list; a hash is
a finite map itself.  Nothing is known of how it is kept.  An absent key counts as an empty hash and
as an empty list, so that each call is one equation on typed maps.

A store is a typed map with a journal.  This module shows it for every row of operations: calls,
access beside the calls, and failures that begin and end at any time.
-/

namespace Uplink

/-- A finite map from names to values. -/
abbrev NamedMap (α : Type) := Finmap fun _ : String => α

namespace NamedMap

variable {α : Type} {name : String}

/-- The first of the values that are listed under each name. -/
def ofPairs (pairs : List (String × α)) : NamedMap α :=
  List.toFinmap (pairs.map fun pair => ⟨pair.1, pair.2⟩)

/-- The map with other values under the names that are listed; the last value under a name counts. -/
def override (map : NamedMap α) (pairs : List (String × α)) : NamedMap α :=
  ofPairs pairs.reverse ∪ map

/-- The map without the names that are listed. -/
def without (map : NamedMap α) (names : List String) : NamedMap α :=
  names.foldr Finmap.erase map

theorem lookup_ofPairs (pairs : List (String × α)) :
    (ofPairs pairs).lookup name = pairs.lookup name := by
  rw [ofPairs, Finmap.dlookup_list_toFinmap]
  induction pairs with
  | nil => rfl
  | cons pair pairs ih =>
      rw [Keyed.lookup_cons]
      by_cases h : name = pair.1
      · subst h
        simp
      · rw [List.map_cons, List.dlookup_cons_ne _ _ h, ih, if_neg h]

theorem lookup_override (map : NamedMap α) (pairs : List (String × α)) :
    (map.override pairs).lookup name = (pairs.reverse.lookup name).or (map.lookup name) := by
  rw [override]
  by_cases h : name ∈ ofPairs pairs.reverse
  · obtain ⟨value, hvalue⟩ := Finmap.mem_iff.mp h
    rw [Finmap.lookup_union_left h, hvalue, ← lookup_ofPairs, hvalue, Option.some_or]
  · have hnone := Finmap.lookup_eq_none.mpr h
    rw [Finmap.lookup_union_right h, ← lookup_ofPairs, hnone, Option.none_or]

theorem lookup_without (map : NamedMap α) (names : List String) :
    (map.without names).lookup name = if name ∈ names then none else map.lookup name := by
  rw [without]
  induction names with
  | nil => simp
  | cons other names ih =>
      by_cases h : name = other
      · subst h
        simp
      · simp [Finmap.lookup_erase_ne h, ih, h]

end NamedMap

namespace Keyed

variable {α β : Type} {key : String} {entries : Keyed α}

/-- The finite map of the values under names. -/
def toMap (f : α → β) (entries : Keyed α) : NamedMap β :=
  NamedMap.ofPairs (entries.map fun entry => (entry.1, f entry.2))

theorem lookup_toMap (f : α → β) (entries : Keyed α) (key : String) :
    (entries.toMap f).lookup key = (entries.find? key).map f := by
  rw [toMap, NamedMap.lookup_ofPairs]
  induction entries with
  | nil => rfl
  | cons entry entries ih =>
      rw [List.map_cons, lookup_cons, ih, find?]
      by_cases h : key = entry.1
      · simp [h]
      · simp [h, Ne.symm h]

theorem mem_keys_toMap (f : α → β) : key ∈ (entries.toMap f).keys ↔ entries.has key = true := by
  rw [Finmap.mem_keys, ← Finmap.lookup_isSome, lookup_toMap, Option.isSome_map, has]

theorem toMap_insert (f : α → β) (name : String) (value : α) :
    (entries.insert name value).toMap f = (entries.toMap f).insert name (f value) := by
  apply Finmap.ext_lookup
  intro key
  rw [lookup_toMap, find?_insert]
  by_cases h : key = name
  · subst h
    rw [if_pos rfl, Finmap.lookup_insert, Option.map_some]
  · rw [if_neg h, Finmap.lookup_insert_of_ne _ h, lookup_toMap]

theorem toMap_erase (f : α → β) (name : String) :
    (entries.erase name).toMap f = (entries.toMap f).erase name := by
  apply Finmap.ext_lookup
  intro key
  rw [lookup_toMap, find?_erase]
  by_cases h : key = name
  · subst h
    rw [if_pos rfl, Finmap.lookup_erase, Option.map_none]
  · rw [if_neg h, Finmap.lookup_erase_ne h, lookup_toMap]

theorem toMap_insertAll (entries : Keyed α) (f : α → β) (more : List (String × α)) :
    (entries.insertAll more).toMap f =
      (entries.toMap f).override (more.map fun pair => (pair.1, f pair.2)) := by
  apply Finmap.ext_lookup
  intro key
  rw [NamedMap.lookup_override, ← List.map_reverse, lookup_map_snd, lookup_toMap, lookup_toMap,
    find?_insertAll, Option.map_or]

theorem toMap_insertAll_id (more : List (String × α)) :
    (entries.insertAll more).toMap id = (entries.toMap id).override more := by
  simpa using toMap_insertAll entries id more

end Keyed

namespace Store

/-! ## Typed maps -/

/-- What a key of a typed map has. -/
inductive Value where
  | text (s : String)
  | hash (fields : NamedMap String)
  | list (items : List String)

/-- A finite map from keys to texts, hashes and lists. -/
abbrev TypedMap := NamedMap Value

/-- The answer to a call of a typed map. -/
inductive Answer where
  | done
  | hash (fields : NamedMap String)
  | text (s : Option String)
  | keys (names : List String)
  | count (n : ℕ)

namespace TypedMap

/-- The hash under a key; an absent key has the empty one. -/
def hash (map : TypedMap) (key : String) : Except Failure (NamedMap String) :=
  match map.lookup key with
  | none => .ok ∅
  | some (.hash fields) => .ok fields
  | some _ => .error (wrongKind key)

/-- The list under a key; an absent key has the empty one. -/
def list (map : TypedMap) (key : String) : Except Failure (List String) :=
  match map.lookup key with
  | none => .ok []
  | some (.list items) => .ok items
  | some _ => .error (wrongKind key)

/-- The text under a key, if the key is not absent. -/
def text (map : TypedMap) (key : String) : Except Failure (Option String) :=
  match map.lookup key with
  | none => .ok none
  | some (.text s) => .ok (some s)
  | some _ => .error (wrongKind key)

/-- The map with a hash under a key.  There is no empty hash but one that was written as such. -/
def withRest (map : TypedMap) (key : String) (fields : NamedMap String) : TypedMap :=
  if fields = ∅ then map.erase key else map.insert key (.hash fields)

/-- The answer to a call and the map after it. -/
def respond (map : TypedMap) : Call → Except Failure (Answer × TypedMap)
  | .readHash key => do
    let fields ← map.hash key
    return (.hash fields, map)
  | .writeFields key pairs => do
    let fields ← map.hash key
    return (.done, map.insert key (.hash (fields.override pairs)))
  | .removeFields key names => do
    let fields ← map.hash key
    return (.count (names.toFinset ∩ fields.keys).card, map.withRest key (fields.without names))
  | .listKeys pattern =>
    return (.keys ((map.keys.filter fun key => Text.globMatches pattern key).sort (· ≤ ·)), map)
  | .readText key => do
    let s ← map.text key
    return (.text s, map)
  | .writeText key value => return (.done, map.insert key (.text value))
  | .writeTexts pairs =>
    return (.done, map.override (pairs.map fun pair => (pair.1, .text pair.2)))
  | .push key value => do
    let items ← map.list key
    return (.count (items.length + 1), map.insert key (.list (value :: items)))

end TypedMap

/-! ## Contents as a typed map -/

def Entry.view : Entry → Value
  | .text s => .text s
  | .hash fields => .hash (fields.toMap id)
  | .list items => .list items

def Reply.view : Reply → Answer
  | .done => .done
  | .hash fields => .hash (fields.toMap id)
  | .text s => .text s
  | .keys names => .keys names
  | .count n => .count n

/-- What is kept, without how. -/
def Contents.view (contents : Contents) : TypedMap :=
  contents.toMap Entry.view

section

variable {contents : Contents} {key : String} {fields : Keyed String}

theorem Contents.lookup_view : contents.view.lookup key = (contents.find? key).map Entry.view :=
  Keyed.lookup_toMap Entry.view contents key

theorem removeAll_concat (fields : Keyed String) (names : List String) (name : String) :
    removeAll fields (names ++ [name]) =
      if (removeAll fields names).2.has name then
        ((removeAll fields names).1 + 1, (removeAll fields names).2.erase name)
      else removeAll fields names := by
  rw [removeAll, List.foldl_concat]
  rfl

/-- The fields that are listed are gone, and no others. -/
theorem find?_removeAll (fields : Keyed String) (names : List String) (name : String) :
    (removeAll fields names).2.find? name = if name ∈ names then none else fields.find? name := by
  induction names using List.reverseRecOn with
  | nil => rfl
  | append_singleton names other ih =>
      rw [removeAll_concat]
      by_cases hhas : (removeAll fields names).2.has other = true
      · rw [if_pos hhas, Keyed.find?_erase, ih]
        by_cases h : name = other
        · simp [h]
        · simp [h]
      · rw [if_neg hhas, ih]
        by_cases h : name = other
        · subst h
          have hnone : (removeAll fields names).2.find? name = none := by
            simpa [Keyed.has] using hhas
          rw [ih] at hnone
          simpa using hnone
        · simp [h]

/-- Each field that is listed and was there counts once, however often it is listed. -/
theorem removeAll_count (fields : Keyed String) (names : List String) :
    (removeAll fields names).1 = (names.toFinset ∩ (fields.toMap id).keys).card := by
  induction names using List.reverseRecOn with
  | nil => simp [removeAll]
  | append_singleton names name ih =>
      have hleft : (removeAll fields names).2.has name = true ↔
          name ∉ names ∧ name ∈ (fields.toMap id).keys := by
        rw [Keyed.mem_keys_toMap, Keyed.has, find?_removeAll]
        by_cases h : name ∈ names
        · simp [h]
        · simp [h, Keyed.has]
      have hfinset : (names ++ [name]).toFinset = insert name names.toFinset := by
        ext other
        simp
      rw [removeAll_concat, hfinset]
      by_cases hhas : (removeAll fields names).2.has name = true
      · obtain ⟨hnew, hkey⟩ := hleft.mp hhas
        rw [if_pos hhas, ih, Finset.insert_inter_of_mem hkey, Finset.card_insert_of_notMem]
        simp [hnew]
      · rw [if_neg hhas, ih]
        by_cases hkey : name ∈ (fields.toMap id).keys
        · have hlisted : name ∈ names := by
            by_contra hnew
            exact hhas (hleft.mpr ⟨hnew, hkey⟩)
          rw [Finset.insert_eq_of_mem (List.mem_toFinset.mpr hlisted)]
        · rw [Finset.insert_inter_of_notMem hkey]

theorem toMap_removeAll (fields : Keyed String) (names : List String) :
    (removeAll fields names).2.toMap id = (fields.toMap id).without names := by
  apply Finmap.ext_lookup
  intro name
  rw [NamedMap.lookup_without, Keyed.lookup_toMap, Keyed.lookup_toMap, find?_removeAll]
  by_cases h : name ∈ names
  · simp [h]
  · simp [h]

theorem isEmpty_iff_toMap : fields.isEmpty = true ↔ fields.toMap id = ∅ := by
  rw [Keyed.isEmpty_iff_find?]
  constructor
  · intro h
    apply Finmap.ext_lookup
    intro name
    rw [Keyed.lookup_toMap, h name, Finmap.lookup_empty, Option.map_none]
  · intro h name
    have hlookup := Keyed.lookup_toMap id fields name
    rw [h, Finmap.lookup_empty] at hlookup
    simpa using hlookup.symm

/-- The keys that have the form of a pattern, in order. -/
theorem filter_keys_eq_sort (hsorted : contents.Sorted) (fits : String → Bool) :
    contents.keys.filter fits = (contents.view.keys.filter fun key => fits key).sort (· ≤ ·) := by
  have hstrict : (contents.keys.filter fits).Pairwise (· < ·) := hsorted.filter _
  have hnodup : (contents.keys.filter fits).Nodup := hstrict.imp fun h => ne_of_lt h
  have hset : (contents.keys.filter fits).toFinset =
      contents.view.keys.filter fun key => fits key := by
    ext key
    rw [List.mem_toFinset, List.mem_filter, Finset.mem_filter, Contents.view,
      Keyed.mem_keys_toMap, Keyed.has_iff_mem_keys]
  rw [← hset]
  exact ((List.toFinset_sort (· ≤ ·) hnodup).mpr (hstrict.imp fun h => le_of_lt h)).symm

/-! ## Calls -/

theorem view_insert (key : String) (entry : Entry) :
    Contents.view (contents.insert key entry) = contents.view.insert key entry.view :=
  Keyed.toMap_insert Entry.view key entry

theorem hash_view (contents : Contents) (key : String) :
    contents.view.hash key =
      match contents.find? key with
      | none => .ok ∅
      | some (.hash fields) => .ok (fields.toMap id)
      | some _ => .error (wrongKind key) := by
  rw [TypedMap.hash, Contents.lookup_view]
  cases contents.find? key with
  | none => rfl
  | some entry => cases entry <;> rfl

theorem list_view (contents : Contents) (key : String) :
    contents.view.list key =
      match contents.find? key with
      | none => .ok []
      | some (.list items) => .ok items
      | some _ => .error (wrongKind key) := by
  rw [TypedMap.list, Contents.lookup_view]
  cases contents.find? key with
  | none => rfl
  | some entry => cases entry <;> rfl

theorem text_view (contents : Contents) (key : String) :
    contents.view.text key =
      match contents.find? key with
      | none => .ok none
      | some (.text s) => .ok (some s)
      | some _ => .error (wrongKind key) := by
  rw [TypedMap.text, Contents.lookup_view]
  cases contents.find? key with
  | none => rfl
  | some entry => cases entry <;> rfl

/-- To remove fields of an absent hash changes nothing. -/
theorem withRest_of_none (h : contents.find? key = none) (names : List String) :
    contents.view.withRest key (NamedMap.without ∅ names) = contents.view := by
  have hnothing : NamedMap.without (∅ : NamedMap String) names = ∅ := by
    apply Finmap.ext_lookup
    intro name
    rw [NamedMap.lookup_without, Finmap.lookup_empty, ite_self]
  rw [TypedMap.withRest, hnothing, if_pos rfl]
  apply Finmap.ext_lookup
  intro other
  by_cases heq : other = key
  · subst heq
    rw [Finmap.lookup_erase, Contents.lookup_view, h, Option.map_none]
  · rw [Finmap.lookup_erase_ne heq]

theorem withRest_view (fields : Keyed String) :
    contents.view.withRest key (fields.toMap id) =
      Contents.view (if fields.isEmpty then contents.erase key
        else contents.insert key (.hash fields)) := by
  rw [TypedMap.withRest]
  by_cases hempty : fields.isEmpty = true
  · rw [if_pos hempty, if_pos (isEmpty_iff_toMap.mp hempty)]
    exact (Keyed.toMap_erase Entry.view key).symm
  · rw [if_neg hempty, if_neg (mt isEmpty_iff_toMap.mpr hempty), view_insert]
    rfl

/-- A call is answered, and changes what is kept, as on the typed map. -/
theorem Contents.view_apply (hsorted : contents.Sorted) (call : Call) :
    (contents.apply call).map (fun after => (after.1.view, view after.2)) =
      contents.view.respond call := by
  cases call with
  | readHash key =>
      rw [apply, TypedMap.respond, hash_view]
      cases contents.find? key with
      | none => rfl
      | some entry => cases entry <;> rfl
  | writeFields key pairs =>
      rw [apply, TypedMap.respond, hash_view]
      cases contents.find? key with
      | none =>
          have hwritten : view (contents.insert key (.hash (Keyed.ofList pairs))) =
              contents.view.insert key (.hash (NamedMap.override ∅ pairs)) := by
            rw [view_insert, Entry.view, Keyed.ofList, Keyed.toMap_insertAll_id]
            rfl
          exact congrArg (fun map => Except.ok (Answer.done, map)) hwritten
      | some entry =>
          cases entry with
          | hash fields =>
              have hwritten : view (contents.insert key (.hash (fields.insertAll pairs))) =
                  contents.view.insert key (.hash ((fields.toMap id).override pairs)) := by
                rw [view_insert, Entry.view, Keyed.toMap_insertAll_id]
              exact congrArg (fun map => Except.ok (Answer.done, map)) hwritten
          | text | list => rfl
  | removeFields key names =>
      rw [apply, TypedMap.respond, hash_view]
      cases hfind : contents.find? key with
      | none =>
          have hcount : (names.toFinset ∩ (∅ : NamedMap String).keys).card = 0 := by simp
          have hsame := withRest_of_none hfind names
          simp only [Except.map, bind, Except.bind, pure, Except.pure, hcount, hsame]
          rfl
      | some entry =>
          cases entry with
          | hash fields =>
              simp only [Except.map, bind, Except.bind, pure, Except.pure, ← toMap_removeAll,
                withRest_view, ← removeAll_count]
              rfl
          | text | list => rfl
  | listKeys pattern =>
      have hkeys := filter_keys_eq_sort hsorted (Text.globMatches pattern)
      rw [apply, TypedMap.respond, ← hkeys]
      rfl
  | readText key =>
      rw [apply, TypedMap.respond, text_view]
      cases contents.find? key with
      | none => rfl
      | some entry => cases entry <;> rfl
  | writeText key value =>
      exact congrArg (fun map => Except.ok (Answer.done, map)) (view_insert key (.text value))
  | writeTexts pairs =>
      have hwritten := Keyed.toMap_insertAll contents Entry.view
        (pairs.map fun pair => (pair.1, .text pair.2))
      rw [List.map_map] at hwritten
      exact congrArg (fun map => Except.ok (Answer.done, map)) hwritten
  | push key value =>
      rw [apply, TypedMap.respond, list_view]
      cases contents.find? key with
      | none =>
          exact congrArg (fun map => Except.ok (Answer.count 1, map))
            (view_insert key (.list [value]))
      | some entry =>
          cases entry with
          | list items =>
              exact congrArg (fun map => Except.ok (Answer.count (items.length + 1), map))
                (view_insert key (.list (value :: items)))
          | text | hash => rfl

end

end Store
end Uplink
