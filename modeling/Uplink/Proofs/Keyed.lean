import Mathlib.Data.List.Induction
import Mathlib.Data.String.Basic
import Uplink.Keyed

/-!
# Values under names

What is found under a name after values were put there or taken away; and the order of the names, which
nothing disturbs.
-/

namespace Uplink
namespace Keyed

variable {α β : Type} {entries : Keyed α} {key name : String}

/-! ## What is found under a name -/

theorem lookup_cons (pair : String × α) (pairs : List (String × α)) :
    (pair :: pairs).lookup name = if name = pair.1 then some pair.2 else pairs.lookup name := by
  rw [List.lookup_cons]
  by_cases h : name = pair.1
  · simp [h]
  · simp [h, beq_false_of_ne h]

theorem find?_eq_lookup (entries : Keyed α) : find? key entries = entries.lookup key := by
  induction entries with
  | nil => rfl
  | cons entry rest ih =>
      rw [find?, lookup_cons, ih]
      simp only [eq_comm]

theorem find?_insert (name : String) (value : α) (entries : Keyed α) :
    find? key (insert name value entries) =
      if key = name then some value else find? key entries := by
  by_cases h : key = name
  · rw [if_pos h, h, find?_insert_self]
  · rw [if_neg h, find?_insert_of_ne h]

theorem find?_erase (name : String) (entries : Keyed α) :
    find? key (erase name entries) = if key = name then none else find? key entries := by
  by_cases h : key = name
  · rw [if_pos h, h, find?_erase_self]
  · rw [if_neg h, find?_erase_of_ne h]

theorem erase_eq_self (h : entries.find? key = none) : entries.erase key = entries := by
  rw [find?_eq_lookup, List.lookup_eq_none_iff] at h
  refine List.filter_eq_self.mpr fun entry hentry => ?_
  have hne := h entry hentry
  rw [bne_iff_ne] at hne
  simpa using Ne.symm hne

/-- Of the values put under a name the last is found. -/
theorem find?_insertAll (entries : Keyed α) (more : List (String × α)) :
    find? key (insertAll entries more) = (more.reverse.lookup key).or (find? key entries) := by
  induction more using List.reverseRecOn with
  | nil => rfl
  | append_singleton more entry ih =>
      have hlast : insertAll entries (more ++ [entry]) =
          (insertAll entries more).insert entry.1 entry.2 := by
        simp [insertAll]
      rw [hlast, find?_insert, List.reverse_concat, lookup_cons]
      by_cases h : key = entry.1
      · rw [if_pos h, if_pos h, Option.some_or]
      · rw [if_neg h, if_neg h, ih]

theorem isEmpty_iff_find? : entries.isEmpty = true ↔ ∀ key, entries.find? key = none := by
  rw [List.isEmpty_iff]
  constructor
  · rintro rfl key
    rfl
  · intro h
    cases entries with
    | nil => rfl
    | cons entry entries =>
        have hhead := h entry.1
        simp [find?] at hhead

theorem find?_insertAll_of_not_mem {more : List (String × α)} (h : key ∉ more.map Prod.fst)
    (entries : Keyed α) : find? key (insertAll entries more) = find? key entries := by
  have hnone : more.reverse.lookup key = none := by
    rw [List.lookup_eq_none_iff]
    intro entry hentry
    have hne : key ≠ entry.1 := by
      rintro rfl
      exact h (List.mem_map_of_mem (List.mem_reverse.mp hentry))
    exact bne_iff_ne.mpr hne
  rw [find?_insertAll, hnone, Option.none_or]

theorem insert_ne_nil (name : String) (value : α) (entries : Keyed α) :
    entries.insert name value ≠ [] := by
  intro h
  have hfind := find?_insert_self name value entries
  rw [h, find?_nil] at hfind
  cases hfind

theorem insertAll_eq_nil_iff {more : List (String × α)} :
    entries.insertAll more = [] ↔ entries = [] ∧ more = [] := by
  induction more using List.reverseRecOn with
  | nil => simp [insertAll]
  | append_singleton more entry _ =>
      have hlast : insertAll entries (more ++ [entry]) =
          (insertAll entries more).insert entry.1 entry.2 := by
        simp [insertAll]
      rw [hlast]
      simp [insert_ne_nil]

theorem lookup_filter {p : String → Bool} (h : p name = true) (pairs : List (String × α)) :
    (pairs.filter fun pair => p pair.1).lookup name = pairs.lookup name := by
  induction pairs with
  | nil => rfl
  | cons pair pairs ih =>
      rw [List.filter_cons]
      by_cases hp : p pair.1 = true
      · rw [if_pos hp, lookup_cons, lookup_cons, ih]
      · have hne : name ≠ pair.1 := by
          rintro rfl
          exact hp h
        rw [if_neg hp, lookup_cons, if_neg hne, ih]

theorem lookup_map_snd (f : α → β) (pairs : List (String × α)) :
    (pairs.map fun pair => (pair.1, f pair.2)).lookup key = (pairs.lookup key).map f := by
  induction pairs with
  | nil => rfl
  | cons pair pairs ih =>
      rw [List.map_cons, lookup_cons, lookup_cons, ih]
      by_cases h : key = pair.1 <;> simp [h]

/-! ## Names in order -/

/-- The names are in order, and no name occurs twice. -/
def Sorted (entries : Keyed α) : Prop :=
  entries.keys.Pairwise (· < ·)

theorem Sorted.nodup (h : Sorted entries) : entries.keys.Nodup :=
  h.imp ne_of_lt

theorem mem_keys_insert {value : α} :
    name ∈ (entries.insert key value).keys ↔ name = key ∨ name ∈ entries.keys := by
  induction entries with
  | nil => simp [insert, keys]
  | cons entry rest ih =>
      simp only [keys] at ih
      simp only [insert]
      split
      · rename_i heq
        simp [keys, heq]
      · split
        · simp [keys]
        · simp only [keys, List.map_cons, List.mem_cons, ih]
          exact or_left_comm

theorem mem_insert {entry : String × α} {value : α} (h : entry ∈ entries.insert key value) :
    entry = (key, value) ∨ entry ∈ entries := by
  induction entries with
  | nil => exact Or.inl (List.mem_singleton.mp h)
  | cons first rest ih =>
      simp only [insert] at h
      split at h
      · exact (List.mem_cons.mp h).imp_right (List.mem_cons_of_mem first)
      · split at h
        · exact List.mem_cons.mp h
        · rcases List.mem_cons.mp h with rfl | h
          · exact Or.inr List.mem_cons_self
          · exact (ih h).imp_right (List.mem_cons_of_mem first)

theorem Sorted.insert (h : Sorted entries) (key : String) (value : α) :
    Sorted (entries.insert key value) := by
  induction entries with
  | nil => simp [Sorted, Keyed.insert, keys]
  | cons entry rest ih =>
      obtain ⟨hhead, hrest⟩ := List.pairwise_cons.mp h
      simp only [Keyed.insert]
      split
      · rename_i heq
        rw [heq] at hhead
        exact List.pairwise_cons.mpr ⟨hhead, hrest⟩
      · rename_i hne
        split
        · rename_i hlt
          -- the new name stands before all others
          refine List.pairwise_cons.mpr ⟨?_, h⟩
          intro name hname
          rcases List.mem_cons.mp hname with rfl | hmem
          · exact hlt
          · exact hlt.trans (hhead name hmem)
        · rename_i hnot
          refine List.pairwise_cons.mpr ⟨?_, ih hrest⟩
          intro name hname
          rcases mem_keys_insert.mp hname with rfl | hmem
          · exact lt_of_le_of_ne (not_lt.mp hnot) hne
          · exact hhead name hmem

theorem Sorted.erase (h : Sorted entries) (key : String) : Sorted (entries.erase key) :=
  h.sublist (List.filter_sublist.map Prod.fst)

theorem Sorted.insertAll (h : Sorted entries) (more : List (String × α)) :
    Sorted (entries.insertAll more) := by
  induction more generalizing entries with
  | nil => exact h
  | cons entry more ih => exact ih (h.insert entry.1 entry.2)

theorem sorted_ofList (pairs : List (String × α)) : Sorted (ofList pairs) := by
  have hnil : Sorted ([] : Keyed α) := List.Pairwise.nil
  exact hnil.insertAll pairs

/-- A name behind all others is put at the end. -/
theorem insert_of_forall_lt (h : ∀ name ∈ entries.keys, name < key) (value : α) :
    entries.insert key value = entries ++ [(key, value)] := by
  induction entries with
  | nil => rfl
  | cons entry rest ih =>
      have hlt : entry.1 < key := h entry.1 List.mem_cons_self
      rw [insert, if_neg hlt.ne, if_neg hlt.not_gt,
        ih fun name hname => h name (List.mem_cons_of_mem entry.1 hname)]
      rfl

/-- Values whose names are in order stay as they are. -/
theorem ofList_of_sorted (h : Sorted entries) : ofList entries = entries := by
  induction entries using List.reverseRecOn with
  | nil => rfl
  | append_singleton rest entry ih =>
      rw [Sorted, keys, List.map_append, List.pairwise_append] at h
      obtain ⟨hrest, -, hlast⟩ := h
      have hlt : ∀ name ∈ keys rest, name < entry.1 := by
        intro name hname
        exact hlast name hname entry.1 List.mem_cons_self
      have hstep : ofList (rest ++ [entry]) = (ofList rest).insert entry.1 entry.2 := by
        simp [ofList, insertAll]
      rw [hstep, ih hrest, insert_of_forall_lt hlt]

theorem has_iff_mem_keys : entries.has key = true ↔ key ∈ entries.keys := by
  induction entries with
  | nil => simp [has, keys]
  | cons entry rest ih =>
      by_cases heq : entry.1 = key
      · simp [has, find?, keys, heq]
      · simp only [has, keys] at ih
        simp [has, find?, keys, heq, Ne.symm heq, ih]

end Keyed

end Uplink
