/-!
# Values under names

A finite map from names to values, kept as a list sorted by name.  The laws say what each operation
does to the value under a name; they hold of every list, sorted or not.
-/

namespace Uplink

/-- Values under names. -/
abbrev Keyed (α : Type) := List (String × α)

namespace Keyed

variable {α β : Type}

/-- The value under a name. -/
def find? (key : String) : Keyed α → Option α
  | [] => none
  | entry :: rest => if entry.1 = key then some entry.2 else find? key rest

/-- Put a value under a name, in place of the one that was there. -/
def insert (key : String) (value : α) : Keyed α → Keyed α
  | [] => [(key, value)]
  | entry :: rest =>
    if entry.1 = key then (key, value) :: rest
    else if key < entry.1 then (key, value) :: entry :: rest
    else entry :: insert key value rest

/-- Take away what is under a name. -/
def erase (key : String) (entries : Keyed α) : Keyed α :=
  entries.filter fun entry => entry.1 ≠ key

/-- The names that have a value. -/
def keys (entries : Keyed α) : List String :=
  entries.map Prod.fst

/-- Put values under names one after another, so that of several under one name the last remains. -/
def insertAll (entries : Keyed α) (more : List (String × α)) : Keyed α :=
  more.foldl (fun found entry => found.insert entry.1 entry.2) entries

/-- The map with the given values; of several under one name the last. -/
def ofList (entries : List (String × α)) : Keyed α :=
  insertAll [] entries

/-- Whether a name has a value. -/
def has (key : String) (entries : Keyed α) : Bool :=
  (entries.find? key).isSome

@[simp]
theorem find?_nil (key : String) : find? key ([] : Keyed α) = none :=
  rfl

/-- What was put under a name is found there. -/
@[simp]
theorem find?_insert_self (key : String) (value : α) (entries : Keyed α) :
    find? key (insert key value entries) = some value := by
  induction entries with
  | nil => simp [insert, find?]
  | cons entry rest ih =>
    simp only [insert]
    split
    · simp [find?]
    · split
      · simp [find?]
      · rename_i hne _
        simp [find?, hne, ih]

/-- Putting a value under one name leaves the others alone. -/
theorem find?_insert_of_ne {key other : String} (h : other ≠ key) (value : α) (entries : Keyed α) :
    find? other (insert key value entries) = find? other entries := by
  induction entries with
  | nil => simp [insert, find?, Ne.symm h]
  | cons entry rest ih =>
    simp only [insert]
    split
    · rename_i heq
      simp [find?, Ne.symm h, heq]
    · split
      · simp [find?, Ne.symm h]
      · simp [find?, ih]

theorem erase_cons (key : String) (entry : String × α) (rest : Keyed α) :
    erase key (entry :: rest) =
      if entry.1 = key then erase key rest else entry :: erase key rest := by
  by_cases h : entry.1 = key <;> simp [erase, h]

/-- Nothing is found under a name that was taken away. -/
@[simp]
theorem find?_erase_self (key : String) (entries : Keyed α) :
    find? key (erase key entries) = none := by
  induction entries with
  | nil => rfl
  | cons entry rest ih =>
    rw [erase_cons]
    split
    · exact ih
    · rename_i hne
      simp [find?, hne, ih]

/-- Taking away one name leaves the others alone. -/
theorem find?_erase_of_ne {key other : String} (h : other ≠ key) (entries : Keyed α) :
    find? other (erase key entries) = find? other entries := by
  induction entries with
  | nil => rfl
  | cons entry rest ih =>
    rw [erase_cons]
    split
    · rename_i heq
      simp [find?, heq, Ne.symm h, ih]
    · simp [find?, ih]

end Keyed
end Uplink
