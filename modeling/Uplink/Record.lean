/-!
# Records

A record gives values to the fields of a configuration.  It is written by name or by position, in
more than one format of documents; what a configuration needs of a format is in `Document`, so that
each configuration is read by one function from every format.
-/

namespace Uplink

/-- The values of the fields that are present. -/
structure Record (σ : Type) where
  /-- Each field that is present, with its value. -/
  values : List (String × σ)

namespace Record

variable {σ α : Type}

/-- No name occurs twice. -/
def unrepeated : List String → Bool
  | [] => true
  | name :: names => !names.contains name && unrepeated names

/-- The record that is written by name.  Other names are ignored; a field may be named once. -/
def ofMembers? (fields : List String) (members : List (String × σ)) : Option (Record σ) :=
  let known := members.filter fun member => fields.contains member.1
  if unrepeated (known.map Prod.fst) then some ⟨known⟩ else none

/-- The record that is written by position.  Fields may be missing at the end; none may be added. -/
def ofItems? (fields : List String) (items : List σ) : Option (Record σ) :=
  if items.length ≤ fields.length then some ⟨fields.zip items⟩ else none

/-- The value of a field, if it is present. -/
def get? (record : Record σ) (field : String) : Option σ :=
  record.values.lookup field

/-- A field that must be present. -/
def require (record : Record σ) (field : String) (read : σ → Option α) : Option α :=
  (record.get? field).bind read

/-- A field that may be missing; if it is present, it must be readable. -/
def getD (record : Record σ) (field : String) (value : α) (read : σ → Option α) : Option α :=
  match record.get? field with
  | some given => read given
  | none => some value

end Record

/-- What configurations need of the values of a format. -/
class Document (σ : Type) where
  /-- The record of the given fields. -/
  record? : List String → σ → Option (Record σ)
  /-- The text of a value. -/
  text? : σ → Option String
  /-- The whole number of 64 bits without sign. -/
  count? : σ → Option UInt64

end Uplink
