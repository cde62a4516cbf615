import Uplink.Json
import Uplink.Record

/-!
# Records in JSON

A record is an object, or an array of its fields in the order of their declaration.
-/

namespace Uplink
namespace Json

/-- The record of the given fields that a value denotes. -/
def record? (fields : List String) : Json → Option (Record Json)
  | object members => Record.ofMembers? fields members
  | array items => Record.ofItems? fields items
  | _ => none

instance : Document Json where
  record? := record?
  text? := asString?
  count? := asUInt64?

/-- One of several names: the name as a string, or as the only key of an object whose value is
null. -/
def asName? : Json → Option String
  | string s => some s
  | object [(key, null)] => some key
  | _ => none

/-- A value that is one of several named ones. -/
def asNamed? {α : Type} (ofName? : String → Option α) (json : Json) : Option α :=
  json.asName?.bind ofName?

/-- The members of an object, changed and completed by others. -/
def overlay (base : Json) (members : List (String × Json)) : Json :=
  match base with
  | object fields => object (Keyed.insertAll (Keyed.ofList fields) members)
  | other => other

end Json
end Uplink
