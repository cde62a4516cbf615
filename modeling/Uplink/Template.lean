import Uplink.Failure
import Uplink.Json.Record
import Uplink.Text.Blank
import Uplink.Text.Numeral

/-!
# Templates

A configuration is kept in a flat hash of texts.  A template says, for each field of a
configuration, under which key of the hash its text stands, whether the text is a number, what holds
if the key is absent, and whether it may be absent.  Converting a hash yields the fields as a JSON
object, from which the configuration is read.
-/

namespace Uplink

/-- What the text of a field is. -/
inductive FieldKind where
  /-- Any text. -/
  | string
  /-- A number. -/
  | number
  deriving DecidableEq, Repr, Inhabited

namespace FieldKind

/-- The name of a kind. -/
def name : FieldKind → String
  | string => "string"
  | number => "number"

/-- The kind with the given name. -/
def ofName? (text : String) : Option FieldKind :=
  [string, number].find? fun kind => kind.name = text

end FieldKind

/-- How a field is taken from a hash. -/
structure FieldSpec where
  /-- The key of the hash. -/
  key : String
  /-- What the text is. -/
  kind : FieldKind := .string
  /-- The value if the key is absent. -/
  fallback : Option Json := none
  /-- Whether the configuration is incomplete without the key. -/
  required : Bool := false
  deriving Inhabited

namespace FieldSpec

/-- A field that takes any text. -/
def string (key : String) : FieldSpec :=
  { key, kind := .string }

/-- A field that takes a number. -/
def number (key : String) : FieldSpec :=
  { key, kind := .number }

/-- The field with a value for an absent key. -/
def withFallback (spec : FieldSpec) (value : Json) : FieldSpec :=
  { spec with fallback := some value }

/-- The field, made indispensable. -/
def require (spec : FieldSpec) : FieldSpec :=
  { spec with required := true }

/-- The number that a text denotes: a whole number of 64 bits with sign, or else a finite
floating-point number. -/
def parseNumber? (text : List Char) : Option Json.Number :=
  match Text.integer? 10 Text.int64Bounds.1 Text.int64Bounds.2 text with
  | some n => some (.int n)
  | none => (Text.decimal? text).map .float

/-- The value of a field whose key has the given text. -/
def convert (spec : FieldSpec) (raw : String) : Except Failure Json :=
  match spec.kind with
  | .string => .ok (.string raw)
  | .number =>
    match parseNumber? (Text.trimChars raw.toList) with
    | some n => .ok (.number n)
    | none => .error (.config (spec.key ++ ": number expected, found " ++ Text.quoted raw))

/-- The value of a field for a hash; nothing if the key is absent and there is no fallback. -/
def value (spec : FieldSpec) (hash : Keyed String) : Except Failure (Option Json) :=
  match hash.find? spec.key with
  | some raw => (spec.convert raw).map some
  | none => .ok spec.fallback

/-- The field as JSON. -/
def toJson (spec : FieldSpec) : Json :=
  .object ([("key", .string spec.key), ("type", .string spec.kind.name)] ++
    (spec.fallback.map fun value => ("default", value)).toList ++
    (if spec.required then [("required", .bool true)] else []))

/-- The field that a JSON value denotes, where the fallback may use the given number of levels of
brackets. -/
def ofJson? (levels : Nat) (json : Json) : Option FieldSpec := do
  let record ← Json.record? ["key", "type", "default", "required"] json
  let key ← record.require "key" Json.asString?
  let kind ← record.getD "type" .string (Json.asNamed? FieldKind.ofName?)
  let fallback ← record.getD "default" none (Json.asOption? (Json.kept? levels))
  let required ← record.getD "required" false Json.asBool?
  return { key, kind, fallback, required }

end FieldSpec

/-- How the fields of a configuration are taken from a hash. -/
structure Template where
  /-- The fields, by name. -/
  fields : Keyed FieldSpec := []
  deriving Inhabited

namespace Template

/-- The template with one more field. -/
def field (template : Template) (name : String) (spec : FieldSpec) : Template :=
  ⟨template.fields.insert name spec⟩

/-- Whether there is no field. -/
def isEmpty (template : Template) : Bool :=
  template.fields.isEmpty

/-- The keys that a hash must have, in the order of the field names. -/
def requirements (template : Template) : List String :=
  (template.fields.filter fun field => field.2.required).map fun field => field.2.key

/-- The named values of the fields that have one, in the order of the names.  The first field that
cannot be converted decides the failure. -/
def toConfig (template : Template) (hash : Keyed String) : Except Failure (List (String × Json)) :=
  (template.fields.mapM fun (field : String × FieldSpec) =>
    (field.2.value hash).map fun value => value.map fun value => (field.1, value)).map
      fun values => values.filterMap id

/-- The configuration that a hash denotes. -/
def read {α : Type} (template : Template) (ofJson? : Json → Option α) (hash : Keyed String) :
    Except Failure α :=
  (template.toConfig hash).bind fun fields =>
    match ofJson? (.object fields) with
    | some config => .ok config
    | none => .error (.config "the fields do not make a configuration")

/-- The template as JSON. -/
def toJson (template : Template) : Json :=
  .object (template.fields.map fun field => (field.1, field.2.toJson))

/-- The template that a JSON value denotes, where the whole value may use the given number of levels
of brackets. -/
def ofJson? (levels : Nat) : Json → Option Template
  | .object members =>
    (members.mapM fun member =>
      (FieldSpec.ofJson? (levels - 2) member.2).map fun spec => (member.1, spec)).map
        fun fields => ⟨Keyed.ofList fields⟩
  | _ => none

end Template
end Uplink
