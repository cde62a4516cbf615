import Uplink.Failure
import Uplink.Json.Parser
import Uplink.Json.Printer
import Uplink.Json.Record
import Uplink.Wire.Message

/-!
# Messages as JSON text

A queue holds messages as JSON text.  A tuple is written under the type code it claims, and its
value without a mark of its kind: a number, a string, or a sequence of numbers.  Reading therefore
lets the type code decide how the value is taken.
-/

namespace Uplink
namespace Wire

/-- A byte as a JSON number. -/
def jsonOfByte (b : UInt8) : Json :=
  .nat b.toNat

/-- A value as JSON. -/
def Value.toJson : Value → Json
  | int n => .int n.toInt
  | text s => .string s
  | bytes bs => .array (bs.map jsonOfByte)
  | byte b => jsonOfByte b

/-- The value of the given type code that a JSON value denotes. -/
def Value.ofJson? (type : UInt8) (json : Json) : Option Value :=
  match type with
  | 1 => json.asInt32?.map int
  | 2 => json.asString?.map text
  | 3 => (json.asArray? Json.asUInt8?).map bytes
  | 4 => json.asUInt8?.map byte
  | _ => none

namespace Tuple

/-- The keys of a tuple. -/
def keys : List String :=
  ["type", "id", "value"]

/-- A tuple as JSON. -/
def toJson (tuple : Tuple) : Json :=
  .object [
    ("type", jsonOfByte tuple.type),
    ("id", jsonOfByte tuple.id),
    ("value", tuple.value.toJson)]

/-- The tuple that a JSON value denotes, where the value of the tuple may use the given number of
levels of brackets. -/
def ofJson? (levels : Nat) (json : Json) : Option Tuple := do
  let record ← Json.record? keys json
  let type ← record.require "type" Json.asUInt8?
  let id ← record.require "id" Json.asUInt8?
  let kept ← record.require "value" (Json.kept? levels)
  let value ← Value.ofJson? type kept
  return of id value

end Tuple

namespace Message

/-- The keys of a message. -/
def keys : List String :=
  ["majorVersion", "minorVersion", "messageType", "eventCode", "sequenceNumber", "timestamp",
    "tuples"]

/-- A message as JSON. -/
def toJson (message : Message) : Json :=
  .object [
    ("majorVersion", jsonOfByte message.major),
    ("minorVersion", jsonOfByte message.minor),
    ("messageType", jsonOfByte message.type),
    ("eventCode", jsonOfByte message.event),
    ("sequenceNumber", .nat message.sequence.toNat),
    ("timestamp", .nat message.timestamp.toNat),
    ("tuples", .array (message.tuples.map Tuple.toJson))]

/-- The message that a JSON value denotes. -/
def ofJson? (json : Json) : Option Message := do
  let record ← Json.record? keys json
  let major ← record.require "majorVersion" Json.asUInt8?
  let minor ← record.require "minorVersion" Json.asUInt8?
  let type ← record.require "messageType" Json.asUInt8?
  let event ← record.require "eventCode" Json.asUInt8?
  let sequence ← record.require "sequenceNumber" Json.asUInt16?
  let timestamp ← record.require "timestamp" Json.asUInt64?
  let tuples ← record.require "tuples" (Json.asArray? (Tuple.ofJson? (Json.documentLevels - 3)))
  return { major, minor, type, event, sequence, timestamp, tuples }

/-- The text under which a message is stored. -/
def toStorage (message : Message) : String :=
  message.toJson.render

/-- The message that a stored text denotes. -/
def ofStorage (text : String) : Except Failure Message :=
  match (Json.parse? text).bind ofJson? with
  | some message => .ok message
  | none => .error (.decode "not the stored form of a message")

end Message
end Wire
end Uplink
