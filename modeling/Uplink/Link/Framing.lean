import Uplink.Json.Literal
import Uplink.Json.Record

/-!
# Framing

What is put around a command and expected around a response.  A configuration writes each of the
four texts as the contents of a JSON string, so that control characters can be given by escapes.
-/

namespace Uplink
namespace Link

/-- The text that the contents of a JSON string denote; empty if they are not the contents of
one. -/
def decodeDelimiter (contents : String) : String :=
  match Json.Literal.read [] (contents.toList ++ ['"']) with
  | some (elements, []) => (Json.Literal.text? elements).getD ""
  | _ => ""

/-- The texts around commands and responses. -/
structure Framing where
  /-- What is written before a command. -/
  commandStart : String := ""
  /-- What is written after a command. -/
  commandEnd : String := ""
  /-- How a response starts. -/
  responseStart : String := ""
  /-- How a response ends. -/
  responseEnd : String := ""
  deriving DecidableEq, Repr, Inhabited

namespace Framing

/-- The framing whose texts are denoted by those of the given one. -/
def decoded (framing : Framing) : Framing :=
  ⟨decodeDelimiter framing.commandStart, decodeDelimiter framing.commandEnd,
    decodeDelimiter framing.responseStart, decodeDelimiter framing.responseEnd⟩

/-- The framing as JSON. -/
def toJson (framing : Framing) : Json :=
  .object [
    ("commandPrefix", .string framing.commandStart),
    ("commandSuffix", .string framing.commandEnd),
    ("responsePrefix", .string framing.responseStart),
    ("responseSuffix", .string framing.responseEnd)]

/-- The fields, in the order of their declaration. -/
def fields : List String :=
  ["commandPrefix", "commandSuffix", "responsePrefix", "responseSuffix"]

/-- The framing that a JSON value denotes. -/
def ofJson? (json : Json) : Option Framing := do
  let record ← Json.record? fields json
  let commandStart ← record.getD "commandPrefix" "" Json.asString?
  let commandEnd ← record.getD "commandSuffix" "" Json.asString?
  let responseStart ← record.getD "responsePrefix" "" Json.asString?
  let responseEnd ← record.getD "responseSuffix" "" Json.asString?
  return { commandStart, commandEnd, responseStart, responseEnd }

/-- A command between its delimiters. -/
def wrap (framing : Framing) (command : String) : String :=
  framing.commandStart ++ command ++ framing.commandEnd

end Framing
end Link
end Uplink
