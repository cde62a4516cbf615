import Uplink.Failure
import Uplink.Json.Record
import Uplink.Text.Blank
import Uplink.Text.Numeral

/-!
# Reports of the modem

Two kinds of lines carry numbers: the flow report with six counters in hexadecimal digits, and the
signal report with a reading in decimal digits.  The numbers are separated by commas, and blanks
around them do not count.
-/

namespace Uplink
namespace Modem

/-- The fields of a line between its commas. -/
def fields (line : String) : List (List Char) :=
  line.toList.splitOn ','

/-- The text of a field without the blanks around it; empty if there is no such field. -/
def fieldText (line : String) (index : Nat) : String :=
  String.ofList (Text.trimChars ((fields line)[index]?.getD []))

/-- The counters of a connection. -/
structure FlowReport where
  /-- The rate at which bytes are sent. -/
  sendRate : UInt64
  /-- The rate at which bytes are received. -/
  receiveRate : UInt64
  /-- The bytes sent so far. -/
  sent : UInt64
  /-- The bytes received so far. -/
  received : UInt64
  /-- The agreed rate for sending. -/
  sendQuality : UInt64
  /-- The agreed rate for receiving. -/
  receiveQuality : UInt64
  deriving DecidableEq, Repr, Inhabited

namespace FlowReport

/-- How a line with a flow report starts. -/
def tag : String := "^DSFLOWRPT:"

/-- The names of the counters, in order. -/
def names : List String :=
  ["txrate", "rxrate", "txflow", "rxflow", "txqos", "rxqos"]

/-- The counters, in order. -/
def counters (report : FlowReport) : List UInt64 :=
  [report.sendRate, report.receiveRate, report.sent, report.received, report.sendQuality,
    report.receiveQuality]

/-- The counter in the field with the given index. -/
def counter (line : String) (index : Nat) (name : String) : Except Failure UInt64 :=
  let text := fieldText line index
  match Text.unsigned? 16 UInt64.size text.toList with
  | some n => .ok (UInt64.ofNat n)
  | none => .error (.invalidValue name text)

/-- The report in the text after the tag.  The first field, the time of the connection, is not
read. -/
def parse (line : String) : Except Failure FlowReport := do
  let sendRate ← counter line 1 "txrate"
  let receiveRate ← counter line 2 "rxrate"
  let sent ← counter line 3 "txflow"
  let received ← counter line 4 "rxflow"
  let sendQuality ← counter line 5 "txqos"
  let receiveQuality ← counter line 6 "rxqos"
  return { sendRate, receiveRate, sent, received, sendQuality, receiveQuality }

/-- The report as JSON. -/
def toJson (report : FlowReport) : Json :=
  .object (names.zip (report.counters.map fun n => Json.nat n.toNat))

/-- The report that a JSON value denotes. -/
def ofJson? (json : Json) : Option FlowReport := do
  let record ← Json.record? names json
  let sendRate ← record.require "txrate" Json.asUInt64?
  let receiveRate ← record.require "rxrate" Json.asUInt64?
  let sent ← record.require "txflow" Json.asUInt64?
  let received ← record.require "rxflow" Json.asUInt64?
  let sendQuality ← record.require "txqos" Json.asUInt64?
  let receiveQuality ← record.require "rxqos" Json.asUInt64?
  return { sendRate, receiveRate, sent, received, sendQuality, receiveQuality }

/-- The counters as samples of a gauge. -/
def gauges (report : FlowReport) : List (String × String) :=
  names.zip (report.counters.map fun n => toString n.toNat ++ "|g")

end FlowReport

/-- How a line with a signal report starts. -/
def signalTag : String := "+CSQ:"

/-- The reading in the text after the tag, as the nearest number of 32 bits without sign. -/
def parseSignal (line : String) : Except Failure UInt32 :=
  let text := fieldText line 0
  match Text.integer? 10 Text.int64Bounds.1 Text.int64Bounds.2 text.toList with
  | some n => .ok (UInt32.ofNat (min n.toNat (UInt32.size - 1)))
  | none => .error (.invalidValue "rssi" text)

end Modem
end Uplink
