import Uplink.Device
import Uplink.Template

/-!
# The configuration of the modem
-/

namespace Uplink
namespace Modem

/-- Where the modem is and how often it is asked for its signal. -/
structure Config where
  /-- The path from which reports are read. -/
  reportFile : String := "/dev/ttyUSB2"
  /-- The path to which requests are written. -/
  commandFile : String := "/dev/ttyUSB2"
  /-- The time between two requests for the signal, in milliseconds. -/
  signalInterval : UInt64 := 60000
  deriving DecidableEq, Repr, Inhabited

namespace Config

/-- The device of the modem. -/
def device (config : Config) : Device.Serial :=
  ⟨config.reportFile, config.commandFile⟩

/-- The configuration as JSON. -/
def toJson (config : Config) : Json :=
  .object [
    ("reportFile", .string config.reportFile),
    ("commandFile", .string config.commandFile),
    ("rssiInterval", .nat config.signalInterval.toNat)]

/-- The configuration that a document denotes. -/
def ofDocument? {σ : Type} [Document σ] (document : σ) : Option Config := do
  let record ← Document.record? ["reportFile", "commandFile", "rssiInterval"] document
  let base : Config := {}
  let reportFile ← record.getD "reportFile" base.reportFile Document.text?
  let commandFile ← record.getD "commandFile" base.commandFile Document.text?
  let signalInterval ← record.getD "rssiInterval" base.signalInterval Document.count?
  return { reportFile, commandFile, signalInterval }

/-- Where the configuration stands in a hash. -/
def template : Template :=
  Template.field {} "reportFile" (.string "modem:report-file")
    |>.field "commandFile" (.string "modem:command-file")
    |>.field "rssiInterval" (.number "modem:rssi-interval")

end Config
end Modem
end Uplink
