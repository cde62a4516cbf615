import Mathlib.Data.List.Basic
import Uplink.Link.Framing
import Uplink.Settings

/-!
# What a document must say

A document denotes a configuration if it is a record from which every field of the configuration is
read: a field that may be missing, with its default, and any other field only where it is present.
-/

namespace Uplink

section

variable {σ : Type} [Document σ] {document : σ}

theorem RetryPolicy.ofDocument?_eq_some_iff {policy : RetryPolicy} :
    RetryPolicy.ofDocument? document = some policy ↔
      ∃ record, Document.record? ["retryInterval"] document = some record ∧
        record.getD "retryInterval" 5000 Document.count? = some policy.interval := by
  simp only [RetryPolicy.ofDocument?, bind, Option.bind_eq_some_iff, pure, Option.some.injEq]
  constructor
  · rintro ⟨record, hrecord, interval, hinterval, rfl⟩
    exact ⟨record, hrecord, hinterval⟩
  · rintro ⟨record, hrecord, hinterval⟩
    exact ⟨record, hrecord, _, hinterval, rfl⟩

theorem Relay.Binding.ofDocument?_eq_some_iff {binding : Relay.Binding} :
    Relay.Binding.ofDocument? document = some binding ↔
      ∃ record, Document.record? ["bindAddress"] document = some record ∧
        (record.getD "bindAddress" .unspecified
          fun value => (Document.text? value).bind Address.ofText?) = some binding.address := by
  simp only [Relay.Binding.ofDocument?, bind, Option.bind_eq_some_iff, pure, Option.some.injEq]
  constructor
  · rintro ⟨record, hrecord, address, haddress, rfl⟩
    exact ⟨record, hrecord, haddress⟩
  · rintro ⟨record, hrecord, haddress⟩
    exact ⟨record, hrecord, _, haddress, rfl⟩

theorem Route.Config.ofDocument?_eq_some_iff {config : Route.Config} :
    Route.Config.ofDocument? document = some config ↔
      ∃ record, Document.record? ["subnet", "mask", "interface", "routeInterval"] document =
          some record ∧
        record.getD "subnet" "172.29.12.0" Document.text? = some config.subnet ∧
        record.getD "mask" "255.255.255.0" Document.text? = some config.mask ∧
        record.getD "interface" "ppp0" Document.text? = some config.interface ∧
        record.getD "routeInterval" 15000 Document.count? = some config.interval := by
  simp only [Route.Config.ofDocument?, bind, Option.bind_eq_some_iff, pure, Option.some.injEq]
  constructor
  · rintro ⟨record, hrecord, subnet, hsubnet, mask, hmask, interface, hinterface, interval,
      hinterval, rfl⟩
    exact ⟨record, hrecord, hsubnet, hmask, hinterface, hinterval⟩
  · rintro ⟨record, hrecord, hsubnet, hmask, hinterface, hinterval⟩
    exact ⟨record, hrecord, _, hsubnet, _, hmask, _, hinterface, _, hinterval, rfl⟩

theorem Modem.Config.ofDocument?_eq_some_iff {config : Modem.Config} :
    Modem.Config.ofDocument? document = some config ↔
      ∃ record, Document.record? ["reportFile", "commandFile", "rssiInterval"] document =
          some record ∧
        record.getD "reportFile" "/dev/ttyUSB2" Document.text? = some config.reportFile ∧
        record.getD "commandFile" "/dev/ttyUSB2" Document.text? = some config.commandFile ∧
        record.getD "rssiInterval" 60000 Document.count? = some config.signalInterval := by
  simp only [Modem.Config.ofDocument?, bind, Option.bind_eq_some_iff, pure, Option.some.injEq]
  constructor
  · rintro ⟨record, hrecord, report, hreport, command, hcommand, interval, hinterval, rfl⟩
    exact ⟨record, hrecord, hreport, hcommand, hinterval⟩
  · rintro ⟨record, hrecord, hreport, hcommand, hinterval⟩
    exact ⟨record, hrecord, _, hreport, _, hcommand, _, hinterval, rfl⟩

/-- The parts of the settings. -/
def Settings.parts : List String :=
  ["configKey", "checkpoint", "watcher", "modem", "ppp", "proxy"]

theorem Settings.ofDocument?_eq_some_iff {settings : Settings} :
    Settings.ofDocument? document = some settings ↔
      ∃ record, Document.record? Settings.parts document = some record ∧
        record.getD "configKey" Store.configKey Document.text? = some settings.configKey ∧
        record.getD "checkpoint" {} RetryPolicy.ofDocument? = some settings.checkpoint ∧
        record.getD "watcher" {} RetryPolicy.ofDocument? = some settings.watcher ∧
        record.getD "modem" {} Modem.Config.ofDocument? = some settings.modem ∧
        record.getD "ppp" {} Route.Config.ofDocument? = some settings.route ∧
        record.getD "proxy" {} Relay.Binding.ofDocument? = some settings.relay := by
  simp only [Settings.ofDocument?, bind, Option.bind_eq_some_iff, pure, Option.some.injEq]
  constructor
  · rintro ⟨record, hrecord, key, hkey, checkpoint, hcheckpoint, watcher, hwatcher, modem, hmodem,
      route, hroute, relay, hrelay, rfl⟩
    exact ⟨record, hrecord, hkey, hcheckpoint, hwatcher, hmodem, hroute, hrelay⟩
  · rintro ⟨record, hrecord, hkey, hcheckpoint, hwatcher, hmodem, hroute, hrelay⟩
    exact ⟨record, hrecord, _, hkey, _, hcheckpoint, _, hwatcher, _, hmodem, _, hroute, _, hrelay,
      rfl⟩

end

/-! ## Configurations in JSON -/

section

variable {json : Json}

theorem Relay.Config.ofJson?_eq_some_iff {config : Relay.Config} :
    Relay.Config.ofJson? json = some config ↔
      ∃ record, Json.record? Relay.Config.fields json = some record ∧
        record.getD "primary" .publicNet (Json.asNamed? Relay.Path.ofName?) =
          some config.primary ∧
        record.require "privateHost" Json.asString? = some config.privateHost ∧
        record.require "privatePort" Json.asUInt16? = some config.privatePort ∧
        record.getD "privateRelay" 4000 Json.asUInt16? = some config.privateRelay ∧
        record.require "publicHost" Json.asString? = some config.publicHost ∧
        record.require "publicPort" Json.asUInt16? = some config.publicPort ∧
        record.getD "publicRelay" 4001 Json.asUInt16? = some config.publicRelay ∧
        record.getD "imei" none (Json.asOption? Json.asString?) = some config.identity := by
  simp only [Relay.Config.ofJson?, bind, Option.bind_eq_some_iff, pure, Option.some.injEq]
  constructor
  · rintro ⟨record, hrecord, primary, hprimary, privateHost, hprivateHost, privatePort,
      hprivatePort, privateRelay, hprivateRelay, publicHost, hpublicHost, publicPort, hpublicPort,
      publicRelay, hpublicRelay, identity, hidentity, rfl⟩
    exact ⟨record, hrecord, hprimary, hprivateHost, hprivatePort, hprivateRelay, hpublicHost,
      hpublicPort, hpublicRelay, hidentity⟩
  · rintro ⟨record, hrecord, hprimary, hprivateHost, hprivatePort, hprivateRelay, hpublicHost,
      hpublicPort, hpublicRelay, hidentity⟩
    exact ⟨record, hrecord, _, hprimary, _, hprivateHost, _, hprivatePort, _, hprivateRelay, _,
      hpublicHost, _, hpublicPort, _, hpublicRelay, _, hidentity, rfl⟩

theorem Link.Framing.ofJson?_eq_some_iff {framing : Link.Framing} :
    Link.Framing.ofJson? json = some framing ↔
      ∃ record, Json.record? Link.Framing.fields json = some record ∧
        record.getD "commandPrefix" "" Json.asString? = some framing.commandStart ∧
        record.getD "commandSuffix" "" Json.asString? = some framing.commandEnd ∧
        record.getD "responsePrefix" "" Json.asString? = some framing.responseStart ∧
        record.getD "responseSuffix" "" Json.asString? = some framing.responseEnd := by
  simp only [Link.Framing.ofJson?, bind, Option.bind_eq_some_iff, pure, Option.some.injEq]
  constructor
  · rintro ⟨record, hrecord, commandStart, hcommandStart, commandEnd, hcommandEnd, responseStart,
      hresponseStart, responseEnd, hresponseEnd, rfl⟩
    exact ⟨record, hrecord, hcommandStart, hcommandEnd, hresponseStart, hresponseEnd⟩
  · rintro ⟨record, hrecord, hcommandStart, hcommandEnd, hresponseStart, hresponseEnd⟩
    exact ⟨record, hrecord, _, hcommandStart, _, hcommandEnd, _, hresponseStart, _, hresponseEnd,
      rfl⟩

theorem Device.Serial.ofJson?_eq_some_iff {device : Device.Serial} :
    Device.Serial.ofJson? json = some device ↔
      ∃ record, Json.record? ["inFile", "outFile"] json = some record ∧
        record.require "inFile" Json.asString? = some device.inFile ∧
        record.require "outFile" Json.asString? = some device.outFile := by
  simp only [Device.Serial.ofJson?, bind, Option.bind_eq_some_iff, pure, Option.some.injEq]
  constructor
  · rintro ⟨record, hrecord, inFile, hin, outFile, hout, rfl⟩
    exact ⟨record, hrecord, hin, hout⟩
  · rintro ⟨record, hrecord, hin, hout⟩
    exact ⟨record, hrecord, _, hin, _, hout, rfl⟩

theorem Device.Telnet.ofJson?_eq_some_iff {device : Device.Telnet} :
    Device.Telnet.ofJson? json = some device ↔
      ∃ record, Json.record? ["telnetAddress", "telnetPort"] json = some record ∧
        record.require "telnetAddress" Json.asString? = some device.address ∧
        record.require "telnetPort" Json.asUInt16? = some device.port := by
  simp only [Device.Telnet.ofJson?, bind, Option.bind_eq_some_iff, pure, Option.some.injEq]
  constructor
  · rintro ⟨record, hrecord, address, haddress, port, hport, rfl⟩
    exact ⟨record, hrecord, haddress, hport⟩
  · rintro ⟨record, hrecord, haddress, hport⟩
    exact ⟨record, hrecord, _, haddress, _, hport, rfl⟩

end

end Uplink
