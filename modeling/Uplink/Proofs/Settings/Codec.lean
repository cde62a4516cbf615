import Uplink.Proofs.Address
import Uplink.Proofs.Json.Value
import Uplink.Proofs.Settings.Fields

/-!
# Configurations read back

Every configuration is read back from the JSON as which it is written, also if some of its fields are
taken away: a field that may be missing then has its default, and without any other field there is no
configuration.
-/

namespace Uplink

/-! ## Fields taken away -/

namespace Json

/-- The names of the members of an object. -/
def names : Json → List String
  | object members => members.map Prod.fst
  | _ => []

/-- An object without the members of some names. -/
def without (dropped : List String) : Json → Json
  | object members => object (members.filter fun member => !dropped.contains member.1)
  | json => json

variable {json : Json}

theorem plain_without (h : json.Plain) (dropped : List String) : (json.without dropped).Plain := by
  cases h with
  | null => exact .null
  | bool b => exact .bool b
  | int hlow hhigh => exact .int hlow hhigh
  | string s => exact .string s
  | array hitems => exact .array hitems
  | object hmembers =>
      apply Plain.object
      intro member hmember
      exact hmembers member (List.mem_of_mem_filter hmember)

theorem without_nil (json : Json) : json.without [] = json := by
  cases json <;> simp [without]

/-- A record has the fields that are not taken away. -/
theorem exists_record?_without (members : List (String × Json))
    (h : (members.map Prod.fst).Nodup) (fields dropped : List String) :
    ∃ record, record? fields ((object members).without dropped) = some record ∧
      ∀ name ∈ fields, record.get? name =
        if name ∈ dropped then none else members.lookup name := by
  obtain ⟨record, hrecord, hget⟩ :=
    Record.exists_ofMembers? (h.sublist (List.filter_sublist.map Prod.fst)) fields
  refine ⟨record, hrecord, ?_⟩
  intro name hname
  rw [hget name hname]
  by_cases hdropped : name ∈ dropped
  · rw [if_pos hdropped, List.lookup_eq_none_iff]
    intro member hmember
    have hkept : member.1 ∉ dropped := by simpa using (List.mem_filter.mp hmember).2
    apply bne_iff_ne.mpr
    rintro rfl
    exact hkept hdropped
  · rw [if_neg hdropped]
    exact Keyed.lookup_filter (p := fun name => !dropped.contains name) (by simpa using hdropped)
      members

end Json

namespace Record

variable {σ α : Type} {record : Record σ} {name : String} {dropped : List String} {given : σ}
  {value : α}

theorem getD_of_dropped (read : σ → Option α)
    (h : record.get? name = if name ∈ dropped then none else some given)
    (hread : read given = some value) (default : α) :
    record.getD name default read = some (if name ∈ dropped then default else value) := by
  by_cases hdropped : name ∈ dropped
  · simp [getD, h, hdropped]
  · simp [getD, h, hdropped, hread]

theorem require_of_dropped {read : σ → Option α}
    (h : record.get? name = if name ∈ dropped then none else some given)
    (hread : read given = some value) :
    record.require name read = if name ∈ dropped then none else some value := by
  by_cases hdropped : name ∈ dropped
  · simp [require, h, hdropped]
  · simp [require, h, hdropped, hread]

/-- A field that must be present and is read was not taken away. -/
theorem not_mem_of_require {read : σ → Option α} {found : α}
    (h : record.require name read = if name ∈ dropped then none else some value)
    (hfound : record.require name read = some found) : name ∉ dropped := by
  intro hdropped
  rw [if_pos hdropped] at h
  cases h.symm.trans hfound

end Record

/-! ## Codecs -/

/-- How a configuration is written and read, and which of its fields may be missing. -/
structure Codec (α : Type) where
  write : α → Json
  read : Json → Option α
  /-- The fields that must be present. -/
  required : List String
  /-- The fields that may be missing. -/
  optional : List String
  /-- A configuration with the defaults of the optional fields among some. -/
  reset : List String → α → α

namespace Codec

variable {α : Type} {codec : Codec α} {json : Json} {value : α} {dropped : List String}

/-- What is read from a value, and from its text. -/
def Reads (codec : Codec α) (json : Json) (result : Option α) : Prop :=
  codec.read json = result ∧ (Json.parse? json.render).bind codec.read = result

/-- Every configuration is read back, and every choice of its fields has the meaning it should. -/
structure RoundTrips (codec : Codec α) : Prop where
  fields : ∀ value, ∀ name ∈ (codec.write value).names,
    name ∈ codec.required ∨ name ∈ codec.optional
  whole : ∀ value, codec.Reads (codec.write value) (some value)
  dropped : ∀ value dropped, (∀ name ∈ dropped, name ∉ codec.required) →
    codec.Reads ((codec.write value).without dropped) (some (codec.reset dropped value))
  missing : ∀ value dropped, (∃ name ∈ dropped, name ∈ codec.required) →
    codec.Reads ((codec.write value).without dropped) none

theorem Reads.of_plain {result : Option α} (h : json.Plain) (hread : codec.read json = result) :
    codec.Reads json result := by
  refine ⟨hread, ?_⟩
  rw [Json.parse?_render h, Option.bind_some, hread]

/-- It is enough to read what is left of a value. -/
theorem RoundTrips.of_read
    (hfields : ∀ value, ∀ name ∈ (codec.write value).names,
      name ∈ codec.required ∨ name ∈ codec.optional)
    (hplain : ∀ value, (codec.write value).Plain)
    (hreset : ∀ value, codec.reset [] value = value)
    (hread : ∀ value dropped, (∀ name ∈ codec.required, name ∉ dropped) →
      codec.read ((codec.write value).without dropped) = some (codec.reset dropped value))
    (hmissing : ∀ value dropped name, name ∈ codec.required → name ∈ dropped →
      codec.read ((codec.write value).without dropped) = none) : codec.RoundTrips where
  fields := hfields
  whole value := by
    have hwhole := hread value [] (fun name _ => List.not_mem_nil)
    rw [Json.without_nil, hreset] at hwhole
    exact .of_plain (hplain value) hwhole
  dropped value dropped hdropped :=
    .of_plain (Json.plain_without (hplain value) dropped)
      (hread value dropped fun name hrequired hmem => hdropped name hmem hrequired)
  missing value dropped := by
    rintro ⟨name, hmem, hrequired⟩
    exact .of_plain (Json.plain_without (hplain value) dropped)
      (hmissing value dropped name hrequired hmem)

theorem RoundTrips.of_optional (hrequired : codec.required = [])
    (hfields : ∀ value, ∀ name ∈ (codec.write value).names, name ∈ codec.optional)
    (hplain : ∀ value, (codec.write value).Plain)
    (hreset : ∀ value, codec.reset [] value = value)
    (hread : ∀ value dropped,
      codec.read ((codec.write value).without dropped) = some (codec.reset dropped value)) :
    codec.RoundTrips := by
  apply of_read _ hplain hreset
  · intro value dropped _
    exact hread value dropped
  · intro value dropped name hname
    rw [hrequired] at hname
    cases hname
  · intro value name hname
    exact Or.inr (hfields value name hname)

end Codec

/-! ## The configurations -/

namespace RetryPolicy

/-- Watchers and the checkpoint have the same policy. -/
def codec : Codec RetryPolicy where
  write := toJson
  read := ofDocument?
  required := []
  optional := ["retryInterval"]
  reset dropped policy :=
    let default : RetryPolicy := {}
    { interval := if "retryInterval" ∈ dropped then default.interval else policy.interval }

theorem roundTrips : codec.RoundTrips := by
  apply Codec.RoundTrips.of_optional rfl
  · intro policy name hname
    simpa [codec, toJson, Json.names] using hname
  · intro policy
    apply Json.Plain.object
    simpa using Json.plain_nat policy.interval.toNat_lt_size
  · intro policy
    simp [codec]
  · intro policy dropped
    obtain ⟨record, hrecord, hget⟩ := Json.exists_record?_without
      [("retryInterval", .nat policy.interval.toNat)] (by simp) ["retryInterval"]
      dropped
    have hinterval := Record.getD_of_dropped Json.asUInt64? (hget "retryInterval" (by decide))
      (Json.asUInt64?_nat policy.interval)
    exact ofDocument?_eq_some_iff.mpr ⟨record, hrecord, hinterval _⟩

end RetryPolicy

namespace Relay.Binding

def codec : Codec Relay.Binding where
  write := toJson
  read := ofDocument?
  required := []
  optional := ["bindAddress"]
  reset dropped binding :=
    let default : Relay.Binding := {}
    { address := if "bindAddress" ∈ dropped then default.address else binding.address }

theorem roundTrips : codec.RoundTrips := by
  apply Codec.RoundTrips.of_optional rfl
  · intro binding name hname
    simpa [codec, toJson, Json.names] using hname
  · intro binding
    apply Json.Plain.object
    simpa using Json.Plain.string _
  · intro binding
    simp [codec]
  · intro binding dropped
    obtain ⟨record, hrecord, hget⟩ := Json.exists_record?_without
      [("bindAddress", .string binding.address.text)] (by simp) ["bindAddress"] dropped
    have hread : (Document.text? (Json.string binding.address.text)).bind Address.ofText? =
        some binding.address :=
      Address.ofText?_text binding.address
    have haddress := Record.getD_of_dropped
      (fun value => (Document.text? value).bind Address.ofText?)
      (hget "bindAddress" (by decide)) hread
    exact ofDocument?_eq_some_iff.mpr ⟨record, hrecord, haddress _⟩

end Relay.Binding

namespace Modem.Config

def codec : Codec Modem.Config where
  write := toJson
  read := ofDocument?
  required := []
  optional := ["reportFile", "commandFile", "rssiInterval"]
  reset dropped config :=
    let default : Modem.Config := {}
    { reportFile := if "reportFile" ∈ dropped then default.reportFile else config.reportFile
      commandFile := if "commandFile" ∈ dropped then default.commandFile else config.commandFile
      signalInterval :=
        if "rssiInterval" ∈ dropped then default.signalInterval else config.signalInterval }

theorem roundTrips : codec.RoundTrips := by
  apply Codec.RoundTrips.of_optional rfl
  · intro config name hname
    simpa [codec, toJson, Json.names] using hname
  · intro config
    apply Json.Plain.object
    simp [Json.Plain.string, Json.plain_nat config.signalInterval.toNat_lt_size]
  · intro config
    simp [codec]
  · intro config dropped
    obtain ⟨record, hrecord, hget⟩ := Json.exists_record?_without
      [("reportFile", .string config.reportFile),
        ("commandFile", .string config.commandFile),
        ("rssiInterval", .nat config.signalInterval.toNat)] (by simp)
      ["reportFile", "commandFile", "rssiInterval"] dropped
    have hreport := Record.getD_of_dropped Json.asString?
      (hget "reportFile" (by decide)) rfl
    have hcommand := Record.getD_of_dropped Json.asString?
      (hget "commandFile" (by decide)) rfl
    have hinterval := Record.getD_of_dropped Json.asUInt64? (hget "rssiInterval" (by decide))
      (Json.asUInt64?_nat config.signalInterval)
    exact ofDocument?_eq_some_iff.mpr ⟨record, hrecord, hreport _, hcommand _, hinterval _⟩

end Modem.Config

namespace Route.Config

def codec : Codec Route.Config where
  write := toJson
  read := ofDocument?
  required := []
  optional := ["subnet", "mask", "interface", "routeInterval"]
  reset dropped config :=
    let default : Route.Config := {}
    { subnet := if "subnet" ∈ dropped then default.subnet else config.subnet
      mask := if "mask" ∈ dropped then default.mask else config.mask
      interface := if "interface" ∈ dropped then default.interface else config.interface
      interval := if "routeInterval" ∈ dropped then default.interval else config.interval }

theorem roundTrips : codec.RoundTrips := by
  apply Codec.RoundTrips.of_optional rfl
  · intro config name hname
    simpa [codec, toJson, Json.names] using hname
  · intro config
    apply Json.Plain.object
    simp [Json.Plain.string, Json.plain_nat config.interval.toNat_lt_size]
  · intro config
    simp [codec]
  · intro config dropped
    obtain ⟨record, hrecord, hget⟩ := Json.exists_record?_without
      [("subnet", .string config.subnet), ("mask", .string config.mask),
        ("interface", .string config.interface), ("routeInterval", .nat config.interval.toNat)]
      (by simp) ["subnet", "mask", "interface", "routeInterval"] dropped
    have hsubnet := Record.getD_of_dropped Json.asString? (hget "subnet" (by decide)) rfl
    have hmask := Record.getD_of_dropped Json.asString? (hget "mask" (by decide)) rfl
    have hinterface := Record.getD_of_dropped Json.asString?
      (hget "interface" (by decide)) rfl
    have hinterval := Record.getD_of_dropped Json.asUInt64? (hget "routeInterval" (by decide))
      (Json.asUInt64?_nat config.interval)
    exact ofDocument?_eq_some_iff.mpr
      ⟨record, hrecord, hsubnet _, hmask _, hinterface _, hinterval _⟩

end Route.Config

namespace Link.Framing

def codec : Codec Link.Framing where
  write := toJson
  read := ofJson?
  required := []
  optional := fields
  reset dropped framing :=
    { commandStart := if "commandPrefix" ∈ dropped then "" else framing.commandStart
      commandEnd := if "commandSuffix" ∈ dropped then "" else framing.commandEnd
      responseStart := if "responsePrefix" ∈ dropped then "" else framing.responseStart
      responseEnd := if "responseSuffix" ∈ dropped then "" else framing.responseEnd }

theorem roundTrips : codec.RoundTrips := by
  apply Codec.RoundTrips.of_optional rfl
  · intro framing name hname
    simpa [codec, toJson, Json.names, fields] using hname
  · intro framing
    apply Json.Plain.object
    simp [Json.Plain.string]
  · intro framing
    simp [codec]
  · intro framing dropped
    obtain ⟨record, hrecord, hget⟩ := Json.exists_record?_without
      [("commandPrefix", .string framing.commandStart),
        ("commandSuffix", .string framing.commandEnd),
        ("responsePrefix", .string framing.responseStart),
        ("responseSuffix", .string framing.responseEnd)] (by simp) fields dropped
    have hcommandStart := Record.getD_of_dropped Json.asString?
      (hget "commandPrefix" (by decide)) rfl
    have hcommandEnd := Record.getD_of_dropped Json.asString?
      (hget "commandSuffix" (by decide)) rfl
    have hresponseStart := Record.getD_of_dropped Json.asString?
      (hget "responsePrefix" (by decide)) rfl
    have hresponseEnd := Record.getD_of_dropped Json.asString?
      (hget "responseSuffix" (by decide)) rfl
    exact ofJson?_eq_some_iff.mpr
      ⟨record, hrecord, hcommandStart _, hcommandEnd _, hresponseStart _, hresponseEnd _⟩

end Link.Framing

namespace Device.Serial

def codec : Codec Device.Serial where
  write := toJson
  read := ofJson?
  required := ["inFile", "outFile"]
  optional := []
  reset _ device := device

theorem roundTrips : codec.RoundTrips := by
  have hrecord : ∀ (device : Device.Serial) (dropped : List String), ∃ record,
      Json.record? ["inFile", "outFile"] (device.toJson.without dropped) = some record ∧
      record.require "inFile" Json.asString? =
        (if "inFile" ∈ dropped then none else some device.inFile) ∧
      record.require "outFile" Json.asString? =
        (if "outFile" ∈ dropped then none else some device.outFile) := by
    intro device dropped
    obtain ⟨record, hrecord, hget⟩ := Json.exists_record?_without
      [("inFile", .string device.inFile), ("outFile", .string device.outFile)]
      (by simp) ["inFile", "outFile"] dropped
    exact ⟨record, hrecord, Record.require_of_dropped (hget "inFile" (by decide)) rfl,
      Record.require_of_dropped (hget "outFile" (by decide)) rfl⟩
  apply Codec.RoundTrips.of_read
  · intro device name hname
    simpa [codec, toJson, Json.names] using hname
  · intro device
    apply Json.Plain.object
    simp [Json.Plain.string]
  · intro device
    rfl
  · intro device dropped hkept
    obtain ⟨record, hrecord, hin, hout⟩ := hrecord device dropped
    rw [if_neg (hkept "inFile" (by decide))] at hin
    rw [if_neg (hkept "outFile" (by decide))] at hout
    exact ofJson?_eq_some_iff.mpr ⟨record, hrecord, hin, hout⟩
  · intro device dropped name hname hdropped
    obtain ⟨record, hrecord, hin, hout⟩ := hrecord device dropped
    rw [Option.eq_none_iff_forall_ne_some]
    intro found hfound
    obtain ⟨record', hrecord', hin', hout'⟩ := ofJson?_eq_some_iff.mp hfound
    obtain rfl := Option.some.inj (hrecord.symm.trans hrecord')
    simp only [codec, List.mem_cons, List.not_mem_nil, or_false] at hname
    rcases hname with rfl | rfl
    · exact Record.not_mem_of_require hin hin' hdropped
    · exact Record.not_mem_of_require hout hout' hdropped

end Device.Serial

namespace Device.Telnet

def codec : Codec Device.Telnet where
  write := toJson
  read := ofJson?
  required := ["telnetAddress", "telnetPort"]
  optional := []
  reset _ device := device

theorem roundTrips : codec.RoundTrips := by
  have hrecord : ∀ (device : Device.Telnet) (dropped : List String), ∃ record,
      Json.record? ["telnetAddress", "telnetPort"] (device.toJson.without dropped) = some record ∧
      record.require "telnetAddress" Json.asString? =
        (if "telnetAddress" ∈ dropped then none else some device.address) ∧
      record.require "telnetPort" Json.asUInt16? =
        (if "telnetPort" ∈ dropped then none else some device.port) := by
    intro device dropped
    obtain ⟨record, hrecord, hget⟩ := Json.exists_record?_without
      [("telnetAddress", .string device.address),
        ("telnetPort", .nat device.port.toNat)] (by simp) ["telnetAddress", "telnetPort"] dropped
    exact ⟨record, hrecord, Record.require_of_dropped (hget "telnetAddress" (by decide)) rfl,
      Record.require_of_dropped (hget "telnetPort" (by decide)) (Json.asUInt16?_nat device.port)⟩
  apply Codec.RoundTrips.of_read
  · intro device name hname
    simpa [codec, toJson, Json.names] using hname
  · intro device
    have hport : device.port.toNat < UInt64.size :=
      device.port.toNat_lt_size.trans (by decide)
    apply Json.Plain.object
    simp [Json.Plain.string, Json.plain_nat hport]
  · intro device
    rfl
  · intro device dropped hkept
    obtain ⟨record, hrecord, haddress, hport⟩ := hrecord device dropped
    rw [if_neg (hkept "telnetAddress" (by decide))] at haddress
    rw [if_neg (hkept "telnetPort" (by decide))] at hport
    exact ofJson?_eq_some_iff.mpr ⟨record, hrecord, haddress, hport⟩
  · intro device dropped name hname hdropped
    obtain ⟨record, hrecord, haddress, hport⟩ := hrecord device dropped
    rw [Option.eq_none_iff_forall_ne_some]
    intro found hfound
    obtain ⟨record', hrecord', haddress', hport'⟩ := ofJson?_eq_some_iff.mp hfound
    obtain rfl := Option.some.inj (hrecord.symm.trans hrecord')
    simp only [codec, List.mem_cons, List.not_mem_nil, or_false] at hname
    rcases hname with rfl | rfl
    · exact Record.not_mem_of_require haddress haddress' hdropped
    · exact Record.not_mem_of_require hport hport' hdropped

end Device.Telnet

namespace Relay.Config

def codec : Codec Relay.Config where
  write := toJson
  read := ofJson?
  required := ["privateHost", "privatePort", "publicHost", "publicPort"]
  optional := ["primary", "privateRelay", "publicRelay", "imei"]
  reset dropped config :=
    { config with
      primary := if "primary" ∈ dropped then .publicNet else config.primary
      privateRelay := if "privateRelay" ∈ dropped then 4000 else config.privateRelay
      publicRelay := if "publicRelay" ∈ dropped then 4001 else config.publicRelay
      identity := if "imei" ∈ dropped then none else config.identity }

theorem asNamed?_name (path : Path) : Json.asNamed? Path.ofName? (.string path.name) = some path := by
  cases path <;> rfl

/-- The identity is only written where there is one. -/
theorem getD_identity {record : Record Json} {identity : Option String} {dropped : List String}
    (h : record.get? "imei" =
      if "imei" ∈ dropped then none else identity.map Json.string) :
    record.getD "imei" none (Json.asOption? Json.asString?) =
      some (if "imei" ∈ dropped then none else identity) := by
  by_cases hdropped : "imei" ∈ dropped
  · simp [Record.getD, h, hdropped]
  · cases identity <;> simp [Record.getD, h, hdropped, Json.asOption?, Json.asString?]

/-- What is read from the fields that are left. -/
theorem exists_record?_without (config : Relay.Config) (dropped : List String) :
    ∃ record, Json.record? fields (config.toJson.without dropped) = some record ∧
      record.getD "primary" .publicNet (Json.asNamed? Path.ofName?) =
        some (if "primary" ∈ dropped then .publicNet else config.primary) ∧
      record.require "privateHost" Json.asString? =
        (if "privateHost" ∈ dropped then none else some config.privateHost) ∧
      record.require "privatePort" Json.asUInt16? =
        (if "privatePort" ∈ dropped then none else some config.privatePort) ∧
      record.getD "privateRelay" 4000 Json.asUInt16? =
        some (if "privateRelay" ∈ dropped then 4000 else config.privateRelay) ∧
      record.require "publicHost" Json.asString? =
        (if "publicHost" ∈ dropped then none else some config.publicHost) ∧
      record.require "publicPort" Json.asUInt16? =
        (if "publicPort" ∈ dropped then none else some config.publicPort) ∧
      record.getD "publicRelay" 4001 Json.asUInt16? =
        some (if "publicRelay" ∈ dropped then 4001 else config.publicRelay) ∧
      record.getD "imei" none (Json.asOption? Json.asString?) =
        some (if "imei" ∈ dropped then none else config.identity) := by
  obtain ⟨record, hrecord, hget⟩ := Json.exists_record?_without
    ([("primary", .string config.primary.name),
      ("privateHost", .string config.privateHost),
      ("privatePort", .nat config.privatePort.toNat),
      ("privateRelay", .nat config.privateRelay.toNat),
      ("publicHost", .string config.publicHost),
      ("publicPort", .nat config.publicPort.toNat),
      ("publicRelay", .nat config.publicRelay.toNat)] ++
      (config.identity.map fun identity => ("imei", .string identity)).toList)
    (by cases config.identity <;> simp) fields dropped
  refine ⟨record, hrecord, ?_, ?_, ?_, ?_, ?_, ?_, ?_, ?_⟩
  · exact Record.getD_of_dropped _ (hget "primary" (by decide)) (asNamed?_name _) _
  · exact Record.require_of_dropped (hget "privateHost" (by decide)) rfl
  · exact Record.require_of_dropped (hget "privatePort" (by decide)) (Json.asUInt16?_nat _)
  · exact Record.getD_of_dropped _ (hget "privateRelay" (by decide)) (Json.asUInt16?_nat _) _
  · exact Record.require_of_dropped (hget "publicHost" (by decide)) rfl
  · exact Record.require_of_dropped (hget "publicPort" (by decide)) (Json.asUInt16?_nat _)
  · exact Record.getD_of_dropped _ (hget "publicRelay" (by decide)) (Json.asUInt16?_nat _) _
  · apply getD_identity
    rw [hget "imei" (by decide)]
    cases config.identity <;> rfl

theorem roundTrips : codec.RoundTrips := by
  apply Codec.RoundTrips.of_read
  · intro config name hname
    have hnames : config.toJson.names.Sublist fields := by
      cases hidentity : config.identity <;> simp [toJson, Json.names, hidentity, fields]
    have hall : ∀ name ∈ fields, name ∈ codec.required ∨ name ∈ codec.optional := by decide
    exact hall name (hnames.subset hname)
  · intro config
    have hport : ∀ port : UInt16, (Json.nat port.toNat).Plain :=
      fun port => Json.plain_nat (port.toNat_lt_size.trans (by decide))
    apply Json.Plain.object
    cases config.identity <;> simp [Json.Plain.string, hport]
  · intro config
    simp [codec]
  · intro config dropped hkept
    obtain ⟨record, hrecord, hprimary, hprivateHost, hprivatePort, hprivateRelay, hpublicHost,
      hpublicPort, hpublicRelay, hidentity⟩ := exists_record?_without config dropped
    rw [if_neg (hkept "privateHost" (by decide))] at hprivateHost
    rw [if_neg (hkept "privatePort" (by decide))] at hprivatePort
    rw [if_neg (hkept "publicHost" (by decide))] at hpublicHost
    rw [if_neg (hkept "publicPort" (by decide))] at hpublicPort
    exact ofJson?_eq_some_iff.mpr ⟨record, hrecord, hprimary, hprivateHost, hprivatePort,
      hprivateRelay, hpublicHost, hpublicPort, hpublicRelay, hidentity⟩
  · intro config dropped name hname hdropped
    obtain ⟨record, hrecord, -, hprivateHost, hprivatePort, -, hpublicHost, hpublicPort, -⟩ :=
      exists_record?_without config dropped
    rw [Option.eq_none_iff_forall_ne_some]
    intro found hfound
    obtain ⟨record', hrecord', -, hprivateHost', hprivatePort', -, hpublicHost', hpublicPort', -⟩ :=
      ofJson?_eq_some_iff.mp hfound
    obtain rfl := Option.some.inj (hrecord.symm.trans hrecord')
    simp only [codec, List.mem_cons, List.not_mem_nil, or_false] at hname
    rcases hname with rfl | rfl | rfl | rfl
    · exact Record.not_mem_of_require hprivateHost hprivateHost' hdropped
    · exact Record.not_mem_of_require hprivatePort hprivatePort' hdropped
    · exact Record.not_mem_of_require hpublicHost hpublicHost' hdropped
    · exact Record.not_mem_of_require hpublicPort hpublicPort' hdropped

end Relay.Config

/-- Every configuration is read back from what is left of it. -/
theorem configurations_roundTrip :
    RetryPolicy.codec.RoundTrips ∧ Relay.Binding.codec.RoundTrips ∧
      Modem.Config.codec.RoundTrips ∧ Route.Config.codec.RoundTrips ∧
      Relay.Config.codec.RoundTrips ∧ Link.Framing.codec.RoundTrips ∧
      Device.Serial.codec.RoundTrips ∧ Device.Telnet.codec.RoundTrips :=
  ⟨RetryPolicy.roundTrips, Relay.Binding.roundTrips, Modem.Config.roundTrips,
    Route.Config.roundTrips, Relay.Config.roundTrips, Link.Framing.roundTrips,
    Device.Serial.roundTrips, Device.Telnet.roundTrips⟩

end Uplink
