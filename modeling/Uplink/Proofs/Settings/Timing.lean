import Uplink.Proofs.Gateway.Launch
import Uplink.Proofs.Settings.Fields
import Uplink.Proofs.Settings.Overlay
import Uplink.Settings.Reader

/-!
# Where an interval is set

The interval of the route, and that of the modem, is a number in the settings, and may be given under
a key of the hash.  The settings take every whole number of 64 bits without sign.  The hash takes the
lower half of them only: it reads a number with sign before it falls back to a floating-point number,
which is no interval.
-/

namespace Uplink

/-! ## Records that differ in a field -/

namespace Record

variable {σ α : Type} {record record' : Record σ} {field name : String} {value : σ}

/-- One record says what another one says, but for one field. -/
structure Puts (field : String) (value : σ) (record record' : Record σ) : Prop where
  here : record'.get? field = some value
  others : ∀ name, name ≠ field → record'.get? name = record.get? name

theorem Puts.single (field : String) (value : σ) : Puts field value ⟨[]⟩ ⟨[(field, value)]⟩ where
  here := by simp [get?]
  others name hne := by simp [get?, List.lookup_cons, beq_false_of_ne hne]

/-- The record of a part, which has no fields where the part is missing. -/
def part? [Document σ] (record : Record σ) (part : String) (fields : List String) :
    Option (Record σ) :=
  (record.get? part).elim (some ⟨[]⟩) (Document.record? fields)

theorem Puts.getD_here (h : Puts field value record record') (default : α) (read : σ → Option α) :
    record'.getD field default read = read value := by
  rw [getD, h.here]

theorem Puts.getD_other (h : Puts field value record record') (hne : name ≠ field) (default : α)
    (read : σ → Option α) : record'.getD name default read = record.getD name default read := by
  rw [getD, getD, h.others name hne]

end Record

/-! ## Numbers in a file -/

namespace Yaml

variable {n : ℕ}

theorem Value.decimal?_toDigits (h : n < UInt64.size) :
    Value.decimal? (Nat.toDigits 10 n) = some n := by
  have hsigned : Value.isSigned (Nat.toDigits 10 n) = false := by
    obtain ⟨c, tail, hdigits, hdigit⟩ := Text.toDigits_eq_cons n
    have hplus := Text.ne_of_isDigit (d := '+') hdigit (by decide)
    have hminus := Text.ne_of_isDigit (d := '-') hdigit (by decide)
    rw [hdigits]
    simp [Value.isSigned, hplus, hminus]
  have hzero : 1 < (Nat.toDigits 10 n).length → (Nat.toDigits 10 n).head? ≠ some '0' :=
    fun hlength => Text.head?_toDigits_of_length (by omega)
  rw [Value.decimal?, hsigned, if_neg (by simpa using hzero), Text.unsigned?_toDigits h]

/-- A text of digits has no sign and no mark for a base. -/
theorem Value.countOf?_of_isDigit {text : String} (h : ∀ c ∈ text.toList, c.isDigit = true) :
    Value.countOf? text = Value.decimal? text.toList := by
  have hplus : ∀ rest, text.toList ≠ '+' :: rest := by
    intro rest heq
    have hsign := h '+' (by simp [heq])
    exact absurd hsign (by decide)
  have hmark : ∀ mark, mark.isDigit = false → ∀ rest, text.toList ≠ '0' :: mark :: rest := by
    intro mark hno rest heq
    have hyes := h mark (by simp [heq])
    rw [hno] at hyes
    contradiction
  -- `hplus` decides the match for the sign, and the others that for the mark
  simp [Value.countOf?, hmark 'x' (by decide), hmark 'o' (by decide), hmark 'b' (by decide)]

/-- A whole number of 64 bits is read from its digits. -/
theorem Value.count?_of_plain {value : Value} {tag : Option String} (h : n < UInt64.size)
    (hvalue : value.resolve = .scalar (toString n) .plain tag) :
    value.count? = some (UInt64.ofNat n) := by
  have hdigits : (toString n).toList = Nat.toDigits 10 n := by
    rw [Nat.toString_eq_repr, Nat.toList_repr]
  have hread : Value.countOf? (toString n) = some n := by
    rw [Value.countOf?_of_isDigit, hdigits, Value.decimal?_toDigits h]
    rw [hdigits]
    exact fun c => Text.isDigit_of_mem_toDigits
  simp only [Value.count?, hvalue, hread, Option.map_some]

end Yaml

/-! ## The two intervals -/

/-- The interval in which a component looks again. -/
inductive Timing where
  | route
  | signal

namespace Timing

/-- The key of the hash. -/
def key : Timing → String
  | route => "ppp:route-interval"
  | signal => "modem:rssi-interval"

/-- The part of the settings. -/
def part : Timing → String
  | route => "ppp"
  | signal => "modem"

/-- The fields of the part. -/
def fields : Timing → List String
  | route => ["subnet", "mask", "interface", "routeInterval"]
  | signal => ["reportFile", "commandFile", "rssiInterval"]

/-- The field of the part. -/
def field : Timing → String
  | route => "routeInterval"
  | signal => "rssiInterval"

/-- The settings with another interval. -/
def set : Timing → Settings → UInt64 → Settings
  | route, settings, interval => { settings with route := { settings.route with interval } }
  | signal, settings, interval =>
    { settings with modem := { settings.modem with signalInterval := interval } }

/-- The interval that is used for a hash. -/
def interval : Timing → Settings → Keyed String → Except Failure UInt64
  | route, settings, hash => (settings.routeConfig hash).map fun config => config.interval
  | signal, settings, hash => (settings.modemConfig hash).map fun config => config.signalInterval

/-- One document says what another one says, but that the interval is a number. -/
def Written (timing : Timing) (n : ℕ) (document document' : Yaml.Value) : Prop :=
  ∃ record record' part old new value,
    Document.record? Settings.parts document = some record ∧
    Document.record? Settings.parts document' = some record' ∧
    record.Puts timing.part part record' ∧
    record.part? timing.part timing.fields = some old ∧
    Document.record? timing.fields part = some new ∧
    old.Puts timing.field value new ∧
    Yaml.Value.resolve value = .scalar (toString n) .plain none

variable {timing : Timing} {n : ℕ} {settings : Settings} {document document' : Yaml.Value}
  {hash : Keyed String}

/-- The part of the route with another interval. -/
theorem ofDocument?_of_routeWritten {record old new : Record Yaml.Value}
    {part value : Yaml.Value} {config : Route.Config} {interval : UInt64}
    (hconfig : record.getD "ppp" {} Route.Config.ofDocument? = some config)
    (hbefore : record.part? "ppp" route.fields = some old)
    (hafter : Document.record? route.fields part = some new)
    (hputs : old.Puts "routeInterval" value new)
    (hvalue : Document.count? value = some interval) :
    Route.Config.ofDocument? part = some { config with interval } := by
  have hothers : old.getD "subnet" "172.29.12.0" Document.text? = some config.subnet ∧
      old.getD "mask" "255.255.255.0" Document.text? = some config.mask ∧
      old.getD "interface" "ppp0" Document.text? = some config.interface := by
    cases hget : record.get? "ppp" with
    | none =>
        rw [Record.getD, hget] at hconfig
        rw [Record.part?, hget] at hbefore
        cases hconfig
        cases hbefore
        exact ⟨rfl, rfl, rfl⟩
    | some given =>
        rw [Record.getD, hget] at hconfig
        rw [Record.part?, hget] at hbefore
        obtain ⟨found, hfound, hsubnet, hmask, hinterface, -⟩ :=
          Route.Config.ofDocument?_eq_some_iff.mp hconfig
        obtain rfl : found = old := Option.some.inj (hfound.symm.trans hbefore)
        exact ⟨hsubnet, hmask, hinterface⟩
  obtain ⟨hsubnet, hmask, hinterface⟩ := hothers
  apply Route.Config.ofDocument?_eq_some_iff.mpr
  refine ⟨new, hafter, ?_, ?_, ?_, ?_⟩
  · rw [hputs.getD_other (by decide), hsubnet]
  · rw [hputs.getD_other (by decide), hmask]
  · rw [hputs.getD_other (by decide), hinterface]
  · rw [hputs.getD_here, hvalue]

/-- The part of the modem with another interval. -/
theorem ofDocument?_of_signalWritten {record old new : Record Yaml.Value}
    {part value : Yaml.Value} {config : Modem.Config} {interval : UInt64}
    (hconfig : record.getD "modem" {} Modem.Config.ofDocument? = some config)
    (hbefore : record.part? "modem" signal.fields = some old)
    (hafter : Document.record? signal.fields part = some new)
    (hputs : old.Puts "rssiInterval" value new)
    (hvalue : Document.count? value = some interval) :
    Modem.Config.ofDocument? part = some { config with signalInterval := interval } := by
  have hothers : old.getD "reportFile" "/dev/ttyUSB2" Document.text? =
        some config.reportFile ∧
      old.getD "commandFile" "/dev/ttyUSB2" Document.text? = some config.commandFile := by
    cases hget : record.get? "modem" with
    | none =>
        rw [Record.getD, hget] at hconfig
        rw [Record.part?, hget] at hbefore
        cases hconfig
        cases hbefore
        exact ⟨rfl, rfl⟩
    | some given =>
        rw [Record.getD, hget] at hconfig
        rw [Record.part?, hget] at hbefore
        obtain ⟨found, hfound, hreport, hcommand, -⟩ :=
          Modem.Config.ofDocument?_eq_some_iff.mp hconfig
        obtain rfl : found = old := Option.some.inj (hfound.symm.trans hbefore)
        exact ⟨hreport, hcommand⟩
  obtain ⟨hreport, hcommand⟩ := hothers
  apply Modem.Config.ofDocument?_eq_some_iff.mpr
  refine ⟨new, hafter, ?_, ?_, ?_⟩
  · rw [hputs.getD_other (by decide), hreport]
  · rw [hputs.getD_other (by decide), hcommand]
  · rw [hputs.getD_here, hvalue]

/-- The settings take every whole number of 64 bits. -/
theorem ofDocument?_of_written (hn : n < UInt64.size)
    (hsettings : Settings.ofDocument? document = some settings)
    (hwritten : timing.Written n document document') :
    Settings.ofDocument? document' = some (timing.set settings (UInt64.ofNat n)) := by
  obtain ⟨record, record', part, old, new, value, hrecord, hrecord', hputs, hbefore,
    hafter, hfield, hvalue⟩ := hwritten
  obtain ⟨found, hfound, hkey, hcheckpoint, hwatcher, hmodem, hroute, hrelay⟩ :=
    Settings.ofDocument?_eq_some_iff.mp hsettings
  obtain rfl : found = record := Option.some.inj (hfound.symm.trans hrecord)
  have hcount : Document.count? value = some (UInt64.ofNat n) :=
    Yaml.Value.count?_of_plain hn hvalue
  apply Settings.ofDocument?_eq_some_iff.mpr
  -- only the part with the interval is read anew
  cases timing with
  | route =>
      have hputs : found.Puts "ppp" part record' := hputs
      have hpart := ofDocument?_of_routeWritten hroute hbefore hafter hfield hcount
      refine ⟨record', hrecord', ?_, ?_, ?_, ?_, ?_, ?_⟩
      · exact (hputs.getD_other (by decide) _ _).trans hkey
      · exact (hputs.getD_other (by decide) _ _).trans hcheckpoint
      · exact (hputs.getD_other (by decide) _ _).trans hwatcher
      · exact (hputs.getD_other (by decide) _ _).trans hmodem
      · exact (hputs.getD_here _ _).trans hpart
      · exact (hputs.getD_other (by decide) _ _).trans hrelay
  | signal =>
      have hputs : found.Puts "modem" part record' := hputs
      have hpart := ofDocument?_of_signalWritten hmodem hbefore hafter hfield hcount
      refine ⟨record', hrecord', ?_, ?_, ?_, ?_, ?_, ?_⟩
      · exact (hputs.getD_other (by decide) _ _).trans hkey
      · exact (hputs.getD_other (by decide) _ _).trans hcheckpoint
      · exact (hputs.getD_other (by decide) _ _).trans hwatcher
      · exact (hputs.getD_here _ _).trans hpart
      · exact (hputs.getD_other (by decide) _ _).trans hroute
      · exact (hputs.getD_other (by decide) _ _).trans hrelay

/-! ## Numbers in the hash -/

/-- The text of a field is read as an interval. -/
def Reads (text : String) (interval : UInt64) : Prop :=
  ∃ json, (∀ key, (FieldSpec.number key).convert text = .ok json) ∧
    json.asUInt64? = some interval

theorem reads_of_lt (hn : n < 2 ^ 63) : Reads (toString n) (UInt64.ofNat n) := by
  refine ⟨.nat n, ?_, ?_⟩
  · intro key
    rw [FieldSpec.convert, FieldSpec.trimChars_toString, FieldSpec.parseNumber?_toDigits hn]
    rfl
  · have hsize : n < UInt64.size := by
      have hbound : UInt64.size = 2 ^ 64 := rfl
      omega
    rw [Json.asUInt64?, Json.asNat?_nat hsize, Option.map_some]

theorem not_reads_of_le (hn : 2 ^ 63 ≤ n) {key : String} {json : Json}
    (hconvert : (FieldSpec.number key).convert (toString n) = .ok json) :
    json.asUInt64? = none := by
  rw [FieldSpec.convert, FieldSpec.trimChars_toString, FieldSpec.parseNumber?_toDigits_of_le hn]
    at hconvert
  cases hfloat : Text.decimal? (Nat.toDigits 10 n) with
  | none =>
      rw [hfloat] at hconvert
      cases hconvert
  | some x =>
      rw [hfloat] at hconvert
      cases hconvert
      rfl

theorem value_insert {key text : String} :
    (FieldSpec.number key).value (hash.insert key text) =
      ((FieldSpec.number key).convert text).map some :=
  FieldSpec.value_of_some (Keyed.find?_insert_self key text hash)

theorem value_insert_of_ne {key other : String} (hne : key ≠ other) (text : String) :
    (FieldSpec.number key).value (hash.insert other text) = (FieldSpec.number key).value hash :=
  FieldSpec.value_congr (Keyed.find?_insert_of_ne hne text hash)

theorem value_erase (key : String) (hash : Keyed String) :
    (FieldSpec.number key).value (hash.erase key) = .ok none :=
  FieldSpec.value_of_none (Keyed.find?_erase_self key hash)

theorem value_erase_of_ne {key other : String} (hne : key ≠ other) :
    (FieldSpec.number key).value (hash.erase other) = (FieldSpec.number key).value hash :=
  FieldSpec.value_congr (Keyed.find?_erase_of_ne hne hash)

section

variable {text : String} {interval : UInt64} (htext : Reads text interval)

include htext

/-- What is read as an interval makes the same route as this interval in the settings. -/
theorem routeConfig_iff {config : Route.Config} :
    settings.routeConfig (hash.insert timing.key text) = .ok config ↔
      (timing.set settings interval).routeConfig (hash.erase timing.key) = .ok config := by
  obtain ⟨json, hconvert, hread⟩ := htext
  rw [Settings.routeConfig_eq_ok_iff, Settings.routeConfig_eq_ok_iff]
  cases timing with
  | route =>
      rw [key, value_insert, hconvert, value_erase]
      simp [Except.map, set, hread, Keyed.find?_insert, Keyed.find?_erase]
  | signal =>
      simp [key, set, value_insert_of_ne, value_erase_of_ne, Keyed.find?_insert,
        Keyed.find?_erase]

/-- What is read as an interval makes the same modem as this interval in the settings. -/
theorem modemConfig_iff {config : Modem.Config} :
    settings.modemConfig (hash.insert timing.key text) = .ok config ↔
      (timing.set settings interval).modemConfig (hash.erase timing.key) = .ok config := by
  obtain ⟨json, hconvert, hread⟩ := htext
  rw [Settings.modemConfig_eq_ok_iff, Settings.modemConfig_eq_ok_iff]
  cases timing with
  | route =>
      simp [key, set, value_insert_of_ne, value_erase_of_ne, Keyed.find?_insert,
        Keyed.find?_erase]
  | signal =>
      rw [key, value_insert, hconvert, value_erase]
      simp [Except.map, set, hread, Keyed.find?_insert, Keyed.find?_erase]

end

/-- A number of the upper half is refused in the hash. -/
theorem interval_insert_of_le (timing : Timing) (hn : 2 ^ 63 ≤ n) (settings : Settings)
    (hash : Keyed String) :
    ∃ failure, timing.interval settings (hash.insert timing.key (toString n)) = .error failure := by
  cases hinterval : timing.interval settings (hash.insert timing.key (toString n)) with
  | error failure => exact ⟨failure, rfl⟩
  | ok found =>
      exfalso
      cases timing with
      | route =>
          obtain ⟨config, hconfig, -⟩ := Failure.ok_of_map hinterval
          obtain ⟨found, interval, hvalue, hread, -⟩ := Settings.routeConfig_eq_ok_iff.mp hconfig
          obtain ⟨json, hconvert, rfl⟩ := Failure.ok_of_map (value_insert.symm.trans hvalue)
          cases (not_reads_of_le hn hconvert).symm.trans hread
      | signal =>
          obtain ⟨config, hconfig, -⟩ := Failure.ok_of_map hinterval
          obtain ⟨found, interval, hvalue, hread, -⟩ := Settings.modemConfig_eq_ok_iff.mp hconfig
          obtain ⟨json, hconvert, rfl⟩ := Failure.ok_of_map (value_insert.symm.trans hvalue)
          cases (not_reads_of_le hn hconvert).symm.trans hread

/-- Without its key the hash leaves the interval of the settings. -/
theorem interval_erase (settings : Settings) (given : UInt64) (hash : Keyed String) :
    timing.interval (timing.set settings given) (hash.erase timing.key) = .ok given := by
  cases timing with
  | route =>
      have hconfig : ∃ config, (route.set settings given).routeConfig (hash.erase route.key) =
          .ok config ∧ config.interval = given :=
        ⟨_, Settings.routeConfig_eq_ok_iff.mpr ⟨none, _, value_erase _ hash, rfl, rfl⟩, rfl⟩
      obtain ⟨config, hconfig, rfl⟩ := hconfig
      rw [interval, hconfig]
      rfl
  | signal =>
      have hconfig : ∃ config, (signal.set settings given).modemConfig (hash.erase signal.key) =
          .ok config ∧ config.signalInterval = given :=
        ⟨_, Settings.modemConfig_eq_ok_iff.mpr ⟨none, _, value_erase _ hash, rfl, rfl⟩, rfl⟩
      obtain ⟨config, hconfig, rfl⟩ := hconfig
      rw [interval, hconfig]
      rfl

end Timing

/-! ## Bringing a gateway up -/

namespace Gateway

/-- The hash with the configuration is read. -/
def Finds (g : Gateway) (hash : Keyed String) : Prop :=
  (g.store.readHash g.settings.configKey).1 = .ok hash

section

variable {g : Gateway} {hash : Keyed String} {fields : List (String × Json)} {plan : Plan}

theorem plans_iff (h : g.Finds hash) :
    g.Plans fields plan ↔
      Relay.Config.ofJson? (.object fields) = some plan.relay ∧
        g.settings.routeConfig hash = .ok plan.route ∧
        g.settings.modemConfig hash = .ok plan.modem := by
  constructor
  · rintro ⟨hrelay, found, hfound, hroute, hmodem⟩
    obtain rfl : found = hash := Except.ok.inj (hfound.symm.trans h)
    exact ⟨hrelay, hroute, hmodem⟩
  · rintro ⟨hrelay, hroute, hmodem⟩
    exact ⟨hrelay, hash, h, hroute, hmodem⟩

/-- A plan has an interval for each component. -/
theorem Plans.interval (h : g.Finds hash) (hplan : g.Plans fields plan) (timing : Timing) :
    ∃ interval, timing.interval g.settings hash = .ok interval := by
  obtain ⟨-, hroute, hmodem⟩ := (plans_iff h).mp hplan
  cases timing with
  | route => exact ⟨plan.route.interval, by rw [Timing.interval, hroute]; rfl⟩
  | signal => exact ⟨plan.modem.signalInterval, by rw [Timing.interval, hmodem]; rfl⟩

end

variable {timing : Timing} {n : ℕ} {document document' : Yaml.Value} {settings : Settings}
  {hash : Keyed String} {byHash byFile : Gateway}

/-- A number that is written in the settings is always taken.  Below the upper half of the whole
numbers of 64 bits it makes the same plans as the number under the key of the hash; a number of the
upper half makes none there. -/
theorem plans_of_written (hn : n < UInt64.size)
    (hsettings : Settings.ofDocument? document = some settings)
    (hwritten : timing.Written n document document')
    (hhash : byHash.settings = settings)
    (hfinds : byHash.Finds (hash.insert timing.key (toString n)))
    (hfile : byFile.settings = timing.set settings (UInt64.ofNat n))
    (hfinds' : byFile.Finds (hash.erase timing.key)) :
    Settings.ofDocument? document' = some byFile.settings ∧
      timing.interval byFile.settings (hash.erase timing.key) = .ok (UInt64.ofNat n) ∧
      (n < 2 ^ 63 → ∀ fields plan, byHash.Plans fields plan ↔ byFile.Plans fields plan) ∧
      (2 ^ 63 ≤ n →
        (∃ failure, timing.interval settings (hash.insert timing.key (toString n)) =
          .error failure) ∧
        ∀ fields plan, ¬ byHash.Plans fields plan) := by
  subst hhash
  refine ⟨?_, ?_, ?_, ?_⟩
  · rw [hfile]
    exact Timing.ofDocument?_of_written hn hsettings hwritten
  · rw [hfile]
    exact Timing.interval_erase _ _ _
  · intro hlower fields plan
    have htext := Timing.reads_of_lt hlower
    rw [plans_iff hfinds, plans_iff hfinds', hfile, Timing.routeConfig_iff htext,
      Timing.modemConfig_iff htext]
  · intro hupper
    obtain ⟨failure, hfailure⟩ :=
      timing.interval_insert_of_le hupper byHash.settings hash
    refine ⟨⟨failure, hfailure⟩, ?_⟩
    intro fields plan hplan
    obtain ⟨interval, hinterval⟩ := hplan.interval hfinds timing
    rw [hfailure] at hinterval
    cases hinterval

/-- A gateway with the given settings and hash. -/
def timed (settings : Settings) (hash : Keyed String) : Gateway :=
  .of settings { contents := [(Store.configKey, .hash hash)] } {} .isolated none

/-- The file with nothing but an interval of the route. -/
def timedFile (text : String) : Yaml.Node :=
  .mapping [(.scalar "ppp" .plain none,
    .mapping [(.scalar "routeInterval" .plain none, .scalar text .plain none)])]

theorem plans_of_written_nineThousand :
    Settings.ofDocument? ({ node := timedFile "9000" } : Yaml.Value) =
        some (Timing.route.set {} 9000) ∧
      ∀ fields plan, (timed {} [("ppp:route-interval", "9000")]).Plans fields plan ↔
        (timed (Timing.route.set {} 9000) []).Plans fields plan := by
  have hwritten : Timing.route.Written 9000 { node := .empty none }
      { node := timedFile "9000" } :=
    ⟨⟨[]⟩, ⟨[("ppp", _)]⟩, _, ⟨[]⟩, ⟨[("routeInterval", _)]⟩, _, rfl, rfl, .single _ _, rfl, rfl,
      .single _ _, rfl⟩
  obtain ⟨hread, -, hplans, -⟩ := @plans_of_written .route 9000 { node := .empty none }
    { node := timedFile "9000" } {} [] (timed {} [("ppp:route-interval", "9000")])
    (timed (Timing.route.set {} 9000) []) (by decide) rfl hwritten rfl rfl rfl rfl
  exact ⟨hread, hplans (by decide)⟩

/-- The hosts and ports of a relay. -/
def hostFields : List (String × Json) :=
  [("privateHost", .string "127.0.0.1"), ("privatePort", .nat 3011),
    ("publicHost", .string "127.0.0.1"), ("publicPort", .nat 3012)]

/-- The first number of the upper half brings a gateway up from the settings, and not from the
hash. -/
theorem refused_in_hash :
    (Settings.ofYaml "ppp: {routeInterval: 9223372036854775808}").toOption =
        some (Timing.route.set {} 9223372036854775808) ∧
      ((timed (Timing.route.set {} 9223372036854775808) []).bringUp hostFields).1 = .ok () ∧
      ((timed {} [("ppp:route-interval", "9223372036854775808")]).bringUp hostFields).1 =
        .error (.config "the fields do not make a configuration") := by
  refine ⟨?_, ?_, ?_⟩
  · decide +kernel
  · decide +kernel
  · decide +kernel

end Gateway
end Uplink
