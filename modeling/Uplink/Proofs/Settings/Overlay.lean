import Uplink.Proofs.Json.Value
import Uplink.Proofs.Template
import Uplink.Settings

/-!
# Configurations from the settings and a hash

A field of a configuration has the value of its key in the hash, and where the key is missing the one
of the settings.  A text is always taken, so that only the number can make a configuration fail.
-/

namespace Uplink

namespace Settings

variable {α : Type} {settings : Settings} {hash : Keyed String}

/-! ## Overlays -/

section

variable {template : Template} {base : Json} {members : List (String × Json)}
  {read : Json → Option α} {config : α}

theorem toConfig_of_overlay (h : overlay base template read hash = .ok config) :
    ∃ fields, template.toConfig hash = .ok fields ∧ read (base.overlay fields) = some config := by
  obtain ⟨fields, hfields, hread⟩ := Failure.ok_of_bind h
  refine ⟨fields, hfields, ?_⟩
  split at hread
  · rename_i found hfound
    rw [hfound, Except.ok.inj hread]
  · cases hread

/-- A value that cannot be converted makes the configuration fail. -/
theorem value_of_overlay (h : overlay base template read hash = .ok config) (name : String)
    (spec : FieldSpec) (hmem : (name, spec) ∈ template.fields) :
    ∃ found, spec.value hash = .ok found := by
  obtain ⟨fields, hfields, -⟩ := toConfig_of_overlay h
  obtain ⟨values, hvalues, -⟩ := Failure.ok_of_map hfields
  obtain ⟨entry, hentry⟩ := Failure.exists_of_mapM hvalues hmem
  obtain ⟨found, hfound, -⟩ := Failure.ok_of_map hentry
  exact ⟨found, hfound⟩

/-- Where every value can be converted, the configuration is read from a record with the values of
the keys and those of the settings under the others. -/
theorem exists_overlay (template : Template) (hash : Keyed String) (names : List String)
    (members : List (String × Json)) (read : Json → Option α) (hnodup : template.fields.keys.Nodup)
    (hvalues : ∀ field ∈ template.fields, ∃ found, field.2.value hash = .ok found) :
    ∃ json record, Json.record? names json = some record ∧
      (∀ config, overlay (.object members) template read hash = .ok config ↔
        read json = some config) ∧
      ∀ name spec found, (name, spec) ∈ template.fields → name ∈ names →
        spec.value hash = .ok found →
        record.get? name = found.or (members.reverse.lookup name) := by
  obtain ⟨fields, hfields⟩ := Template.exists_toConfig hvalues
  obtain ⟨record, hrecord, hget⟩ := Json.exists_record?_overlay names members fields
  refine ⟨(Json.object members).overlay fields, record, hrecord, ?_, ?_⟩
  · intro config
    cases hread : read ((Json.object members).overlay fields) <;>
      simp [overlay, hfields, Except.bind, hread]
  · intro name spec found hmem hname hfound
    have hvalue := Template.value_of_toConfig hfields hnodup hmem
    rw [hfound] at hvalue
    rw [hget name hname, Except.ok.inj hvalue]

end

/-! ## Fields of a record -/

section

variable {record : Record Json} {name : String}

/-- A text has the value of its key, or else the given one. -/
theorem getD_text {found : Option String} {given : String}
    (h : record.get? name = (found.map Json.string).or (some (.string given))) (value : String) :
    record.getD name value Json.asString? = some (found.getD given) := by
  cases found <;> simp [Record.getD, h, Json.asString?]

theorem getD_count {found : Option Json} {given : UInt64}
    (h : record.get? name = found.or (some (.nat given.toNat))) (value : UInt64) :
    record.getD name value Json.asUInt64? = found.elim (some given) Json.asUInt64? := by
  cases found <;> simp [Record.getD, h, Json.asUInt64?_nat]

end

/-! ## The route and the modem -/

theorem fields_routeTemplate :
    Route.Config.template.fields =
      [("interface", .string "ppp:interface"), ("mask", .string "ppp:mask"),
        ("routeInterval", .number "ppp:route-interval"), ("subnet", .string "ppp:subnet")] :=
  rfl

theorem fields_modemTemplate :
    Modem.Config.template.fields =
      [("commandFile", .string "modem:command-file"), ("reportFile", .string "modem:report-file"),
        ("rssiInterval", .number "modem:rssi-interval")] :=
  rfl

/-- The configuration of the route, of which only the interval can be refused. -/
theorem routeConfig_eq_ok_iff {config : Route.Config} :
    settings.routeConfig hash = .ok config ↔
      ∃ found interval, (FieldSpec.number "ppp:route-interval").value hash = .ok found ∧
        found.elim (some settings.route.interval) Json.asUInt64? = some interval ∧
        config =
          { subnet := (hash.find? "ppp:subnet").getD settings.route.subnet
            mask := (hash.find? "ppp:mask").getD settings.route.mask
            interface := (hash.find? "ppp:interface").getD settings.route.interface
            interval } := by
  by_cases hvalue : ∃ found, (FieldSpec.number "ppp:route-interval").value hash = .ok found
  · obtain ⟨found, hfound⟩ := hvalue
    obtain ⟨json, record, hrecord, hiff, hget⟩ := exists_overlay Route.Config.template hash
      ["subnet", "mask", "interface", "routeInterval"]
      [("subnet", .string settings.route.subnet), ("mask", .string settings.route.mask),
        ("interface", .string settings.route.interface),
        ("routeInterval", .nat settings.route.interval.toNat)]
      Route.Config.ofDocument? (by decide)
      (by simp [fields_routeTemplate, FieldSpec.value_string, hfound])
    have hsubnet := getD_text (hget "subnet" (.string "ppp:subnet") _
      (by simp [fields_routeTemplate]) (by decide) (FieldSpec.value_string _ _))
    have hmask := getD_text (hget "mask" (.string "ppp:mask") _
      (by simp [fields_routeTemplate]) (by decide) (FieldSpec.value_string _ _))
    have hinterface := getD_text (hget "interface" (.string "ppp:interface") _
      (by simp [fields_routeTemplate]) (by decide) (FieldSpec.value_string _ _))
    have hinterval := getD_count (hget "routeInterval" (.number "ppp:route-interval") _
      (by simp [fields_routeTemplate]) (by decide) hfound)
    have hread : Route.Config.ofDocument? json =
        (found.elim (some settings.route.interval) Json.asUInt64?).map fun interval =>
          { subnet := (hash.find? "ppp:subnet").getD settings.route.subnet
            mask := (hash.find? "ppp:mask").getD settings.route.mask
            interface := (hash.find? "ppp:interface").getD settings.route.interface
            interval } := by
      simp [Route.Config.ofDocument?, Document.record?, Document.text?, Document.count?, hrecord,
        hsubnet, hmask, hinterface, hinterval, Option.map_eq_bind]
    rw [routeConfig, Route.Config.toJson, hiff, hread, Option.map_eq_some_iff, hfound]
    simp [eq_comm]
  · constructor
    · intro h
      exact absurd (value_of_overlay h "routeInterval" (.number "ppp:route-interval")
        (by simp [fields_routeTemplate])) hvalue
    · rintro ⟨found, -, hfound, -⟩
      exact absurd ⟨found, hfound⟩ hvalue

/-- The configuration of the modem, of which only the interval can be refused. -/
theorem modemConfig_eq_ok_iff {config : Modem.Config} :
    settings.modemConfig hash = .ok config ↔
      ∃ found interval, (FieldSpec.number "modem:rssi-interval").value hash = .ok found ∧
        found.elim (some settings.modem.signalInterval) Json.asUInt64? = some interval ∧
        config =
          { reportFile := (hash.find? "modem:report-file").getD settings.modem.reportFile
            commandFile := (hash.find? "modem:command-file").getD settings.modem.commandFile
            signalInterval := interval } := by
  by_cases hvalue : ∃ found, (FieldSpec.number "modem:rssi-interval").value hash = .ok found
  · obtain ⟨found, hfound⟩ := hvalue
    obtain ⟨json, record, hrecord, hiff, hget⟩ := exists_overlay Modem.Config.template hash
      ["reportFile", "commandFile", "rssiInterval"]
      [("reportFile", .string settings.modem.reportFile),
        ("commandFile", .string settings.modem.commandFile),
        ("rssiInterval", .nat settings.modem.signalInterval.toNat)]
      Modem.Config.ofDocument? (by decide)
      (by simp [fields_modemTemplate, FieldSpec.value_string, hfound])
    have hreport := getD_text (hget "reportFile" (.string "modem:report-file") _
      (by simp [fields_modemTemplate]) (by decide) (FieldSpec.value_string _ _))
    have hcommand := getD_text (hget "commandFile" (.string "modem:command-file") _
      (by simp [fields_modemTemplate]) (by decide) (FieldSpec.value_string _ _))
    have hinterval := getD_count (hget "rssiInterval" (.number "modem:rssi-interval") _
      (by simp [fields_modemTemplate]) (by decide) hfound)
    have hread : Modem.Config.ofDocument? json =
        (found.elim (some settings.modem.signalInterval) Json.asUInt64?).map fun interval =>
          { reportFile := (hash.find? "modem:report-file").getD settings.modem.reportFile
            commandFile := (hash.find? "modem:command-file").getD settings.modem.commandFile
            signalInterval := interval } := by
      simp [Modem.Config.ofDocument?, Document.record?, Document.text?, Document.count?, hrecord,
        hreport, hcommand, hinterval, Option.map_eq_bind]
    rw [modemConfig, Modem.Config.toJson, hiff, hread, Option.map_eq_some_iff, hfound]
    simp [eq_comm]
  · constructor
    · intro h
      exact absurd (value_of_overlay h "rssiInterval" (.number "modem:rssi-interval")
        (by simp [fields_modemTemplate])) hvalue
    · rintro ⟨found, -, hfound, -⟩
      exact absurd ⟨found, hfound⟩ hvalue

end Settings
end Uplink
