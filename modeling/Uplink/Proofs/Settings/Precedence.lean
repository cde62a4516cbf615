import Uplink.Proofs.Settings.Overlay
import Uplink.Proofs.Template.Conversion

/-!
# What the hash says before the settings

The configuration of the route and that of the modem have, in each field, the value of the hash, and
where the key is missing the one of the settings.  Only the interval can be refused: it has to be the
numeral of a whole number without sign of 63 bits.
-/

namespace Uplink
namespace Settings

variable {settings : Settings} {hash : Keyed String} {key raw : String} {held : Option String}
  {base interval : UInt64} {text : List Char} {n : ℤ}

/-! ## Intervals -/

/-- The numeral of a whole number that an interval can be. -/
def Counts (raw : String) (n : ℕ) : Prop :=
  ∃ text, Text.Trimmed raw.toList text ∧ Text.Signed 10 text n ∧ n < 2 ^ 63

/-- An interval that is held in the hash, or else the one of the settings. -/
inductive Interval (base : UInt64) : Option String → UInt64 → Prop where
  | absent : Interval base none base
  | held {raw : String} {interval : UInt64} : Counts raw interval.toNat →
      Interval base (some raw) interval

/-- A text that can be no interval: a negative number, a number that is no whole number, or no number
at all. -/
inductive Unfit : List Char → Prop where
  | negative {text : List Char} {digits : ℕ} {exponent : ℤ} :
      Text.Decimal text true digits exponent → 0 < digits → Unfit text
  | fractional {text : List Char} {negative : Bool} {digits : ℕ} {exponent : ℤ} :
      Text.Decimal text negative digits exponent → (∀ n : ℤ, (digits : ℚ) * 10 ^ exponent ≠ n) →
      Unfit text
  | other {text : List Char} :
      (∀ negative digits exponent, ¬ Text.Decimal text negative digits exponent) → Unfit text

theorem interval_iff : (∃ found, (FieldSpec.number key).value hash = .ok found ∧
    found.elim (some base) Json.asUInt64? = some interval) ↔
      Interval base (hash.find? key) interval := by
  cases hfind : hash.find? key with
  | none =>
      rw [FieldSpec.value_of_none hfind]
      constructor
      · rintro ⟨_, ⟨⟩, ⟨⟩⟩
        exact .absent
      · rintro ⟨⟩
        exact ⟨none, rfl, rfl⟩
  | some raw =>
      rw [FieldSpec.value_of_some hfind]
      constructor
      · rintro ⟨found, hfound, hcount⟩
        obtain ⟨json, hjson, rfl⟩ := Failure.ok_of_map hfound
        cases FieldSpec.convert_eq_ok_iff.mp hjson with
        | whole htrimmed hwhole =>
            obtain rfl := Json.asUInt64?_int_iff.mp hcount
            obtain ⟨hsigned, -, hlt⟩ := hwhole
            have hcounts : Counts raw interval.toNat := ⟨_, htrimmed, hsigned, by omega⟩
            exact .held hcounts
        | decimal => cases hcount
      · rintro (_ | ⟨text, htrimmed, hsigned, hlt⟩)
        have hwhole : FieldSpec.IsWhole text interval.toNat := ⟨hsigned, by omega, by omega⟩
        have hconvert : (FieldSpec.number key).convert raw = .ok (.nat interval.toNat) :=
          FieldSpec.convert_eq_ok_iff.mpr (.whole htrimmed hwhole)
        refine ⟨some (.nat interval.toNat), by rw [hconvert]; rfl, ?_⟩
        rw [Option.elim_some, Json.asUInt64?_nat]

theorem exists_interval_iff : (∃ interval, Interval base held interval) ↔
    ∀ raw ∈ held, ∃ n, Counts raw n := by
  cases held with
  | none => exact iff_of_true ⟨base, .absent⟩ nofun
  | some raw =>
      constructor
      · rintro ⟨_, ⟨⟩ | ⟨hcounts⟩⟩ _ ⟨⟩
        exact ⟨_, hcounts⟩
      · intro h
        obtain ⟨n, hcounts⟩ := h raw rfl
        have hsize : n < 2 ^ 64 := by
          obtain ⟨-, -, -, hlt⟩ := hcounts
          omega
        refine ⟨UInt64.ofNat n, .held ?_⟩
        rwa [UInt64.toNat_ofNat_of_lt' hsize]

theorem Unfit.not_counts (htrimmed : Text.Trimmed raw.toList text) (h : Unfit text) :
    ¬ ∃ n, Counts raw n := by
  rintro ⟨n, text', htrimmed', hsigned, -⟩
  obtain rfl : text = text' :=
    (Text.trimChars_eq_iff.mpr htrimmed).symm.trans (Text.trimChars_eq_iff.mpr htrimmed')
  cases h with
  | negative hdecimal hpos =>
      have hvalue := (hdecimal.eq_of_signed hsigned).1
      rw [if_pos rfl] at hvalue
      omega
  | fractional hdecimal hfraction =>
      obtain ⟨-, rfl⟩ := hdecimal.eq_of_signed hsigned
      exact hfraction _ (by rw [zpow_zero, mul_one, Int.cast_natCast])
  | other hnone =>
      obtain ⟨negative, digits, hdecimal⟩ := hsigned.exists_decimal
      exact hnone negative digits 0 hdecimal

/-! ## Failures -/

theorem overlay_eq_error {α : Type} {base : Json} {template : Template} {read : Json → Option α}
    {failure : Failure} (h : overlay base template read hash = .error failure) :
    ∃ reason, failure = .config reason := by
  rw [overlay] at h
  cases hconfig : template.toConfig hash with
  | error other =>
      rw [hconfig] at h
      obtain rfl : other = failure := Except.error.inj h
      rw [Template.toConfig, Failure.map_eq_error_iff, Failure.mapM_eq_error_iff] at hconfig
      obtain ⟨-, field, -, -, -, hentry⟩ := hconfig
      obtain ⟨raw, -, rfl⟩ :=
        FieldSpec.value_eq_error_iff.mp (Failure.map_eq_error_iff.mp hentry)
      exact ⟨_, rfl⟩
  | ok fields =>
      rw [hconfig] at h
      simp only [Except.bind] at h
      split at h
      · cases h
      · exact ⟨_, (Except.error.inj h).symm⟩

/-- Only the interval decides whether there is a configuration, and what can be none is refused. -/
structure DecidedBy {α : Type} (held : Option String) (outcome : Except Failure α) : Prop where
  succeeds_iff : (∃ config, outcome = .ok config) ↔ ∀ raw ∈ held, ∃ n, Counts raw n
  refuses : ∀ raw text, held = some raw → Text.Trimmed raw.toList text → Unfit text →
    ∃ reason, outcome = .error (.config reason)

theorem DecidedBy.of_interval {α : Type} {outcome : Except Failure α} (base : UInt64)
    (hok : (∃ config, outcome = .ok config) ↔ ∃ interval, Interval base held interval)
    (hfailure : ∀ failure, outcome = .error failure → ∃ reason, failure = .config reason) :
    DecidedBy held outcome := by
  have hsucceeds := hok.trans exists_interval_iff
  refine ⟨hsucceeds, fun raw text hheld htrimmed hunfit => ?_⟩
  cases houtcome : outcome with
  | error failure =>
      obtain ⟨reason, rfl⟩ := hfailure failure houtcome
      exact ⟨reason, rfl⟩
  | ok config => exact absurd (hsucceeds.mp ⟨config, houtcome⟩ raw hheld) (hunfit.not_counts htrimmed)

/-! ## Both configurations -/

section

variable (settings : Settings) (hash : Keyed String)

theorem routeConfig_takes (config : Route.Config) : settings.routeConfig hash = .ok config ↔
    config.subnet = (hash.find? "ppp:subnet").getD settings.route.subnet ∧
      config.mask = (hash.find? "ppp:mask").getD settings.route.mask ∧
      config.interface = (hash.find? "ppp:interface").getD settings.route.interface ∧
      Interval settings.route.interval (hash.find? "ppp:route-interval") config.interval := by
  rw [routeConfig_eq_ok_iff]
  constructor
  · rintro ⟨found, interval, hfound, hcount, rfl⟩
    exact ⟨rfl, rfl, rfl, interval_iff.mp ⟨found, hfound, hcount⟩⟩
  · rintro ⟨hsubnet, hmask, hinterface, hinterval⟩
    obtain ⟨found, hfound, hcount⟩ := interval_iff.mpr hinterval
    refine ⟨found, config.interval, hfound, hcount, ?_⟩
    rw [← hsubnet, ← hmask, ← hinterface]

theorem modemConfig_takes (config : Modem.Config) : settings.modemConfig hash = .ok config ↔
    config.reportFile = (hash.find? "modem:report-file").getD settings.modem.reportFile ∧
      config.commandFile = (hash.find? "modem:command-file").getD settings.modem.commandFile ∧
      Interval settings.modem.signalInterval (hash.find? "modem:rssi-interval")
        config.signalInterval := by
  rw [modemConfig_eq_ok_iff]
  constructor
  · rintro ⟨found, interval, hfound, hcount, rfl⟩
    exact ⟨rfl, rfl, interval_iff.mp ⟨found, hfound, hcount⟩⟩
  · rintro ⟨hreport, hcommand, hinterval⟩
    obtain ⟨found, hfound, hcount⟩ := interval_iff.mpr hinterval
    refine ⟨found, config.signalInterval, hfound, hcount, ?_⟩
    rw [← hreport, ← hcommand]

theorem routeConfig_decidedBy :
    DecidedBy (hash.find? "ppp:route-interval") (settings.routeConfig hash) := by
  refine .of_interval settings.route.interval ?_ fun failure => overlay_eq_error
  simp only [routeConfig_takes]
  constructor
  · rintro ⟨config, -, -, -, hinterval⟩
    exact ⟨config.interval, hinterval⟩
  · rintro ⟨interval, hinterval⟩
    exact ⟨⟨_, _, _, interval⟩, rfl, rfl, rfl, hinterval⟩

theorem modemConfig_decidedBy :
    DecidedBy (hash.find? "modem:rssi-interval") (settings.modemConfig hash) := by
  refine .of_interval settings.modem.signalInterval ?_ fun failure => overlay_eq_error
  simp only [modemConfig_takes]
  constructor
  · rintro ⟨config, -, -, hinterval⟩
    exact ⟨config.signalInterval, hinterval⟩
  · rintro ⟨interval, hinterval⟩
    exact ⟨⟨_, _, interval⟩, rfl, rfl, hinterval⟩

/-- The hash comes before the settings in every field of both configurations. -/
theorem hash_precedes_settings :
    ((∀ config, settings.routeConfig hash = .ok config ↔
        config.subnet = (hash.find? "ppp:subnet").getD settings.route.subnet ∧
          config.mask = (hash.find? "ppp:mask").getD settings.route.mask ∧
          config.interface = (hash.find? "ppp:interface").getD settings.route.interface ∧
          Interval settings.route.interval (hash.find? "ppp:route-interval") config.interval) ∧
      DecidedBy (hash.find? "ppp:route-interval") (settings.routeConfig hash) ∧
      ((∀ field ∈ Route.Config.template.fields, hash.find? field.2.key = none) →
        settings.routeConfig hash = .ok settings.route)) ∧
    ((∀ config, settings.modemConfig hash = .ok config ↔
        config.reportFile = (hash.find? "modem:report-file").getD settings.modem.reportFile ∧
          config.commandFile = (hash.find? "modem:command-file").getD settings.modem.commandFile ∧
          Interval settings.modem.signalInterval (hash.find? "modem:rssi-interval")
            config.signalInterval) ∧
      DecidedBy (hash.find? "modem:rssi-interval") (settings.modemConfig hash) ∧
      ((∀ field ∈ Modem.Config.template.fields, hash.find? field.2.key = none) →
        settings.modemConfig hash = .ok settings.modem)) := by
  refine ⟨⟨routeConfig_takes settings hash, routeConfig_decidedBy settings hash, ?_⟩,
    modemConfig_takes settings hash, modemConfig_decidedBy settings hash, ?_⟩
  · intro hnone
    simp only [fields_routeTemplate, List.forall_mem_cons] at hnone
    obtain ⟨hinterface, hmask, hinterval, hsubnet, -⟩ := hnone
    rw [routeConfig_takes]
    simp only [FieldSpec.string, FieldSpec.number] at hinterface hmask hinterval hsubnet
    rw [hinterface, hmask, hinterval, hsubnet]
    exact ⟨rfl, rfl, rfl, .absent⟩
  · intro hnone
    simp only [fields_modemTemplate, List.forall_mem_cons] at hnone
    obtain ⟨hcommand, hreport, hinterval, -⟩ := hnone
    rw [modemConfig_takes]
    simp only [FieldSpec.string, FieldSpec.number] at hcommand hreport hinterval
    rw [hcommand, hreport, hinterval]
    exact ⟨rfl, rfl, .absent⟩

end

end Settings
end Uplink
