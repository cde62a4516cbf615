import Mathlib.Data.List.Forall2
import Uplink.Proofs.Template
import Uplink.Proofs.Text.Decimal
import Uplink.Proofs.Text.Order

/-!
# The conversion of a hash

A conversion fails exactly if the key of a number holds something else, and then names the first such
field.  Otherwise the fields whose key is there have the values of their texts, those with a fallback
have it where the key is missing, and there are no others.  What the hash holds under other keys is of
no account.
-/

namespace Uplink

/-! ## Texts and their values -/

namespace FieldSpec

variable {spec : FieldSpec} {kind : FieldKind} {hash : Keyed String} {raw : String}
  {failure : Failure}

/-- A numeral of a whole number of 64 bits with sign. -/
def IsWhole (text : List Char) (n : ℤ) : Prop :=
  Text.Signed 10 text n ∧ -2 ^ 63 ≤ n ∧ n < 2 ^ 63

/-- A decimal number that is rounded to a finite one. -/
def IsFinite (text : List Char) (negative : Bool) (q : ℚ) : Prop :=
  ∃ digits exponent, Text.Decimal text negative digits exponent ∧ q = digits * 10 ^ exponent ∧
    q < Binary64.limit

/-- A text that, trimmed, is the numeral of a whole number of 64 bits or else of a finite one. -/
def IsNumeral (raw : String) : Prop :=
  ∃ text, Text.Trimmed raw.toList text ∧
    ((∃ n, IsWhole text n) ∨ ∃ negative q, IsFinite text negative q)

/-- The value of a text.  A number that is no whole number of 64 bits is rounded. -/
inductive Converts : FieldKind → String → Json → Prop where
  | string (raw : String) : Converts .string raw (.string raw)
  | whole {raw : String} {text : List Char} {n : ℤ} : Text.Trimmed raw.toList text →
      IsWhole text n → Converts .number raw (.number (.int n))
  | decimal {raw : String} {text : List Char} {q : ℚ} {x : Binary64} :
      Text.Trimmed raw.toList text → (¬ ∃ n, IsWhole text n) → IsFinite text x.isNegative q →
      Binary64.Rounds q x → Converts .number raw (.number (.float x))

theorem integer?_eq_some_iff {text : List Char} {n : ℤ} :
    Text.integer? 10 Text.int64Bounds.1 Text.int64Bounds.2 text = some n ↔ IsWhole text n := by
  have hlow : Text.int64Bounds.1 = -2 ^ 63 := by decide
  have hhigh : Text.int64Bounds.2 = 2 ^ 63 - 1 := by decide
  rw [Text.integer?_eq_some_iff (by decide), IsWhole, hlow, hhigh, Int.le_sub_one_iff]

theorem integer?_eq_none_iff {text : List Char} :
    Text.integer? 10 Text.int64Bounds.1 Text.int64Bounds.2 text = none ↔ ¬ ∃ n, IsWhole text n := by
  simp only [Option.eq_none_iff_forall_ne_some, ne_eq, integer?_eq_some_iff, not_exists]

theorem parseNumber?_eq_some_iff {text : List Char} {number : Json.Number} :
    parseNumber? text = some number ↔ (∃ n, IsWhole text n ∧ number = .int n) ∨
      (¬ ∃ n, IsWhole text n) ∧ ∃ x q, IsFinite text x.isNegative q ∧ Binary64.Rounds q x ∧
        number = .float x := by
  unfold parseNumber?
  split
  · rename_i n hn
    have hwhole := integer?_eq_some_iff.mp hn
    rw [Option.some_inj]
    constructor
    · rintro rfl
      exact .inl ⟨n, hwhole, rfl⟩
    · rintro (⟨m, hm, rfl⟩ | ⟨hnot, -⟩)
      · exact congrArg Json.Number.int (Option.some.inj (hn.symm.trans (integer?_eq_some_iff.mpr hm)))
      · exact absurd ⟨n, hwhole⟩ hnot
  · rename_i hnone
    have hnot := integer?_eq_none_iff.mp hnone
    rw [Option.map_eq_some_iff]
    constructor
    · rintro ⟨x, hx, rfl⟩
      obtain ⟨digits, exponent, hdecimal, hlimit, hrounds⟩ := Text.decimal?_eq_some_iff.mp hx
      exact .inr ⟨hnot, x, _, ⟨digits, exponent, hdecimal, rfl, hlimit⟩, hrounds, rfl⟩
    · rintro (⟨n, hn, -⟩ | ⟨-, x, _, ⟨digits, exponent, hdecimal, rfl, hlimit⟩, hrounds, rfl⟩)
      · exact absurd ⟨n, hn⟩ hnot
      · exact ⟨x, Text.decimal?_eq_some_iff.mpr ⟨digits, exponent, hdecimal, hlimit, hrounds⟩, rfl⟩

/-- Trimming leaves one text. -/
theorem isNumeral_iff : IsNumeral raw ↔ (parseNumber? (Text.trimChars raw.toList)).isSome := by
  have htrimmed := Text.trimmed_trimChars raw.toList
  rw [Option.isSome_iff_exists]
  constructor
  · rintro ⟨text, htext, hnumeral⟩
    rw [Text.trimChars_eq_iff.mpr htext]
    by_cases hwhole : ∃ n, IsWhole text n
    · obtain ⟨n, hn⟩ := hwhole
      exact ⟨.int n, parseNumber?_eq_some_iff.mpr (.inl ⟨n, hn, rfl⟩)⟩
    · obtain ⟨negative, _, digits, exponent, hdecimal, rfl, hlimit⟩ := hnumeral.resolve_left hwhole
      obtain ⟨x, hx⟩ := Text.exists_decimal?_iff.mpr ⟨negative, digits, exponent, hdecimal, hlimit⟩
      refine ⟨.float x, ?_⟩
      rw [parseNumber?, integer?_eq_none_iff.mpr hwhole, hx]
      rfl
  · rintro ⟨number, hnumber⟩
    refine ⟨_, htrimmed, ?_⟩
    rcases parseNumber?_eq_some_iff.mp hnumber with ⟨n, hn, -⟩ | ⟨-, x, q, hfinite, -⟩
    · exact .inl ⟨n, hn⟩
    · exact .inr ⟨x.isNegative, q, hfinite⟩

theorem convert_eq_ok_iff {value : Json} :
    spec.convert raw = .ok value ↔ Converts spec.kind raw value := by
  have htrimmed := Text.trimmed_trimChars raw.toList
  cases hkind : spec.kind with
  | string =>
      simp only [convert, hkind]
      constructor
      · intro h
        rw [← Except.ok.inj h]
        exact .string raw
      · rintro ⟨⟩
        rfl
  | number =>
      simp only [convert, hkind]
      constructor
      · intro h
        split at h
        · rename_i number hnumber
          obtain rfl := Except.ok.inj h
          rcases parseNumber?_eq_some_iff.mp hnumber with
            ⟨n, hn, rfl⟩ | ⟨hnot, x, q, hfinite, hrounds, rfl⟩
          · exact .whole htrimmed hn
          · exact .decimal htrimmed hnot hfinite hrounds
        · cases h
      · intro h
        cases h with
        | whole htext hn =>
            rw [Text.trimChars_eq_iff.mpr htext,
              parseNumber?_eq_some_iff.mpr (.inl ⟨_, hn, rfl⟩)]
        | decimal htext hnot hfinite hrounds =>
            rw [Text.trimChars_eq_iff.mpr htext,
              parseNumber?_eq_some_iff.mpr (.inr ⟨hnot, _, _, hfinite, hrounds, rfl⟩)]

theorem convert_eq_error_iff : spec.convert raw = .error failure ↔
    spec.kind = .number ∧ ¬ IsNumeral raw ∧
      failure = .config (spec.key ++ ": number expected, found " ++ Text.quoted raw) := by
  rw [isNumeral_iff, convert]
  cases spec.kind with
  | string => simp
  | number =>
      cases parseNumber? (Text.trimChars raw.toList) with
      | none => simp [eq_comm]
      | some number => simp

/-- The key of the field is in the hash, with a text that is no number although the field is one. -/
structure Refuses (spec : FieldSpec) (hash : Keyed String) (raw : String) : Prop where
  held : hash.find? spec.key = some raw
  number : spec.kind = .number
  not_numeral : ¬ IsNumeral raw

/-- What the field contributes: the value of its text, or else its fallback. -/
def Yields (spec : FieldSpec) (hash : Keyed String) (value : Json) : Prop :=
  (∃ raw, hash.find? spec.key = some raw ∧ Converts spec.kind raw value) ∨
    hash.find? spec.key = none ∧ spec.fallback = some value

theorem value_eq_error_iff : spec.value hash = .error failure ↔ ∃ raw, spec.Refuses hash raw ∧
    failure = .config (spec.key ++ ": number expected, found " ++ Text.quoted raw) := by
  cases hfind : hash.find? spec.key with
  | none =>
      rw [value_of_none hfind]
      constructor
      · rintro ⟨⟩
      · rintro ⟨raw, hrefuses, -⟩
        exact absurd (hfind.symm.trans hrefuses.held) nofun
  | some raw =>
      have herror : spec.value hash = .error failure ↔ spec.convert raw = .error failure := by
        rw [value_of_some hfind]
        cases spec.convert raw <;> simp [Except.map]
      rw [herror, convert_eq_error_iff]
      constructor
      · rintro ⟨hnumber, hnumeral, hfailure⟩
        exact ⟨raw, ⟨hfind, hnumber, hnumeral⟩, hfailure⟩
      · rintro ⟨other, ⟨hheld, hnumber, hnumeral⟩, hfailure⟩
        obtain rfl := Option.some.inj (hfind.symm.trans hheld)
        exact ⟨hnumber, hnumeral, hfailure⟩

theorem value_eq_some_iff {value : Json} :
    spec.value hash = .ok (some value) ↔ spec.Yields hash value := by
  cases hfind : hash.find? spec.key with
  | none => simp [value_of_none hfind, Yields, hfind]
  | some raw =>
      have hconvert : spec.value hash = .ok (some value) ↔ spec.convert raw = .ok value := by
        rw [value_of_some hfind]
        cases spec.convert raw <;> simp [Except.map]
      rw [hconvert, convert_eq_ok_iff]
      simp [Yields, hfind]

end FieldSpec

/-! ## Conversions -/

namespace Template

variable {template : Template} {hash other : Keyed String} {fields : Keyed Json}
  {failure : Failure}

/-- The first of the fields whose text is refused, by the bytes of their names. -/
structure FirstRefused (template : Template) (hash : Keyed String) (name : String)
    (spec : FieldSpec) (raw : String) : Prop where
  mem : (name, spec) ∈ template.fields
  refuses : spec.Refuses hash raw
  first : ∀ name' spec' raw', (name', spec') ∈ template.fields → spec'.Refuses hash raw' →
    ¬ Text.utf8 name' < Text.utf8 name

theorem toConfig_eq_error_iff (sorted : Keyed.Sorted template.fields) :
    template.toConfig hash = .error failure ↔ ∃ name spec raw,
      template.FirstRefused hash name spec raw ∧
        failure = .config (spec.key ++ ": number expected, found " ++ Text.quoted raw) := by
  rw [toConfig, Failure.map_eq_error_iff, Failure.mapM_eq_error_iff]
  constructor
  · rintro ⟨before, ⟨name, spec⟩, after, hfields, hbefore, hfailure⟩
    obtain ⟨raw, hrefuses, rfl⟩ :=
      FieldSpec.value_eq_error_iff.mp (Failure.map_eq_error_iff.mp hfailure)
    rw [hfields, Keyed.Sorted, Keyed.keys, List.map_append, List.pairwise_append] at sorted
    obtain ⟨-, hafter, -⟩ := sorted
    refine ⟨name, spec, raw, ⟨?_, hrefuses, ?_⟩, rfl⟩
    · rw [hfields]
      exact List.mem_append_cons_self
    · intro name' spec' raw' hmem hrefuses' hlt
      rw [Text.utf8_lt_iff] at hlt
      rw [hfields, List.mem_append] at hmem
      rcases hmem with hmem | hmem
      · obtain ⟨entry, hentry⟩ := hbefore _ hmem
        obtain ⟨found, hfound, -⟩ := Failure.ok_of_map hentry
        have herror := FieldSpec.value_eq_error_iff.mpr ⟨raw', hrefuses', rfl⟩
        cases hfound.symm.trans herror
      · rcases List.mem_cons.mp hmem with heq | hmem
        · obtain rfl := congrArg Prod.fst heq
          exact lt_irrefl _ hlt
        · have hgt := (List.pairwise_cons.mp hafter).1 name' (List.mem_map_of_mem hmem)
          exact lt_asymm hlt hgt
  · rintro ⟨name, spec, raw, hfirst, rfl⟩
    obtain ⟨before, after, hfields⟩ := List.append_of_mem hfirst.mem
    refine ⟨before, (name, spec), after, hfields, ?_, ?_⟩
    · rintro ⟨name', spec'⟩ hmem
      rw [hfields, Keyed.Sorted, Keyed.keys, List.map_append, List.pairwise_append] at sorted
      have hlt : name' < name :=
        sorted.2.2 name' (List.mem_map_of_mem hmem) name List.mem_cons_self
      cases hvalue : spec'.value hash with
      | ok found => exact ⟨_, rfl⟩
      | error failure =>
          obtain ⟨raw', hrefuses', -⟩ := FieldSpec.value_eq_error_iff.mp hvalue
          have hmem' : (name', spec') ∈ template.fields := by
            rw [hfields]
            exact List.mem_append_left _ hmem
          exact absurd (Text.utf8_lt_iff.mpr hlt) (hfirst.first name' spec' raw' hmem' hrefuses')
    · exact Failure.map_eq_error_iff.mpr
        (FieldSpec.value_eq_error_iff.mpr ⟨raw, hfirst.refuses, rfl⟩)

/-- The fields come out in the order of the template. -/
theorem sorted_of_toConfig (sorted : Keyed.Sorted template.fields)
    (h : template.toConfig hash = .ok fields) : Keyed.Sorted fields := by
  obtain ⟨values, hvalues, rfl⟩ := Failure.ok_of_map h
  refine List.Pairwise.sublist ?_ sorted
  have hrow := Failure.mapM_eq_ok_iff.mp hvalues
  clear h hvalues sorted
  generalize template.fields = row at hrow
  induction hrow with
  | nil => exact .slnil
  | @cons field value _ _ hentry _ ih =>
      obtain ⟨found, -, rfl⟩ := Failure.ok_of_map hentry
      cases found with
      | none => exact ih.cons _
      | some value => exact ih.cons_cons _

theorem exists_refuses_iff : (∃ failure, template.toConfig hash = .error failure) ↔
    ∃ field ∈ template.fields, ∃ raw, field.2.Refuses hash raw := by
  simp only [toConfig, Failure.map_eq_error_iff, Failure.exists_mapM_eq_error_iff,
    FieldSpec.value_eq_error_iff]
  constructor
  · rintro ⟨field, hmem, failure, raw, hrefuses, -⟩
    exact ⟨field, hmem, raw, hrefuses⟩
  · rintro ⟨field, hmem, raw, hrefuses⟩
    exact ⟨field, hmem, _, raw, hrefuses, rfl⟩

theorem toConfig_congr
    (h : ∀ field ∈ template.fields, hash.find? field.2.key = other.find? field.2.key) :
    template.toConfig hash = template.toConfig other := by
  have hrow : ∀ field ∈ template.fields,
      (field.2.value hash).map (fun value => value.map fun value => (field.1, value)) =
        (field.2.value other).map (fun value => value.map fun value => (field.1, value)) := by
    intro field hfield
    rw [FieldSpec.value_congr (h field hfield)]
  rw [toConfig, toConfig, Failure.mapM_congr hrow]

/-- Whether a hash is converted, and into what. -/
theorem conversion_law (sorted : Keyed.Sorted template.fields) (hash : Keyed String) :
    ((∃ failure, template.toConfig hash = .error failure) ↔
      ∃ field ∈ template.fields, ∃ raw, field.2.Refuses hash raw) ∧
    (∀ failure, template.toConfig hash = .error failure ↔ ∃ name spec raw,
      template.FirstRefused hash name spec raw ∧
        failure = .config (spec.key ++ ": number expected, found " ++ Text.quoted raw)) ∧
    ((¬ ∃ field ∈ template.fields, ∃ raw, field.2.Refuses hash raw) →
      ∃ fields, template.toConfig hash = .ok fields ∧ Keyed.Sorted fields ∧
        ∀ name value, (name, value) ∈ fields ↔
          ∃ spec, (name, spec) ∈ template.fields ∧ spec.Yields hash value) ∧
    (∀ other, (∀ field ∈ template.fields, hash.find? field.2.key = other.find? field.2.key) →
      template.toConfig hash = template.toConfig other) ∧
    ((∀ key ∈ template.requirements, ∃ raw, hash.find? key = some raw) →
      ∀ fields, template.toConfig hash = .ok fields →
        ∀ name spec, (name, spec) ∈ template.fields → spec.required = true →
          ∃ value, (name, value) ∈ fields) := by
  refine ⟨exists_refuses_iff, fun failure => toConfig_eq_error_iff sorted, ?_, ?_, ?_⟩
  · intro hnone
    cases hconfig : template.toConfig hash with
    | error failure => exact absurd (exists_refuses_iff.mp ⟨failure, hconfig⟩) hnone
    | ok fields =>
        refine ⟨fields, rfl, sorted_of_toConfig sorted hconfig, fun name value => ?_⟩
        simp only [mem_of_toConfig hconfig, FieldSpec.value_eq_some_iff]
  · exact fun other => toConfig_congr
  · intro hkeys fields hconfig name spec hmem hrequired
    obtain ⟨raw, hraw⟩ := hkeys spec.key (mem_requirements hmem hrequired)
    exact exists_mem_of_has hconfig hmem (Option.isSome_iff_exists.mpr ⟨raw, hraw⟩)

/-- Two fields under one key, of which only the second can be refused, and one under another. -/
def sharedTemplate : Template :=
  (((⟨[]⟩ : Template).field "port" (.number "address")).field "name"
    (FieldSpec.string "address").require).field "mark" ((FieldSpec.number "mark").withFallback .null)

theorem fields_sharedTemplate : sharedTemplate.fields =
    [("mark", (FieldSpec.number "mark").withFallback .null),
      ("name", (FieldSpec.string "address").require), ("port", .number "address")] :=
  rfl

theorem conversion_law_shared : Keyed.Sorted sharedTemplate.fields ∧
    sharedTemplate.toConfig [("address", "1x"), ("other", "")] =
      .error (.config ("address" ++ ": number expected, found " ++ Text.quoted "1x")) := by
  have hsorted : Keyed.Sorted sharedTemplate.fields := by
    unfold Keyed.Sorted
    decide
  have hnumeral : ¬ FieldSpec.IsNumeral "1x" := by
    rw [FieldSpec.isNumeral_iff]
    decide
  refine ⟨hsorted, ((conversion_law hsorted _).2.1 _).mpr
    ⟨"port", .number "address", "1x", ⟨?_, ⟨rfl, rfl, hnumeral⟩, ?_⟩, rfl⟩⟩
  · simp [fields_sharedTemplate]
  · intro name spec raw hmem hrefuses
    simp only [fields_sharedTemplate, List.mem_cons, Prod.mk.injEq, List.not_mem_nil,
      or_false] at hmem
    rcases hmem with ⟨rfl, rfl⟩ | ⟨rfl, rfl⟩ | ⟨rfl, rfl⟩
    · cases hrefuses.held
    · cases hrefuses.number
    · decide

end Template
end Uplink
