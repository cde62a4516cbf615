import Mathlib.Data.List.Nodup
import Uplink.Proofs.Failure
import Uplink.Proofs.Keyed
import Uplink.Proofs.Text.Numeral
import Uplink.Template

/-!
# The fields of a configuration

A conversion that succeeds has converted every field of the template.  The fields that come out are
those that have a value, so no field whose key is in the hash is missing.
-/

namespace Uplink

/-! ## Numbers -/

namespace FieldSpec

variable {n : ℕ}

/-- The lower half of the whole numbers of 64 bits is read as such. -/
theorem parseNumber?_toDigits (h : n < 2 ^ 63) :
    parseNumber? (Nat.toDigits 10 n) = some (.int n) := by
  have hlow : Text.int64Bounds.1 ≤ n := by
    have hbound : Text.int64Bounds.1 = -2 ^ 63 := by decide
    omega
  have hhigh : (n : ℤ) ≤ Text.int64Bounds.2 := by
    have hbound : Text.int64Bounds.2 = 2 ^ 63 - 1 := by decide
    omega
  rw [parseNumber?, Text.integer?_toDigits, Option.filter_some_pos (by simp [hlow, hhigh])]

/-- The upper half is read as floating-point numbers. -/
theorem parseNumber?_toDigits_of_le (h : 2 ^ 63 ≤ n) :
    parseNumber? (Nat.toDigits 10 n) = (Text.decimal? (Nat.toDigits 10 n)).map .float := by
  have hhigh : ¬ (n : ℤ) ≤ Text.int64Bounds.2 := by
    have hbound : Text.int64Bounds.2 = 2 ^ 63 - 1 := by decide
    omega
  rw [parseNumber?, Text.integer?_toDigits, Option.filter_some_neg (by simp [hhigh])]

theorem trimChars_toString (n : ℕ) : Text.trimChars (toString n).toList = Nat.toDigits 10 n := by
  rw [Nat.toString_eq_repr, Nat.toList_repr]
  exact Text.trimChars_of_isDigit fun c => Text.isDigit_of_mem_toDigits

/-! ## Values -/

variable {hash hash' : Keyed String}

theorem value_string (key : String) (hash : Keyed String) :
    (string key).value hash = .ok ((hash.find? key).map Json.string) := by
  cases hfind : hash.find? key <;> simp [value, hfind, string, convert, Except.map]

theorem value_of_some {spec : FieldSpec} {raw : String} (h : hash.find? spec.key = some raw) :
    spec.value hash = (spec.convert raw).map some := by
  rw [value, h]

theorem value_of_none {spec : FieldSpec} (h : hash.find? spec.key = none) :
    spec.value hash = .ok spec.fallback := by
  rw [value, h]

theorem value_congr {spec : FieldSpec} (h : hash.find? spec.key = hash'.find? spec.key) :
    spec.value hash = spec.value hash' := by
  rw [value, value, h]

end FieldSpec

/-! ## Conversions -/

namespace Template

variable {template : Template} {hash : Keyed String} {fields : List (String × Json)}

/-- The key of an indispensable field is among those that its template requires. -/
theorem mem_requirements {name : String} {spec : FieldSpec}
    (hmem : (name, spec) ∈ template.fields) (hrequired : spec.required = true) :
    spec.key ∈ template.requirements :=
  List.mem_map_of_mem (List.mem_filter.mpr ⟨hmem, hrequired⟩)

/-- The fields of a configuration are those that have a value. -/
theorem mem_of_toConfig (h : template.toConfig hash = .ok fields) {name : String} {value : Json} :
    (name, value) ∈ fields ↔
      ∃ spec, (name, spec) ∈ template.fields ∧ spec.value hash = .ok (some value) := by
  obtain ⟨values, hvalues, rfl⟩ := Failure.ok_of_map h
  rw [List.mem_filterMap]
  constructor
  · rintro ⟨entry, hentry, hsome⟩
    cases hsome
    obtain ⟨⟨name', spec⟩, hmem, hvalue⟩ := (Failure.mem_of_mapM hvalues).mp hentry
    obtain ⟨found, hfound, hpair⟩ := Failure.ok_of_map hvalue
    cases found with
    | none => cases hpair
    | some value' =>
        cases hpair
        exact ⟨spec, hmem, hfound⟩
  · rintro ⟨spec, hmem, hvalue⟩
    refine ⟨some (name, value), (Failure.mem_of_mapM hvalues).mpr ⟨(name, spec), hmem, ?_⟩, rfl⟩
    rw [hvalue]
    rfl

/-- A field whose key is in the hash is in the configuration. -/
theorem exists_mem_of_has (h : template.toConfig hash = .ok fields) {name : String}
    {spec : FieldSpec} (hmem : (name, spec) ∈ template.fields) (hkey : hash.has spec.key = true) :
    ∃ value, (name, value) ∈ fields := by
  obtain ⟨values, hvalues, -⟩ := Failure.ok_of_map h
  obtain ⟨entry, hentry⟩ := Failure.exists_of_mapM hvalues hmem
  obtain ⟨found, hfound, -⟩ := Failure.ok_of_map hentry
  obtain ⟨raw, hraw⟩ := Option.isSome_iff_exists.mp hkey
  have hvalue : spec.value hash = (spec.convert raw).map some := by
    rw [FieldSpec.value, hraw]
  obtain ⟨value, -, hsome⟩ := Failure.ok_of_map (hvalue.symm.trans hfound)
  exact ⟨value, (mem_of_toConfig h).mpr ⟨spec, hmem, hsome ▸ hfound⟩⟩

/-- Where every value can be converted, so can the hash. -/
theorem exists_toConfig
    (h : ∀ field ∈ template.fields, ∃ found, field.2.value hash = .ok found) :
    ∃ fields, template.toConfig hash = .ok fields := by
  have hvalues : ∃ values, (template.fields.mapM fun (field : String × FieldSpec) =>
      (field.2.value hash).map fun value => value.map fun value => (field.1, value)) =
        .ok values := by
    apply Failure.exists_mapM
    intro field hfield
    obtain ⟨found, hfound⟩ := h field hfield
    rw [hfound]
    exact ⟨_, rfl⟩
  obtain ⟨values, hvalues⟩ := hvalues
  rw [toConfig, hvalues]
  exact ⟨_, rfl⟩

/-- A field of a configuration has the value of its key. -/
theorem value_of_toConfig (h : template.toConfig hash = .ok fields)
    (hnodup : template.fields.keys.Nodup) {name : String} {spec : FieldSpec}
    (hmem : (name, spec) ∈ template.fields) :
    spec.value hash = .ok (fields.reverse.lookup name) := by
  obtain ⟨values, hvalues, -⟩ := Failure.ok_of_map h
  obtain ⟨entry, hentry⟩ := Failure.exists_of_mapM hvalues hmem
  obtain ⟨found, hfound, -⟩ := Failure.ok_of_map hentry
  have honly : ∀ other, (name, other) ∈ template.fields → other = spec := by
    intro other hother
    exact congrArg Prod.snd (List.inj_on_of_nodup_map hnodup hother hmem rfl)
  rw [hfound]
  congr 1
  cases hlookup : fields.reverse.lookup name with
  | some value =>
      obtain ⟨front, back, hsplit, -⟩ := List.lookup_eq_some_iff.mp hlookup
      have hvalue : (name, value) ∈ fields.reverse := by
        rw [hsplit]
        exact List.mem_append_cons_self
      obtain ⟨other, hother, hsome⟩ := (mem_of_toConfig h).mp (List.mem_reverse.mp hvalue)
      rw [honly other hother, hfound] at hsome
      exact Except.ok.inj hsome
  | none =>
      cases found with
      | none => rfl
      | some value =>
          have hvalue := (mem_of_toConfig h).mpr ⟨spec, hmem, hfound⟩
          have hnone := List.lookup_eq_none_iff.mp hlookup _ (List.mem_reverse.mpr hvalue)
          simp at hnone

end Template

end Uplink
