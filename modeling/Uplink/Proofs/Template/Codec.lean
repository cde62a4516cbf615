import Uplink.Proofs.Json.Held
import Uplink.Proofs.Template

/-!
# Templates read back

A template that was written as JSON is read back with all its fields, keys, kinds and marks.  Its
fallbacks are read back with one exception: a fallback that is null is written, but where null is
read there is no fallback, so that the configurations lack the field.  From a text nothing is read
where the brackets of a fallback are nested deeper than a document may have them.
-/

namespace Uplink

namespace Json

/-- Whether a value is null. -/
def isNull : Json → Bool
  | null => true
  | _ => false

/-- A value that may be missing, and is missing where it is null. -/
def nonNull (found : Option Json) : Option Json :=
  found.filter fun value => !value.isNull

theorem nonNull_of_ne {value : Json} (h : value ≠ null) : nonNull (some value) = some value := by
  have hkept : (!value.isNull) = true := by
    cases value <;> first | rfl | exact absurd rfl h
  exact Option.filter_some_pos hkept

theorem nonNull_eq_self_iff {found : Option Json} : nonNull found = found ↔ found ≠ some null := by
  by_cases h : found = some null
  · rw [h]
    simp [nonNull, isNull, Option.filter]
  · refine iff_of_true ?_ h
    cases found with
    | none => rfl
    | some value => exact nonNull_of_ne fun hnull => h (congrArg some hnull)

/-- Null is read as no value, and any other value as it is. -/
theorem Held.asOption?_kept? {value : Json} (h : value.Held) (n : ℕ) :
    asOption? (Json.kept? n) value =
      if value.levels ≤ n then some (nonNull (some value)) else none := by
  by_cases hnull : value = Json.null
  · rw [hnull, levels.eq_def, if_pos (Nat.zero_le n)]
    rfl
  · have hread : asOption? (Json.kept? n) value = (Json.kept? n value).map some := by
      cases value <;> first | rfl | exact absurd rfl hnull
    rw [hread, h.kept?, nonNull_of_ne hnull]
    split <;> rfl

end Json

/-! ## Fields -/

namespace FieldSpec

/-- A field as it is made from a key. -/
inductive Built : FieldSpec → Prop where
  | string (key : String) : Built (string key)
  | number (key : String) : Built (number key)
  | withFallback {spec : FieldSpec} {value : Json} :
      Built spec → value.Held → Built (spec.withFallback value)
  | require {spec : FieldSpec} : Built spec → Built spec.require

/-- The field without a fallback that is null. -/
def withoutNull (spec : FieldSpec) : FieldSpec :=
  { spec with fallback := Json.nonNull spec.fallback }

variable {spec : FieldSpec}

theorem Built.held (h : spec.Built) : ∀ value ∈ spec.fallback, value.Held := by
  induction h with
  | string key =>
      intro value hvalue
      cases hvalue
  | number key =>
      intro value hvalue
      cases hvalue
  | withFallback _ hheld _ =>
      intro value hvalue
      cases hvalue
      exact hheld
  | require _ ih => exact ih

theorem withoutNull_eq_self_iff : spec.withoutNull = spec ↔ spec.fallback ≠ some .null := by
  rw [← Json.nonNull_eq_self_iff]
  constructor
  · exact congrArg FieldSpec.fallback
  · intro h
    rw [withoutNull, h]

theorem levels_toJson_le_iff {n : ℕ} :
    spec.toJson.levels ≤ n + 1 ↔ ∀ value ∈ spec.fallback, value.levels ≤ n := by
  have hmembers : spec.toJson.levels ≤ n + 1 ↔ ∀ member ∈ spec.fallback.map (("default", ·)),
      (member : String × Json).2.levels ≤ n := by
    rw [toJson, Json.levels_object_le_iff]
    cases spec.fallback <;> cases spec.required <;> simp [Json.levels]
  rw [hmembers]
  cases spec.fallback <;> simp

theorem plain_toJson (h : ∀ value ∈ spec.fallback, value.Plain) : spec.toJson.Plain := by
  apply Json.Plain.object
  have hfallback : ∀ member ∈ (spec.fallback.map fun value => ("default", value)).toList,
      (member : String × Json).2.Plain := by
    cases hvalue : spec.fallback with
    | none => simp
    | some value => simpa using h value hvalue
  have hrequired : ∀ member ∈ (if spec.required then [("required", Json.bool true)] else []),
      (member : String × Json).2.Plain := by
    cases spec.required <;> simp [Json.Plain.bool]
  simp only [List.forall_mem_append]
  refine ⟨⟨?_, hfallback⟩, hrequired⟩
  simp [Json.Plain.string]

theorem asNamed?_name (kind : FieldKind) :
    Json.asNamed? FieldKind.ofName? (.string kind.name) = some kind := by
  cases kind <;> rfl

/-- The members of a field as a record. -/
theorem record?_toJson (spec : FieldSpec) :
    ∃ record, Json.record? ["key", "type", "default", "required"] spec.toJson = some record ∧
      record.get? "key" = some (.string spec.key) ∧
      record.get? "type" = some (.string spec.kind.name) ∧
      record.get? "default" = spec.fallback ∧
      record.get? "required" = if spec.required then some (.bool true) else none := by
  obtain ⟨key, kind, fallback, required⟩ := spec
  cases fallback <;> cases required <;> exact ⟨_, rfl, rfl, rfl, rfl, rfl⟩

/-- A field is read back without a fallback that is null, unless it is nested too deep. -/
theorem ofJson?_toJson (h : ∀ value ∈ spec.fallback, value.Held) (n : ℕ) :
    ofJson? n spec.toJson =
      if spec.toJson.levels ≤ n + 1 then some spec.withoutNull else none := by
  obtain ⟨record, hrecord, hkey, hkind, hfallback, hrequired⟩ := record?_toJson spec
  have hreadKey : record.require "key" Json.asString? = some spec.key := by
    rw [Record.require, hkey]
    rfl
  have hreadKind :
      record.getD "type" .string (Json.asNamed? FieldKind.ofName?) = some spec.kind := by
    rw [Record.getD, hkind]
    exact asNamed?_name spec.kind
  have hreadRequired : record.getD "required" false Json.asBool? = some spec.required := by
    rw [Record.getD, hrequired]
    cases spec.required <;> rfl
  have hreadFallback : record.getD "default" none (Json.asOption? (Json.kept? n)) =
      if spec.toJson.levels ≤ n + 1 then some spec.withoutNull.fallback else none := by
    rw [Record.getD, hfallback]
    simp only [levels_toJson_le_iff, withoutNull]
    cases hvalue : spec.fallback with
    | none => simp [Json.nonNull]
    | some value =>
        dsimp only
        rw [(h value hvalue).asOption?_kept?]
        simp
  rw [ofJson?, hrecord]
  simp only [bind, Option.bind_some, hreadKey, hreadKind, hreadRequired, hreadFallback]
  split <;> rfl

/-- No text is converted to null, so a value that is null is a fallback. -/
theorem value_withoutNull (spec : FieldSpec) (hash : Keyed String) :
    spec.withoutNull.value hash = (spec.value hash).map Json.nonNull := by
  have hkey : spec.withoutNull.key = spec.key := rfl
  rw [value, value, hkey]
  cases hash.find? spec.key with
  | none => rfl
  | some raw =>
      have hconvert : spec.withoutNull.convert raw = spec.convert raw := rfl
      have hsome : ∀ value, spec.convert raw = .ok value → value ≠ .null := by
        intro value hvalue
        unfold convert at hvalue
        split at hvalue
        · cases hvalue
          exact Json.noConfusion
        · split at hvalue
          · cases hvalue
            exact Json.noConfusion
          · cases hvalue
      dsimp only
      rw [hconvert]
      cases hvalue : spec.convert raw with
      | error failure => rfl
      | ok value =>
          simp only [Except.map]
          rw [Json.nonNull_of_ne (hsome value hvalue)]

end FieldSpec

/-! ## Templates -/

namespace Template

/-- A template as it is made field by field. -/
inductive Built : Template → Prop where
  | empty : Built {}
  | field {template : Template} {spec : FieldSpec} (name : String) :
      Built template → spec.Built → Built (template.field name spec)

/-- The template without fallbacks that are null. -/
def withoutNulls (template : Template) : Template :=
  ⟨template.fields.map fun field => (field.1, field.2.withoutNull)⟩

variable {t : Template}

theorem Built.sorted (h : t.Built) : Keyed.Sorted t.fields := by
  induction h with
  | empty => exact .nil
  | field name _ _ ih => exact ih.insert name _

theorem Built.held (h : t.Built) :
    ∀ field ∈ t.fields, ∀ value ∈ field.2.fallback, value.Held := by
  induction h with
  | empty =>
      intro field hfield
      cases hfield
  | field name _ hspec ih =>
      intro field hfield
      rcases Keyed.mem_insert hfield with rfl | hfield
      · exact hspec.held
      · exact ih field hfield

theorem levels_toJson_le_iff {n : ℕ} :
    t.toJson.levels ≤ n + 1 ↔ ∀ field ∈ t.fields, field.2.toJson.levels ≤ n := by
  rw [toJson, Json.levels_object_le_iff, List.forall_mem_map]

theorem plain_toJson (h : ∀ field ∈ t.fields, ∀ value ∈ field.2.fallback, value.Plain) :
    t.toJson.Plain := by
  apply Json.Plain.object
  rw [List.forall_mem_map]
  intro field hfield
  exact FieldSpec.plain_toJson (h field hfield)

theorem withoutNulls_eq_self_iff :
    t.withoutNulls = t ↔ ∀ field ∈ t.fields, field.2.fallback ≠ some .null := by
  have hfields : t.withoutNulls = t ↔
      (t.fields.map fun field => (field.1, field.2.withoutNull)) = t.fields.map id := by
    rw [List.map_id]
    cases t
    simp [withoutNulls]
  rw [hfields, List.map_inj_left]
  refine forall₂_congr fun field _ => ?_
  rw [← FieldSpec.withoutNull_eq_self_iff]
  exact ⟨congrArg Prod.snd, fun h => Prod.ext rfl h⟩

theorem requirements_withoutNulls : t.withoutNulls.requirements = t.requirements := by
  simp only [requirements, withoutNulls, List.filter_map, List.map_map]
  rfl

/-- The configurations lack the members that are null. -/
theorem toConfig_withoutNulls (hash : Keyed String) :
    t.withoutNulls.toConfig hash =
      (t.toConfig hash).map fun fields => fields.filter fun field => !field.2.isNull := by
  have hfield : ∀ field ∈ t.fields,
      ((field.2.withoutNull.value hash).map fun value => value.map fun value => (field.1, value)) =
        ((field.2.value hash).map fun value => value.map fun value => (field.1, value)).map
          (Option.filter fun member => !member.2.isNull) := by
    intro field _
    rw [FieldSpec.value_withoutNull]
    cases field.2.value hash with
    | error failure => rfl
    | ok found =>
        cases found with
        | none => rfl
        | some value =>
            cases hnull : value.isNull <;> simp [Except.map, Json.nonNull, Option.filter, hnull]
  have hvalues := Failure.mapM_of_map hfield
  simp only [toConfig, withoutNulls, List.mapM_map, Function.comp_def, hvalues]
  cases t.fields.mapM fun (field : String × FieldSpec) =>
      (field.2.value hash).map fun value => value.map fun value => (field.1, value) with
  | error failure => rfl
  | ok values =>
      simp only [Except.map, List.filterMap_map, List.filter_filterMap]
      rfl

/-- A template is read back without fallbacks that are null, unless it is nested too deep. -/
theorem ofJson?_toJson (hsorted : Keyed.Sorted t.fields)
    (hheld : ∀ field ∈ t.fields, ∀ value ∈ field.2.fallback, value.Held) (n : ℕ) :
    ofJson? (n + 2) t.toJson = if t.toJson.levels ≤ n + 2 then some t.withoutNulls else none := by
  have hmember : ∀ field ∈ t.fields,
      ((FieldSpec.ofJson? n field.2.toJson).map fun spec => (field.1, spec)) =
        if field.2.toJson.levels ≤ n + 1 then some (field.1, field.2.withoutNull) else none := by
    intro field hfield
    rw [FieldSpec.ofJson?_toJson (hheld field hfield)]
    split <;> rfl
  have hkeys : Keyed.Sorted (t.fields.map fun field => (field.1, field.2.withoutNull)) := by
    rw [Keyed.Sorted, Keyed.keys, List.map_map]
    exact hsorted
  have hread : ofJson? (n + 2) t.toJson =
      (t.fields.mapM fun field =>
        (FieldSpec.ofJson? n field.2.toJson).map fun spec => (field.1, spec)).map
          fun entries => ⟨Keyed.ofList entries⟩ := by
    rw [toJson, ofJson?, List.mapM_map]
    rfl
  rw [hread, Json.mapM_if hmember]
  simp only [levels_toJson_le_iff]
  split
  · rw [Option.map_some, Keyed.ofList_of_sorted hkeys, withoutNulls]
  · rfl

/-- A template is read back from its text without fallbacks that are null, unless it is nested too
deep. -/
theorem parse?_render_toJson (hsorted : Keyed.Sorted t.fields)
    (hheld : ∀ field ∈ t.fields, ∀ value ∈ field.2.fallback, value.Held)
    (hfloat : ∀ field ∈ t.fields, ∀ value ∈ field.2.fallback, value.Floatless) :
    (Json.parse? t.toJson.render).bind (ofJson? Json.documentLevels) =
      if t.toJson.levels ≤ Json.documentLevels then some t.withoutNulls else none := by
  have hplain : t.toJson.Plain := by
    apply plain_toJson
    intro field hfield value hvalue
    exact (hheld field hfield value hvalue).plain (hfloat field hfield value hvalue)
  rw [Json.parse?_render hplain, Option.bind_some]
  exact ofJson?_toJson hsorted hheld 125

/-- What is read back of a template, from its value at any depth and from its text: the template if no
fallback is null, and else one whose configurations lack the members that are null. -/
theorem Built.read_back (h : t.Built)
    (hfloat : ∀ field ∈ t.fields, ∀ value ∈ field.2.fallback, value.Floatless) :
    (∀ n, t.toJson.levels ≤ n + 2 → ofJson? (n + 2) t.toJson = some t.withoutNulls) ∧
    (Json.parse? t.toJson.render).bind (ofJson? Json.documentLevels) =
      (if t.toJson.levels ≤ Json.documentLevels then some t.withoutNulls else none) ∧
    (t.withoutNulls = t ↔ ∀ field ∈ t.fields, field.2.fallback ≠ some .null) ∧
    t.withoutNulls.requirements = t.requirements ∧
    ∀ hash, t.withoutNulls.toConfig hash =
      (t.toConfig hash).map fun fields => fields.filter fun field => !field.2.isNull := by
  refine ⟨?_, parse?_render_toJson h.sorted h.held hfloat, withoutNulls_eq_self_iff,
    requirements_withoutNulls, toConfig_withoutNulls⟩
  intro n hlevels
  rw [ofJson?_toJson h.sorted h.held, if_pos hlevels]

/-- A fallback with arrays and nulls within it comes back as it is. -/
theorem Built.read_back_nested :
    let t := (Template.field {} "peers" ((FieldSpec.string "net:peers").withFallback
      (.array [.string "b\n", .array [.null, .number (.int (-1))]]))).field "port"
        (FieldSpec.number "net:port").require
    t.Built ∧ (Json.parse? t.toJson.render).bind (ofJson? Json.documentLevels) = some t := by
  intro t
  have hbuilt : t.Built := by
    refine .field _ (.field _ .empty (.withFallback (.string _) (.array ?_))) (.require (.number _))
    simp only [List.forall_mem_cons]
    refine ⟨.string _, .array ?_, List.forall_mem_nil _⟩
    simp only [List.forall_mem_cons]
    exact ⟨.null, .int (by decide) (by decide), List.forall_mem_nil _⟩
  have hfloat : ∀ field ∈ t.fields, ∀ value ∈ field.2.fallback, value.Floatless := by
    intro field hfield value hvalue
    rcases List.mem_cons.mp hfield with rfl | hfield
    · cases hvalue
      apply Json.Floatless.array
      simp only [List.forall_mem_cons]
      refine ⟨.string _, .array ?_, List.forall_mem_nil _⟩
      simp only [List.forall_mem_cons]
      exact ⟨.null, .int _, List.forall_mem_nil _⟩
    · rcases List.mem_singleton.mp hfield with rfl
      cases hvalue
  have hnull : ∀ field ∈ t.fields, field.2.fallback ≠ some .null := by
    intro field hfield hfallback
    rcases List.mem_cons.mp hfield with rfl | hfield
    · cases hfallback
    · rcases List.mem_singleton.mp hfield with rfl
      cases hfallback
  obtain ⟨-, htext, hwhole, -⟩ := hbuilt.read_back hfloat
  rw [htext, if_pos (by decide), hwhole.mpr hnull]
  exact ⟨hbuilt, rfl⟩

/-- A template whose only fallback is null is read back without the fallback, and an absent field
which had the value null is left out. -/
theorem null_fallback_lost :
    let t := Template.field {} "a" ((FieldSpec.string "k").withFallback .null)
    t.Built ∧ (∀ field ∈ t.fields, ∀ value ∈ field.2.fallback, value.Floatless) ∧
      t.toConfig [] = .ok [("a", .null)] ∧
      ∃ other, (Json.parse? t.toJson.render).bind (ofJson? Json.documentLevels) = some other ∧
        other ≠ t ∧ other.toConfig [] = .ok [] := by
  intro t
  have hbuilt : t.Built := .field _ .empty (.withFallback (.string _) .null)
  have hfloat : ∀ field ∈ t.fields, ∀ value ∈ field.2.fallback, value.Floatless := by
    intro field hfield value hvalue
    rcases List.mem_singleton.mp hfield with rfl
    cases hvalue
    exact .null
  have hlost : t.withoutNulls ≠ t := by
    rw [Ne, withoutNulls_eq_self_iff]
    intro h
    exact h _ List.mem_cons_self rfl
  refine ⟨hbuilt, hfloat, rfl, t.withoutNulls, ?_, hlost, rfl⟩
  rw [parse?_render_toJson hbuilt.sorted hbuilt.held hfloat]
  rfl

end Template

end Uplink
