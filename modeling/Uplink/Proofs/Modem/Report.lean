import Uplink.Modem.Report
import Uplink.Proofs.Failure
import Uplink.Proofs.Text.Denotation

/-!
# What the reports of the modem denote

A flow report is read from the second to the seventh part of a line between its commas, each of which
must be a hexadecimal number of 64 bits, with any number of leading zeros; the first part that is none
decides the failure.  A signal report is read from the first part alone, which must be a whole number
of 64 bits with sign, and gives the nearest number of 32 bits without sign.
-/

namespace Uplink
namespace Modem

variable {line name : String} {index : ℕ} {n : UInt64} {parts : List (List Char)} {text : List Char}
  {failure : Failure}

/-- What a part says without the blanks around it; a part that is missing says nothing. -/
def Says (parts : List (List Char)) (index : ℕ) (text : List Char) : Prop :=
  match parts[index]? with
  | some part => Text.Trimmed part text
  | none => text = []

/-- A part is there and denotes a counter of 64 bits. -/
def Counts (parts : List (List Char)) (index : ℕ) (n : UInt64) : Prop :=
  ∃ part text, parts[index]? = some part ∧ Text.Trimmed part text ∧ Text.Unsigned 16 text n.toNat

/-- A part is there and denotes a whole number of 64 bits with sign. -/
def Measures (parts : List (List Char)) (index : ℕ) (n : ℤ) : Prop :=
  ∃ part text, parts[index]? = some part ∧ Text.Trimmed part text ∧ Text.Signed 10 text n ∧
    -2 ^ 63 ≤ n ∧ n ≤ 2 ^ 63 - 1

/-! ## The text of a field -/

theorem fieldText_eq_iff : fieldText line index = String.ofList text ↔
    Says (fields line) index text := by
  rw [fieldText, String.ofList_inj, Says]
  cases (fields line)[index]? with
  | none => exact eq_comm
  | some part => exact Text.trimChars_eq_iff

/-- No number is read from nothing, so a field that denotes one is there. -/
theorem exists_part_iff {P : List Char → Prop} (h : ¬ P []) :
    (∃ part text, (fields line)[index]? = some part ∧ Text.Trimmed part text ∧ P text) ↔
      P (fieldText line index).toList := by
  rw [fieldText, String.toList_ofList]
  cases (fields line)[index]? with
  | none => simpa [Text.trimChars, Text.trimFront] using h
  | some part =>
      have hsame : ∀ text, Text.Trimmed part text ↔ Text.trimChars part = text :=
        fun _ => Text.trimChars_eq_iff.symm
      simp [hsame]

theorem counts_iff : Counts (fields line) index n ↔
    Text.unsigned? 16 UInt64.size (fieldText line index).toList = some n.toNat := by
  have hread : ∀ text, Text.unsigned? 16 UInt64.size text = some n.toNat ↔
      Text.Unsigned 16 text n.toNat := by
    intro text
    rw [Text.unsigned?_eq_some_iff (Nat.le_refl 16)]
    exact and_iff_left n.toNat_lt_size
  rw [hread, Counts]
  refine exists_part_iff fun h => ?_
  cases (hread []).mpr h

theorem measures_iff {m : ℤ} : Measures (fields line) index m ↔
    Text.integer? 10 Text.int64Bounds.1 Text.int64Bounds.2 (fieldText line index).toList = some m := by
  have hread : ∀ text, Text.integer? 10 Text.int64Bounds.1 Text.int64Bounds.2 text = some m ↔
      Text.Signed 10 text m ∧ -2 ^ 63 ≤ m ∧ m ≤ 2 ^ 63 - 1 :=
    fun text => Text.integer?_eq_some_iff (by decide)
  rw [hread, Measures]
  refine exists_part_iff fun h => ?_
  cases (hread []).mpr h

/-! ## Flow reports -/

namespace FlowReport

theorem counter_eq_ok_iff : counter line index name = .ok n ↔ Counts (fields line) index n := by
  rw [counts_iff]
  unfold counter
  dsimp only
  cases hread : Text.unsigned? 16 UInt64.size (fieldText line index).toList with
  | none => simp
  | some m =>
      have hlt : m < UInt64.size :=
        ((Text.unsigned?_eq_some_iff (Nat.le_refl 16)).mp hread).2
      rw [Except.ok.injEq, Option.some.injEq, ← UInt64.toNat_inj, UInt64.toNat_ofNat_of_lt' hlt]

theorem counter_eq_error_iff : counter line index name = .error failure ↔
    (¬ ∃ n, Counts (fields line) index n) ∧
      ∃ text, Says (fields line) index text ∧ failure = .invalidValue name (String.ofList text) := by
  have hsays : Says (fields line) index (fieldText line index).toList := by
    rw [← fieldText_eq_iff, String.ofList_toList]
  have honly : ∀ text, Says (fields line) index text → String.ofList text = fieldText line index :=
    fun text h => (fieldText_eq_iff.mpr h).symm
  constructor
  · intro h
    refine ⟨?_, _, hsays, ?_⟩
    · rintro ⟨n, hn⟩
      rw [counter_eq_ok_iff.mpr hn] at h
      cases h
    · unfold counter at h
      dsimp only at h
      split at h
      · cases h
      · rw [String.ofList_toList]
        exact (Except.error.inj h).symm
  · rintro ⟨hnone, text, htext, rfl⟩
    rw [honly text htext]
    cases hcounter : counter line index name with
    | ok n => exact absurd ⟨n, counter_eq_ok_iff.mp hcounter⟩ hnone
    | error other =>
        unfold counter at hcounter
        dsimp only at hcounter
        split at hcounter
        · cases hcounter
        · exact hcounter.symm

theorem counters_inj {report report' : FlowReport} (h : report.counters = report'.counters) :
    report = report' := by
  cases report
  cases report'
  simpa [counters] using h

/-- The counters are read in order, from the second part on. -/
theorem parse_map_counters (line : String) : (parse line).map counters =
    (names.zipIdx 1).mapM fun field => counter line field.2 field.1 := by
  simp only [parse, names, List.zipIdx_cons, List.zipIdx_nil, List.mapM_cons, List.mapM_nil]
  generalize counter line 1 "txrate" = a, counter line 2 "rxrate" = b,
    counter line 3 "txflow" = c, counter line 4 "rxflow" = d, counter line 5 "txqos" = e,
    counter line 6 "rxqos" = f
  cases a <;> cases b <;> cases c <;> cases d <;> cases e <;> cases f <;> rfl

theorem parse_eq_ok_iff {report : FlowReport} : parse line = .ok report ↔
    ∀ index n, report.counters[index]? = some n → Counts (fields line) (index + 1) n := by
  have hmap : parse line = .ok report ↔ (parse line).map counters = .ok report.counters := by
    cases parse line with
    | error failure => simp [Except.map]
    | ok other =>
        rw [Except.map, Except.ok.injEq, Except.ok.injEq]
        exact ⟨congrArg counters, counters_inj⟩
  have hrow : ∀ fields counts, List.Forall₂
      (fun (field : String × ℕ) n => counter line field.2 field.1 = .ok n) fields counts ↔
        List.Forall₂ (fun (field : String × ℕ) n => Counts (Modem.fields line) field.2 n)
          fields counts := by
    intro fields counts
    simp only [counter_eq_ok_iff]
  rw [hmap, parse_map_counters, Failure.mapM_eq_ok_iff, hrow, List.forall₂_iff_get]
  constructor
  · rintro ⟨-, hall⟩ index n hn
    obtain ⟨hlt, rfl⟩ := List.getElem?_eq_some_iff.mp hn
    have hcounts := hall index (by simpa [names, counters] using hlt) hlt
    simpa [Nat.add_comm] using hcounts
  · intro hall
    refine ⟨rfl, fun index hlt hlt' => ?_⟩
    have hcounts := hall index _ (List.getElem?_eq_getElem hlt')
    simpa [Nat.add_comm] using hcounts

theorem exists_parse_iff : (∃ report, parse line = .ok report) ↔
    ∀ index < 6, ∃ n, Counts (fields line) (index + 1) n := by
  constructor
  · rintro ⟨report, hparse⟩ index hlt
    exact ⟨_, parse_eq_ok_iff.mp hparse index _ (List.getElem?_eq_getElem hlt)⟩
  · intro h
    obtain ⟨a, ha⟩ := h 0 (by decide)
    obtain ⟨b, hb⟩ := h 1 (by decide)
    obtain ⟨c, hc⟩ := h 2 (by decide)
    obtain ⟨d, hd⟩ := h 3 (by decide)
    obtain ⟨e, he⟩ := h 4 (by decide)
    obtain ⟨f, hf⟩ := h 5 (by decide)
    refine ⟨⟨a, b, c, d, e, f⟩, ?_⟩
    simp only [parse, counter_eq_ok_iff.mpr ha, counter_eq_ok_iff.mpr hb,
      counter_eq_ok_iff.mpr hc, counter_eq_ok_iff.mpr hd, counter_eq_ok_iff.mpr he,
      counter_eq_ok_iff.mpr hf]
    rfl

/-- The first part that denotes no counter decides the failure. -/
theorem parse_eq_error_iff : parse line = .error failure ↔
    ∃ index name text, names[index]? = some name ∧
      (∀ earlier < index, ∃ n, Counts (fields line) (earlier + 1) n) ∧
      (¬ ∃ n, Counts (fields line) (index + 1) n) ∧
      Says (fields line) (index + 1) text ∧ failure = .invalidValue name (String.ofList text) := by
  have hmap : parse line = .error failure ↔ (parse line).map counters = .error failure := by
    cases parse line <;> simp [Except.map]
  rw [hmap, parse_map_counters, Failure.mapM_eq_error_iff]
  constructor
  · rintro ⟨before, ⟨name, number⟩, after, hsplit, hbefore, hfailure⟩
    have hplace : ∀ index, (names.zipIdx 1)[index]? = (names[index]?).map (·, index + 1) := by
      intro index
      rw [List.getElem?_zipIdx, Nat.add_comm]
    have hname := hplace before.length
    rw [hsplit, List.getElem?_append_right (Nat.le_refl _), Nat.sub_self, List.getElem?_cons_zero,
      eq_comm, Option.map_eq_some_iff] at hname
    obtain ⟨name', hname, hsame⟩ := hname
    cases hsame
    obtain ⟨hnone, text, htext, rfl⟩ := counter_eq_error_iff.mp hfailure
    refine ⟨before.length, name, text, hname, ?_, hnone, htext, rfl⟩
    intro earlier hlt
    obtain ⟨n, hn⟩ := hbefore _ (List.getElem_mem hlt)
    have hearlier := hplace earlier
    rw [hsplit, List.getElem?_append_left hlt, List.getElem?_eq_getElem hlt, eq_comm,
      Option.map_eq_some_iff] at hearlier
    obtain ⟨name', -, hsame⟩ := hearlier
    rw [← hsame] at hn
    exact ⟨n, counter_eq_ok_iff.mp hn⟩
  · rintro ⟨index, name, text, hname, hearlier, hnone, htext, rfl⟩
    obtain ⟨hlt, hname⟩ := List.getElem?_eq_some_iff.mp hname
    have hlt : index < (names.zipIdx 1).length := by simpa using hlt
    have hfield : (names.zipIdx 1)[index] = (name, index + 1) := by
      rw [List.getElem_zipIdx, hname, Nat.add_comm]
    refine ⟨(names.zipIdx 1).take index, (name, index + 1), (names.zipIdx 1).drop (index + 1), ?_,
      ?_, counter_eq_error_iff.mpr ⟨hnone, text, htext, rfl⟩⟩
    · rw [← hfield, List.getElem_cons_drop, List.take_append_drop]
    · intro field hfield
      obtain ⟨earlier, hlt', rfl⟩ := List.mem_iff_getElem.mp hfield
      rw [List.length_take] at hlt'
      obtain ⟨n, hn⟩ := hearlier earlier (by omega)
      refine ⟨n, ?_⟩
      rw [List.getElem_take, List.getElem_zipIdx, Nat.add_comm]
      exact counter_eq_ok_iff.mpr hn

end FlowReport

/-! ## Signal reports -/

theorem parseSignal_eq_ok_iff {reading : UInt32} : parseSignal line = .ok reading ↔
    ∃ n, Measures (fields line) 0 n ∧ (reading.toNat : ℤ) = max 0 (min n (2 ^ 32 - 1)) := by
  have hclamp : ∀ n : ℤ, UInt32.ofNat (min n.toNat (UInt32.size - 1)) = reading ↔
      (reading.toNat : ℤ) = max 0 (min n (2 ^ 32 - 1)) := by
    intro n
    have hsize : UInt32.size = 2 ^ 32 := rfl
    have hlt : min n.toNat (UInt32.size - 1) < UInt32.size := by omega
    rw [← UInt32.toNat_inj, UInt32.toNat_ofNat_of_lt' hlt]
    omega
  simp only [measures_iff]
  rw [parseSignal]
  cases hread : Text.integer? 10 Text.int64Bounds.1 Text.int64Bounds.2 (fieldText line 0).toList with
  | none => simp
  | some n => simp only [Except.ok.injEq, Option.some.injEq, exists_eq_left', hclamp]

theorem parseSignal_eq_error_iff : parseSignal line = .error failure ↔
    (¬ ∃ n, Measures (fields line) 0 n) ∧
      ∃ text, Says (fields line) 0 text ∧ failure = .invalidValue "rssi" (String.ofList text) := by
  have hsays : ∀ text, Says (fields line) 0 text ↔ fieldText line 0 = String.ofList text :=
    fun text => fieldText_eq_iff.symm
  simp only [measures_iff, hsays]
  rw [parseSignal]
  cases hread : Text.integer? 10 Text.int64Bounds.1 Text.int64Bounds.2 (fieldText line 0).toList with
  | some n => simp
  | none =>
      simp only [reduceCtorEq, exists_false, not_false_eq_true, true_and, Except.error.injEq]
      constructor
      · rintro rfl
        exact ⟨(fieldText line 0).toList, String.ofList_toList.symm, by rw [String.ofList_toList]⟩
      · rintro ⟨text, htext, rfl⟩
        rw [htext]

/-! ## All reports -/

/-- Of the parts of a line between its commas a flow report needs the second to the seventh, and takes
the counters that they denote, in order; else the first of them that denotes none decides the failure,
which tells its name and its text without blanks.  A signal report needs the first part, and takes the
whole number that it denotes, clamped to 32 bits without sign. -/
theorem readings_exact (line : String) :
    ∃ parts, Text.Separated ',' line.toList parts ∧
      ((∃ report, FlowReport.parse line = .ok report) ↔
        ∀ index < 6, ∃ n, Counts parts (index + 1) n) ∧
      (∀ report, FlowReport.parse line = .ok report ↔
        ∀ index n, report.counters[index]? = some n → Counts parts (index + 1) n) ∧
      (∀ failure, FlowReport.parse line = .error failure ↔
        ∃ index name text, FlowReport.names[index]? = some name ∧
          (∀ earlier < index, ∃ n, Counts parts (earlier + 1) n) ∧
          (¬ ∃ n, Counts parts (index + 1) n) ∧
          Says parts (index + 1) text ∧ failure = .invalidValue name (String.ofList text)) ∧
      (∀ reading, parseSignal line = .ok reading ↔
        ∃ n, Measures parts 0 n ∧ (reading.toNat : ℤ) = max 0 (min n (2 ^ 32 - 1))) ∧
      ∀ failure, parseSignal line = .error failure ↔ (¬ ∃ n, Measures parts 0 n) ∧
        ∃ text, Says parts 0 text ∧ failure = .invalidValue "rssi" (String.ofList text) :=
  ⟨fields line, Text.splitOn_eq_iff.mp rfl, FlowReport.exists_parse_iff,
    fun _ => FlowReport.parse_eq_ok_iff, fun _ => FlowReport.parse_eq_error_iff,
    fun _ => parseSignal_eq_ok_iff, fun _ => parseSignal_eq_error_iff⟩

end Modem
end Uplink
