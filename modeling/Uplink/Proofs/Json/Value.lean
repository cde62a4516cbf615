import Uplink.Json.Record
import Uplink.Proofs.Json.Document
import Uplink.Proofs.Keyed

/-!
# Parts of a document

A number that was written at some width is read at the same width, a sequence is read item by item,
and a field of a record is found behind the fields before it.
-/

namespace Uplink
namespace Json

/-! ## Numbers -/

theorem plain_nat {n : ℕ} (h : n < UInt64.size) : (nat n).Plain :=
  .int (by omega) (by omega)

theorem asNat?_nat {bound n : ℕ} (h : n < bound) : (nat n).asNat? bound = some n := by
  have hbounds : 0 ≤ (n : ℤ) ∧ (n : ℤ) < bound := by omega
  rw [nat, int, asNat?, if_pos hbounds, Int.toNat_natCast]

theorem asUInt8?_nat (n : UInt8) : (nat n.toNat).asUInt8? = some n := by
  rw [asUInt8?, asNat?_nat n.toNat_lt_size, Option.map_some, UInt8.ofNat_toNat]

theorem asUInt16?_nat (n : UInt16) : (nat n.toNat).asUInt16? = some n := by
  rw [asUInt16?, asNat?_nat n.toNat_lt_size, Option.map_some, UInt16.ofNat_toNat]

theorem asUInt64?_nat (n : UInt64) : (nat n.toNat).asUInt64? = some n := by
  rw [asUInt64?, asNat?_nat n.toNat_lt_size, Option.map_some, UInt64.ofNat_toNat]

theorem asUInt64?_int_iff {m : ℤ} {n : UInt64} :
    (number (.int m)).asUInt64? = some n ↔ m = n.toNat := by
  constructor
  · intro h
    obtain ⟨k, hk, rfl⟩ := Option.map_eq_some_iff.mp h
    obtain ⟨hbounds, hvalue⟩ := Option.ite_none_right_eq_some.mp hk
    obtain rfl := Option.some.inj hvalue
    have hsize : m.toNat < UInt64.size := by omega
    rw [UInt64.toNat_ofNat_of_lt' hsize, Int.toNat_of_nonneg hbounds.1]
  · rintro rfl
    exact asUInt64?_nat n

theorem asInt32?_int (n : Int32) : (int n.toInt).asInt32? = some n := by
  have hbounds : Int32.minValue.toInt ≤ n.toInt ∧ n.toInt ≤ Int32.maxValue.toInt :=
    ⟨n.minValue_le_toInt, n.toInt_le⟩
  rw [asInt32?, int, asInt?, if_pos hbounds, Option.map_some, Int32.ofInt_toInt]

/-! ## Sequences -/

section

variable {α : Type} {write : α → Json} {items : List α}

theorem plain_array_map (h : ∀ item ∈ items, (write item).Plain) :
    (array (items.map write)).Plain := by
  refine .array ?_
  intro json hjson
  obtain ⟨item, hitem, rfl⟩ := List.mem_map.mp hjson
  exact h item hitem

/-- What is read from every item is read from the sequence. -/
theorem mapM_map {β : Type} {read : Json → Option β} (result : α → β)
    (h : ∀ item ∈ items, read (write item) = some (result item)) :
    (items.map write).mapM read = some (items.map result) := by
  induction items with
  | nil => rfl
  | cons item items ih =>
      have hitem := h item List.mem_cons_self
      have hitems := ih (fun other hmem => h other (List.mem_cons_of_mem item hmem))
      rw [List.map_cons, List.mapM_cons, hitem, hitems]
      rfl

theorem asArray?_map {read : Json → Option α} (h : ∀ item ∈ items, read (write item) = some item) :
    asArray? read (array (items.map write)) = some items := by
  rw [asArray?, mapM_map id h, List.map_id]

/-- Whatever is read from a sequence is read from one of its items. -/
theorem exists_of_mem_mapM {read : Json → Option α} {values : List Json}
    (h : values.mapM read = some items) {item : α} (hitem : item ∈ items) :
    ∃ value ∈ values, read value = some item := by
  induction values generalizing items with
  | nil =>
      cases h
      cases hitem
  | cons value values ih =>
      rw [List.mapM_cons] at h
      obtain ⟨first, hfirst, h⟩ := Option.bind_eq_some_iff.mp h
      obtain ⟨others, hothers, h⟩ := Option.bind_eq_some_iff.mp h
      cases h
      rcases List.mem_cons.mp hitem with rfl | hmem
      · exact ⟨value, List.mem_cons_self, hfirst⟩
      · obtain ⟨other, hother, hread⟩ := ih hothers hmem
        exact ⟨other, List.mem_cons_of_mem value hother, hread⟩

end
end Json

/-! ## Records -/

namespace Record

variable {σ α : Type} {field : String} {rest : List (String × σ)} (read : σ → Option α) (value : σ)

theorem require_cons_self : require ⟨(field, value) :: rest⟩ field read = read value := by
  simp [require, get?]

/-- A field is found behind another one. -/
theorem require_cons_of_ne {other : String} (h : field ≠ other) :
    require ⟨(other, value) :: rest⟩ field read = require ⟨rest⟩ field read := by
  have hne : (field == other) = false := beq_false_of_ne h
  simp [require, get?, List.lookup_cons, hne]

theorem unrepeated_iff {names : List String} : unrepeated names = true ↔ names.Nodup := by
  induction names with
  | nil => simp [unrepeated]
  | cons name names ih => simp [unrepeated, ih]

/-- Where no name occurs twice there is a record, and it has the members with the names of fields. -/
theorem exists_ofMembers? {members : List (String × σ)} (h : (members.map Prod.fst).Nodup)
    (fields : List String) :
    ∃ record, ofMembers? fields members = some record ∧
      ∀ name ∈ fields, record.get? name = members.lookup name := by
  have hknown :
      unrepeated ((members.filter fun member => fields.contains member.1).map Prod.fst) = true :=
    unrepeated_iff.mpr (h.sublist (List.filter_sublist.map Prod.fst))
  refine ⟨_, if_pos hknown, ?_⟩
  intro name hname
  exact Keyed.lookup_filter (List.contains_iff_mem.mpr hname) members

end Record

/-- An overlay has the new members, and those of the old ones that are not named again. -/
theorem Json.exists_record?_overlay (names : List String) (members fields : List (String × Json)) :
    ∃ record, record? names ((object members).overlay fields) = some record ∧
      ∀ name ∈ names, record.get? name =
        (fields.reverse.lookup name).or (members.reverse.lookup name) := by
  have hsorted := (Keyed.sorted_ofList members).insertAll fields
  obtain ⟨record, hrecord, hget⟩ := Record.exists_ofMembers? hsorted.nodup names
  refine ⟨record, hrecord, ?_⟩
  intro name hname
  rw [hget name hname, ← Keyed.find?_eq_lookup, Keyed.find?_insertAll, Keyed.ofList,
    Keyed.find?_insertAll, Keyed.find?_nil, Option.or_none]

end Uplink
