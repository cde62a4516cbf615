import Uplink.Proofs.Json.Value
import Uplink.Wire.Storage

/-!
# A stored message read back

The stored form of a message is a plain JSON value, so its text gives the value back.  What remains
is that every field is found under its key and read by the reader of its width, and that the value
of a tuple, which is written without a mark of its kind, is taken for the kind of its type code.
-/

namespace Uplink
namespace Wire

theorem plain_jsonOfByte (b : UInt8) : (jsonOfByte b).Plain :=
  Json.plain_nat (Nat.lt_trans b.toNat_lt_size (by decide))

theorem asUInt8?_jsonOfByte (b : UInt8) : (jsonOfByte b).asUInt8? = some b :=
  Json.asUInt8?_nat b

/-! ## Values and tuples -/

theorem Value.plain_toJson (value : Value) : value.toJson.Plain := by
  cases value with
  | int n =>
      have hlow : -2147483648 ≤ n.toInt := n.minValue_le_toInt
      have hhigh : n.toInt ≤ 2147483647 := n.toInt_le
      have hsize : (UInt64.size : ℤ) = 18446744073709551616 := rfl
      exact .int (by omega) (by omega)
  | text s => exact .string s
  | bytes bs =>
      exact Json.plain_array_map (fun b _ => plain_jsonOfByte b)
  | byte b => exact plain_jsonOfByte b

/-- A value is kept as it is, under one level of brackets at least. -/
theorem Value.kept?_toJson (value : Value) (levels : ℕ) :
    Json.kept? (levels + 1) value.toJson = some value.toJson := by
  cases value with
  | int n => rfl
  | text s => rfl
  | bytes bs =>
      have hbyte : ∀ b ∈ bs, Json.kept? levels (jsonOfByte b) = some (jsonOfByte b) := by
        intro b _
        cases levels <;> rfl
      rw [Value.toJson, Json.kept?, Json.mapM_map jsonOfByte hbyte, Option.map_some]
  | byte b => rfl

/-- The type code of a value tells how it is read. -/
theorem Value.ofJson?_toJson (value : Value) :
    Value.ofJson? value.type value.toJson = some value := by
  cases value with
  | int n => simp [Value.type, Value.toJson, Value.ofJson?, Json.asInt32?_int]
  | text s => rfl
  | bytes bs =>
      have hbytes := Json.asArray?_map (fun b (_ : b ∈ bs) => asUInt8?_jsonOfByte b)
      simp [Value.type, Value.toJson, Value.ofJson?, hbytes]
  | byte b => simp [Value.type, Value.toJson, Value.ofJson?, asUInt8?_jsonOfByte]

namespace Tuple

theorem plain_toJson (tuple : Tuple) : tuple.toJson.Plain := by
  refine .object ?_
  simp only [List.mem_cons, List.not_mem_nil, or_false]
  rintro member (rfl | rfl | rfl)
  · exact plain_jsonOfByte _
  · exact plain_jsonOfByte _
  · exact tuple.value.plain_toJson

theorem record?_toJson (tuple : Tuple) :
    Json.record? keys tuple.toJson = some ⟨[("type", jsonOfByte tuple.type),
      ("id", jsonOfByte tuple.id), ("value", tuple.value.toJson)]⟩ :=
  rfl

/-- A consistent tuple is read back. -/
theorem ofJson?_toJson {tuple : Tuple} (h : tuple.Consistent) (levels : ℕ) :
    ofJson? (levels + 1) tuple.toJson = some tuple := by
  have hvalue := Value.ofJson?_toJson tuple.value
  rw [← h] at hvalue
  simp [ofJson?, record?_toJson, Record.require_cons_self, Record.require_cons_of_ne,
    asUInt8?_jsonOfByte, Value.kept?_toJson, hvalue, ← h.eq_of]

end Tuple

namespace Message

theorem plain_toJson (message : Message) : message.toJson.Plain := by
  refine .object ?_
  simp only [List.mem_cons, List.not_mem_nil, or_false]
  rintro member (rfl | rfl | rfl | rfl | rfl | rfl | rfl)
  · exact plain_jsonOfByte _
  · exact plain_jsonOfByte _
  · exact plain_jsonOfByte _
  · exact plain_jsonOfByte _
  · exact Json.plain_nat (Nat.lt_trans message.sequence.toNat_lt_size (by decide))
  · exact Json.plain_nat message.timestamp.toNat_lt_size
  · exact Json.plain_array_map (fun tuple _ => tuple.plain_toJson)

theorem record?_toJson (message : Message) :
    Json.record? keys message.toJson = some ⟨[("majorVersion", jsonOfByte message.major),
      ("minorVersion", jsonOfByte message.minor), ("messageType", jsonOfByte message.type),
      ("eventCode", jsonOfByte message.event), ("sequenceNumber", .nat message.sequence.toNat),
      ("timestamp", .nat message.timestamp.toNat),
      ("tuples", .array (message.tuples.map Tuple.toJson))]⟩ :=
  rfl

/-- A consistent message is read back from its JSON value. -/
theorem ofJson?_toJson {message : Message} (h : message.Consistent) :
    ofJson? message.toJson = some message := by
  have hlevels : Json.documentLevels - 3 = 123 + 1 := rfl
  have htuples := Json.asArray?_map (fun tuple hmem => Tuple.ofJson?_toJson (h tuple hmem) 123)
  simp [ofJson?, record?_toJson, hlevels, Record.require_cons_self, Record.require_cons_of_ne,
    asUInt8?_jsonOfByte, Json.asUInt16?_nat, Json.asUInt64?_nat, htuples]

/-- A consistent message is read back from the text under which it is stored. -/
theorem ofStorage_toStorage {message : Message} (h : message.Consistent) :
    ofStorage message.toStorage = .ok message := by
  have hparse := Json.parse?_render message.plain_toJson
  rw [ofStorage, toStorage, hparse, Option.bind_some, ofJson?_toJson h]

end Message
end Wire
end Uplink
