import Uplink.Proofs.Wire.Size
import Uplink.Proofs.Wire.Storage

/-!
# From a queue to the wire

The type code of a stored tuple decides how its value is taken, so whatever a stored text denotes is
consistent.  Hence a message is read back from its text exactly if it is consistent, and a message
that was read from a text can be sent as a datagram, unless a length is too large for it.
-/

namespace Uplink
namespace Wire

theorem Tuple.consistent_of_ofJson? {levels : ℕ} {json : Json} {tuple : Tuple}
    (h : ofJson? levels json = some tuple) : tuple.Consistent := by
  simp only [ofJson?, bind, Option.bind_eq_some_iff, pure, Option.some.injEq] at h
  obtain ⟨record, -, type, -, id, -, kept, -, value, -, rfl⟩ := h
  exact consistent_of id value

namespace Message

variable {m : Message}

theorem consistent_of_ofJson? {json : Json} (h : ofJson? json = some m) : m.Consistent := by
  simp only [ofJson?, bind, Option.bind_eq_some_iff, pure, Option.some.injEq] at h
  obtain ⟨record, -, major, -, minor, -, type, -, event, -, sequence, -, timestamp, -, tuples,
    htuples, rfl⟩ := h
  intro tuple htuple
  obtain ⟨kept, -, hkept⟩ := Option.bind_eq_some_iff.mp htuples
  cases kept with
  | array items =>
      obtain ⟨item, -, hitem⟩ := Json.exists_of_mem_mapM hkept htuple
      exact Tuple.consistent_of_ofJson? hitem
  | _ => cases hkept

theorem consistent_of_ofStorage {text : String} (h : ofStorage text = .ok m) : m.Consistent := by
  cases hread : (Json.parse? text).bind ofJson? with
  | none =>
      rw [ofStorage, hread] at h
      cases h
  | some found =>
      rw [ofStorage, hread] at h
      cases h
      obtain ⟨json, -, hjson⟩ := Option.bind_eq_some_iff.mp hread
      exact consistent_of_ofJson? hjson

/-- A consistent message is decoded from its datagram. -/
theorem decode_of_encode {data : List UInt8} (h : m.Consistent) (hdata : m.encode = .ok data) :
    decode data = .ok m :=
  decode_eq_ok_iff_section.mpr (encode_consistent_iff.mp ⟨hdata, h⟩)

/-- The messages that are read back from their texts are the consistent ones, and so are all that
are read from any text.  Such a message has no datagram exactly if a text or some bytes in it are
too long, and else it is decoded from its datagram. -/
theorem stored_exactly :
    (∀ m : Message, ofStorage m.toStorage = .ok m ↔ m.Consistent) ∧
    ∀ (text : String) (m : Message), ofStorage text = .ok m →
      m.Consistent ∧ ofStorage m.toStorage = .ok m ∧
      ((∃ failure, m.encode = .error failure) ↔ ∃ t ∈ m.tuples, 65535 < t.value.counted) ∧
      ((∀ t ∈ m.tuples, t.value.counted ≤ 65535) →
        ∃ data, m.encode = .ok data ∧ decode data = .ok m) := by
  refine ⟨?_, ?_⟩
  · intro m
    constructor
    · exact consistent_of_ofStorage
    · exact ofStorage_toStorage
  · intro text m h
    have hconsistent := consistent_of_ofStorage h
    refine ⟨hconsistent, ofStorage_toStorage hconsistent, encode_eq_error_iff, ?_⟩
    intro hfits
    obtain ⟨data, hdata⟩ := exists_encode hfits
    exact ⟨data, hdata, decode_of_encode hconsistent hdata⟩

/-- All four kinds of values, a text that has to be escaped, and the latest timestamp. -/
theorem stored_exactly_escaped :
    let m : Message := {
      type := 0xcc, event := 255, sequence := 65535, timestamp := 18446744073709551615
      tuples := [.of 0 (.int (-42)), .of 1 (.text "a\"\n\u0001😀"), .of 2 (.bytes [0, 255]),
        .of 3 (.byte 9)] }
    ofStorage m.toStorage = .ok m ∧ ∃ data, m.encode = .ok data ∧ decode data = .ok m := by
  intro m
  have hconsistent : ∀ tuple ∈ m.tuples, tuple.Consistent := by decide
  have hstored : ofStorage m.toStorage = .ok m := (stored_exactly.1 m).mpr hconsistent
  obtain ⟨-, -, -, hsent⟩ := stored_exactly.2 m.toStorage m hstored
  have hfits : ∀ t ∈ m.tuples, t.value.counted ≤ 65535 := by decide
  exact ⟨hstored, hsent hfits⟩

end Message

end Wire
end Uplink
