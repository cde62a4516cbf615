import Uplink.Proofs.Failure
import Uplink.Proofs.Wire.Datagram

/-!
# The room that a message takes

A text and a row of bytes stand behind their length, for which there are two bytes.  So a message has
a datagram exactly if no length is too large, and then each tuple takes as many bytes as its value
calls for.
-/

namespace Uplink
namespace Wire

/-- How many bytes of a value stand behind their length. -/
def Value.counted : Value → ℕ
  | .text s => (Text.utf8 s).length
  | .bytes bs => bs.length
  | _ => 0

/-- How many bytes a tuple takes, its type code and its number included. -/
def Tuple.size (tuple : Tuple) : ℕ :=
  match tuple.value with
  | .int _ => 6
  | .text _ | .bytes _ => 4 + tuple.value.counted
  | .byte _ => 3

theorem encodeCounted_of_le {bytes : List UInt8} (h : bytes.length ≤ 65535) :
    encodeCounted bytes = .ok (bigEndian 2 bytes.length ++ bytes) :=
  Cursor.encodeCounted_eq_ok_iff.mpr ⟨Nat.lt_succ_of_le h, rfl⟩

theorem encodeCounted_of_lt {bytes : List UInt8} (h : 65535 < bytes.length) :
    encodeCounted bytes = .error (.invalidValue "tuple" (toString bytes.length ++ " bytes")) :=
  if_neg (Nat.not_lt_of_le h)

namespace Tuple

variable {t : Tuple} {coded : List UInt8}

theorem exists_encode (h : t.value.counted ≤ 65535) : ∃ coded, t.encode = .ok coded := by
  have hvalue : ∃ value, t.value.encode = .ok value := by
    cases hv : t.value with
    | int n => exact ⟨_, rfl⟩
    | text s =>
        rw [hv] at h
        exact ⟨_, encodeCounted_of_le h⟩
    | bytes bs =>
        rw [hv] at h
        exact ⟨_, encodeCounted_of_le h⟩
    | byte b => exact ⟨_, rfl⟩
  obtain ⟨value, hvalue⟩ := hvalue
  exact ⟨_, encode_eq_ok_iff.mpr ⟨value, hvalue, rfl⟩⟩

/-- A length that is too large is the reason why a tuple has no bytes. -/
theorem encode_of_lt (h : 65535 < t.value.counted) :
    t.encode = .error (.invalidValue "tuple" (toString t.value.counted ++ " bytes")) := by
  have hvalue : t.value.encode =
      .error (.invalidValue "tuple" (toString t.value.counted ++ " bytes")) := by
    cases hv : t.value with
    | int n => simp [hv, Value.counted] at h
    | text s =>
        rw [hv] at h
        exact encodeCounted_of_lt h
    | bytes bs =>
        rw [hv] at h
        exact encodeCounted_of_lt h
    | byte b => simp [hv, Value.counted] at h
  rw [encode, hvalue]
  rfl

theorem length_of_encode (h : t.encode = .ok coded) : coded.length = t.size := by
  have hcounted : ∀ {bytes coded : List UInt8}, encodeCounted bytes = .ok coded →
      coded.length = 2 + bytes.length := by
    intro bytes coded hcoded
    obtain ⟨-, rfl⟩ := Cursor.encodeCounted_eq_ok_iff.mp hcoded
    rw [List.length_append, length_bigEndian]
  obtain ⟨value, hvalue, rfl⟩ := encode_eq_ok_iff.mp h
  rw [List.length_cons, List.length_cons]
  cases hv : t.value with
  | int n =>
      rw [hv] at hvalue
      cases hvalue
      simp [size, hv]
  | text s =>
      rw [hv] at hvalue
      simp only [size, hv, Value.counted, hcounted hvalue]
      omega
  | bytes bs =>
      rw [hv] at hvalue
      simp only [size, hv, Value.counted, hcounted hvalue]
      omega
  | byte b =>
      rw [hv] at hvalue
      cases hvalue
      simp [size, hv]

end Tuple

namespace Message

variable {m : Message}

theorem exists_encode (h : ∀ t ∈ m.tuples, t.value.counted ≤ 65535) :
    ∃ data, m.encode = .ok data := by
  obtain ⟨coded, hcoded⟩ := Failure.exists_mapM fun t ht => Tuple.exists_encode (h t ht)
  rw [encode, hcoded]
  exact ⟨_, rfl⟩

/-- The first tuple with a length that is too large decides the failure. -/
theorem encode_of_find? {t : Tuple}
    (h : m.tuples.find? (fun t => decide (65535 < t.value.counted)) = some t) :
    m.encode = .error (.invalidValue "tuple" (toString t.value.counted ++ " bytes")) := by
  obtain ⟨hlarge, before, after, hsplit, hbefore⟩ := List.find?_eq_some_iff_append.mp h
  have hsmall : ∀ other ∈ before, ∃ coded, other.encode = .ok coded := by
    intro other hother
    apply Tuple.exists_encode
    simpa using hbefore other hother
  have hfails := Tuple.encode_of_lt (of_decide_eq_true hlarge)
  rw [encode, hsplit, Failure.mapM_append_cons hsmall hfails]
  rfl

/-- A message has no datagram exactly if some length is too large. -/
theorem encode_eq_error_iff :
    (∃ failure, m.encode = .error failure) ↔ ∃ t ∈ m.tuples, 65535 < t.value.counted := by
  constructor
  · rintro ⟨failure, hfailure⟩
    by_contra hnone
    have hsmall : ∀ t ∈ m.tuples, t.value.counted ≤ 65535 := by
      intro t ht
      exact Nat.le_of_not_lt fun hlarge => hnone ⟨t, ht, hlarge⟩
    obtain ⟨data, hdata⟩ := exists_encode hsmall
    rw [hfailure] at hdata
    cases hdata
  · rintro ⟨t, ht, hlarge⟩
    have hfound : (m.tuples.find? fun t => decide (65535 < t.value.counted)).isSome = true :=
      List.find?_isSome.mpr ⟨t, ht, decide_eq_true hlarge⟩
    obtain ⟨first, hfirst⟩ := Option.isSome_iff_exists.mp hfound
    exact ⟨_, encode_of_find? hfirst⟩

end Message

/-- Tuples one after another take the room that each of them takes. -/
theorem TupleSection.length {ts : List Tuple} {bytes : List UInt8} (h : TupleSection ts bytes) :
    bytes.length = (ts.map Tuple.size).sum := by
  induction ts generalizing bytes with
  | nil =>
      rw [tupleSection_nil.mp h]
      rfl
  | cons t ts ih =>
      obtain ⟨-, coded, rest, hcoded, rfl, hrest⟩ := tupleSection_cons.mp h
      rw [List.length_append, Tuple.length_of_encode hcoded, ih hrest, List.map_cons,
        List.sum_cons]

end Wire
end Uplink
