import Uplink.Proofs.Wire.Burst

/-!
# Why a datagram is refused

A datagram is refused for its check byte exactly where its bytes leave a remainder.  Every other
refusal is for the form of the bytes: reading from the front never fails for another reason.
-/

namespace Uplink
namespace Wire

/-- If there is no result, then because of the form of the bytes. -/
def FailsForForm {α : Type} (outcome : Except Failure α) : Prop :=
  ∀ failure, outcome = .error failure → ∃ details, failure = .decode details

namespace FailsForForm

variable {α β : Type} {outcome : Except Failure α}

theorem ok (a : α) : FailsForForm (.ok a) := by
  intro failure h
  cases h

theorem decode (details : String) : FailsForForm (.error (.decode details) : Except Failure α) := by
  intro failure h
  cases h
  exact ⟨details, rfl⟩

theorem bind {next : α → Except Failure β} (h : FailsForForm outcome)
    (hnext : ∀ a, FailsForForm (next a)) : FailsForForm (outcome >>= next) := by
  intro failure hfailure
  cases outcome with
  | error first =>
      cases hfailure
      exact h failure rfl
  | ok a => exact hnext a failure hfailure

theorem map (h : FailsForForm outcome) (f : α → β) : FailsForForm (outcome.map f) := by
  intro failure hfailure
  cases outcome with
  | error first =>
      cases hfailure
      exact h failure rfl
  | ok a => cases hfailure

end FailsForForm

/-! ## Reading from the front -/

namespace Cursor

theorem failsForForm_take (count : ℕ) (c : Cursor) : FailsForForm (c.take count) := by
  by_cases h : (c.rest.take count).length = count
  · simp only [take, h, if_true]
    exact .ok _
  · simp only [take, h, if_false]
    exact .decode _

theorem failsForForm_number (width : ℕ) (c : Cursor) : FailsForForm (c.number width) :=
  (failsForForm_take width c).map _

theorem failsForForm_byte (c : Cursor) : FailsForForm c.byte :=
  (failsForForm_number 1 c).map _

theorem failsForForm_counted (c : Cursor) : FailsForForm c.counted :=
  (failsForForm_number 2 c).bind fun found => failsForForm_take found.1 found.2

theorem failsForForm_value (start : ℕ) (type : UInt8) (c : Cursor) :
    FailsForForm (c.value start type) := by
  simp only [value]
  split
  · exact (failsForForm_number 4 c).map _
  · apply (failsForForm_counted c).bind
    rintro ⟨bytes, next⟩
    dsimp only
    split
    · exact .ok _
    · exact .decode _
  · exact (failsForForm_counted c).map _
  · exact (failsForForm_byte c).map _
  · exact .decode _

theorem failsForForm_tuple (c : Cursor) : FailsForForm c.tuple := by
  apply (failsForForm_byte c).bind
  rintro ⟨type, afterType⟩
  apply (failsForForm_byte afterType).bind
  rintro ⟨id, afterId⟩
  apply (failsForForm_value c.offset type afterId).bind
  rintro ⟨value, next⟩
  exact .ok _

theorem failsForForm_tuples (found : List Tuple) (c : Cursor) :
    FailsForForm (c.tuples found) := by
  fun_induction Cursor.tuples found c with
  | case1 found c _ => exact .ok _
  | case2 found c _ failure hfailure =>
      intro other hother
      cases hother
      exact failsForForm_tuple c failure hfailure
  | case3 found c _ tuple next _ _ ih => exact ih

end Cursor

theorem Message.failsForForm_decodeBody (body : List UInt8) :
    FailsForForm (Message.decodeBody body) := by
  apply (Cursor.failsForForm_byte _).bind
  rintro ⟨major, c₁⟩
  apply (Cursor.failsForForm_byte c₁).bind
  rintro ⟨minor, c₂⟩
  apply (Cursor.failsForForm_byte c₂).bind
  rintro ⟨type, c₃⟩
  apply (Cursor.failsForForm_byte c₃).bind
  rintro ⟨event, c₄⟩
  apply (Cursor.failsForForm_number 2 c₄).bind
  rintro ⟨sequence, c₅⟩
  apply (Cursor.failsForForm_number 8 c₅).bind
  rintro ⟨timestamp, c₆⟩
  apply (Cursor.failsForForm_tuples [] c₆).bind
  intro tuples
  exact .ok _

/-! ## The check byte -/

theorem Message.decode_concat (body : List UInt8) (found : UInt8) :
    Message.decode (body ++ [found]) =
      if found = checksum body then Message.decodeBody body
      else .error (.checksum found (checksum body)) := by
  simp [Message.decode]

theorem Message.decode_sealed (body : List UInt8) :
    Message.decode (sealed body) = Message.decodeBody body := by
  rw [sealed, decode_concat, if_pos rfl]

/-- Behind some bytes only their check byte leaves nothing of the remainder. -/
theorem checksum_concat_eq_zero_iff {body : List UInt8} {found : UInt8} :
    checksum (body ++ [found]) = 0 ↔ found = checksum body := by
  constructor
  · intro h
    have hstep : checksum (body ++ [found]) = Checksum.step (checksum body) found := by
      simp [checksum]
    rw [hstep, Checksum.step, Checksum.shiftByte_eq] at h
    exact (UInt8.xor_eq_zero_iff.mp (Checksum.eq_zero_of_iterate_shift h)).symm
  · rintro rfl
    exact checksum_sealed body

/-- The check byte is the reason of a refusal exactly where the bytes leave a remainder. -/
theorem Message.decode_eq_checksum_iff {data : List UInt8} :
    (∃ found expected, Message.decode data = .error (.checksum found expected)) ↔
      checksum data ≠ 0 := by
  constructor
  · rintro ⟨found, expected, h⟩ hzero
    rcases List.eq_nil_or_concat' data with rfl | ⟨body, last, rfl⟩
    · cases h
    · rw [decode_concat, if_pos (checksum_concat_eq_zero_iff.mp hzero)] at h
      obtain ⟨details, hdetails⟩ := failsForForm_decodeBody body _ h
      cases hdetails
  · intro h
    obtain ⟨found, expected, -, hdecode⟩ := Message.decode_of_checksum_ne_zero h
    exact ⟨found, expected, hdecode⟩

end Wire
end Uplink
