import Uplink.Json.Numeral
import Uplink.Json.Printer
import Uplink.Proofs.Text.Numeral

/-!
# A whole number read back

A whole number is written with its decimal digits, the first of which is not a zero unless it is the
only one.  The reader takes the longest numeral it finds, so the number must not be followed by
anything that could continue it.
-/

namespace Uplink
namespace Json
namespace Numeral

open Text (head?_toDigits_of_length isDigit_of_mem_toDigits split_append toDigits_eq_cons)

/-- What comes next does not continue a numeral. -/
def Ends (rest : List Char) : Prop :=
  ∀ c ∈ rest.head?, c.isDigit = false ∧ c ≠ '.' ∧ c ≠ 'e' ∧ c ≠ 'E'

theorem ends_nil : Ends [] := by
  intro c hc
  cases hc

theorem ends_cons {c : Char} (h : c.isDigit = false ∧ c ≠ '.' ∧ c ≠ 'e' ∧ c ≠ 'E')
    (rest : List Char) : Ends (c :: rest) := by
  intro c' hc
  cases hc
  exact h

/-- The numeral as which a whole number is written. -/
def ofInt (n : ℤ) : Numeral :=
  ⟨decide (n < 0), Nat.toDigits 10 n.natAbs, none, none⟩

theorem readDigits?_append {digits rest : List Char} (hne : digits ≠ [])
    (hdigits : ∀ c ∈ digits, c.isDigit = true) (hends : Ends rest) :
    readDigits? (digits ++ rest) = some (digits, rest) := by
  obtain ⟨htake, hdrop⟩ := split_append hdigits fun c hc => (hends c hc).1
  simp [readDigits?, htake, hdrop, hne]

theorem readMagnitude?_toDigits (negative : Bool) (n : ℕ) {rest : List Char} (hends : Ends rest) :
    readMagnitude? negative (Nat.toDigits 10 n ++ rest) =
      some (⟨negative, Nat.toDigits 10 n, none, none⟩, rest) := by
  have hdigits : readDigits? (Nat.toDigits 10 n ++ rest) = some (Nat.toDigits 10 n, rest) :=
    readDigits?_append Nat.toDigits_ne_nil (fun c => isDigit_of_mem_toDigits) hends
  have hlead : (Nat.toDigits 10 n).head? ≠ some '0' ∨ (Nat.toDigits 10 n).length = 1 := by
    by_cases h : (Nat.toDigits 10 n).length = 1
    · exact Or.inr h
    · exact Or.inl (head?_toDigits_of_length h)
  have hwhole : readWhole? (Nat.toDigits 10 n ++ rest) = some (Nat.toDigits 10 n, rest) := by
    rw [readWhole?, hdigits]
    simpa using hlead
  have hplaces : readPlaces? rest = some (none, rest) := by
    cases rest with
    | nil => rfl
    | cons c rest => simp [readPlaces?, (hends c rfl).2.1]
  have hexponent : readExponent? rest = some (none, rest) := by
    cases rest with
    | nil => rfl
    | cons c rest => simp [readExponent?, (hends c rfl).2.2.1, (hends c rfl).2.2.2]
  simp [readMagnitude?, hwhole, hplaces, hexponent]

theorem toList_toString (n : ℤ) :
    (toString n).toList =
      if n < 0 then '-' :: Nat.toDigits 10 n.natAbs else Nat.toDigits 10 n.natAbs := by
  rw [Int.toString_eq_repr, Int.repr_eq_if]
  by_cases h : n < 0
  · have hneg : (-n).toNat = n.natAbs := by omega
    rw [if_neg (by omega), if_pos h, String.toList_append, Nat.toList_repr, hneg]
    rfl
  · have hpos : n.toNat = n.natAbs := by omega
    rw [if_pos (by omega), if_neg h, Nat.toList_repr, hpos]

/-- The first character of a whole number that is written is a digit or the sign. -/
theorem head_toString (n : ℤ) :
    ∃ c tail, (toString n).toList = c :: tail ∧ (c.isDigit = true ∨ c = '-') := by
  rw [toList_toString]
  by_cases h : n < 0
  · exact ⟨'-', _, if_pos h, Or.inr rfl⟩
  · rw [if_neg h]
    obtain ⟨c, tail, hdigits, hdigit⟩ := toDigits_eq_cons n.natAbs
    exact ⟨c, tail, hdigits, Or.inl hdigit⟩

/-- A whole number that was written is read as its numeral. -/
theorem read?_toString (n : ℤ) {rest : List Char} (hends : Ends rest) :
    read? ((toString n).toList ++ rest) = some (ofInt n, rest) := by
  rw [toList_toString]
  by_cases h : n < 0
  · rw [if_pos h, List.cons_append, read?, readMagnitude?_toDigits true _ hends]
    simp [ofInt, h]
  · have hread := readMagnitude?_toDigits false n.natAbs hends
    obtain ⟨c, tail, hdigits, hdigit⟩ := toDigits_eq_cons n.natAbs
    rw [if_neg h]
    unfold read?
    split
    · -- a digit is no minus sign
      rename_i rest' heq
      rw [hdigits, List.cons_append] at heq
      rw [(List.cons.inj heq).1] at hdigit
      exact absurd hdigit (by decide)
    · rw [hread]
      simp [ofInt, h]

/-- The numeral of a whole number denotes it, if the number fits 64 bits. -/
theorem number?_ofInt {n : ℤ} (hlow : -(UInt64.size : ℤ) ≤ 2 * n) (hhigh : n < UInt64.size) :
    (ofInt n).number? = some (.int n) := by
  have hint : (ofInt n).int? = some n := by
    unfold int? ofInt
    simp only [Text.ofDigits_toDigits (by decide : 1 < 10) (by decide), Option.isSome_none,
      Bool.or_false, Bool.false_eq_true, if_false, decide_eq_true_eq]
    by_cases h : n < 0
    · rw [if_pos h, if_pos (by omega)]
      exact congrArg some (by omega)
    · rw [if_neg h, if_pos (by omega)]
      exact congrArg some (by omega)
  rw [number?, hint]

end Numeral
end Json
end Uplink
