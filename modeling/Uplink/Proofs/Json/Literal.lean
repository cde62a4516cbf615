import Mathlib.Data.Nat.Notation
import Uplink.Json.Literal
import Uplink.Json.Printer

/-!
# A string literal read back

The printer escapes a character by itself, without regard to its neighbours.  The reader finds one
element for each character, and since no escape that is written is half of a pair, the elements
denote the characters one by one.
-/

namespace Uplink
namespace Json
namespace Literal

/-- The element as which a character is written. -/
def elementOf (c : Char) : Element :=
  if c = '\x08' ∨ c = '\x0c' ∨ c = '\n' ∨ c = '\r' ∨ c = '\t' then .plain c
  else if c < ' ' then .unit c.toNat
  else .plain c

theorem toNat_lt_of_lt_space {c : Char} (h : c < ' ') : c.toNat < 32 :=
  h

theorem hexValue?_digitChar {n : ℕ} (h : n < 16) : hexValue? (Nat.digitChar n) = some n := by
  have hall : ∀ k < 16, hexValue? (Nat.digitChar k) = some k := by decide
  exact hall n h

theorem codeUnit?_digitChar {n : ℕ} (h : n < 256) :
    codeUnit? '0' '0' (Nat.digitChar (n / 16)) (Nat.digitChar (n % 16)) = some n := by
  have hzero : hexValue? '0' = some 0 := by decide
  have hhigh := hexValue?_digitChar (n := n / 16) (by omega)
  have hlow := hexValue?_digitChar (n := n % 16) (by omega)
  simp only [codeUnit?, hzero, hhigh, hlow, Option.bind_eq_bind, Option.bind_some]
  exact congrArg some (by omega)

/-- A character that needs no escape is read as itself. -/
theorem read_plain {c : Char} (hquote : c ≠ '"') (hback : c ≠ '\\') (hspace : ¬ c < ' ')
    (found : List Element) (rest : List Char) :
    read found (c :: rest) = read (.plain c :: found) rest := by
  rw [read.eq_def]
  split
  · simp_all
  · simp_all
  · simp_all
  · simp_all
  · rename_i heq
    obtain ⟨rfl, rfl⟩ := List.cons.inj heq
    rw [if_neg hspace]

/-- One element is found for a character that was written. -/
theorem read_escape (c : Char) (found : List Element) (rest : List Char) :
    read found (escape c ++ rest) = read (elementOf c :: found) rest := by
  -- the short escapes are read by computation, whatever follows
  by_cases hshort : c ∈ ['"', '\\', '\x08', '\x0c', '\n', '\r', '\t']
  · simp only [List.mem_cons, List.not_mem_nil, or_false] at hshort
    rcases hshort with rfl | rfl | rfl | rfl | rfl | rfl | rfl <;> rfl
  simp only [List.mem_cons, List.not_mem_nil, or_false, not_or] at hshort
  obtain ⟨hquote, hback, hbell, hfeed, hline, hreturn, htab⟩ := hshort
  -- of the rest only the control characters are escaped
  by_cases hspace : c < ' '
  · have hlt : c.toNat < 256 := Nat.lt_trans (toNat_lt_of_lt_space hspace) (by decide)
    have helement : elementOf c = .unit c.toNat := by
      simp [elementOf, hbell, hfeed, hline, hreturn, htab, hspace]
    have hescape : escape c = ['\\', 'u', '0', '0', Nat.digitChar (c.toNat / 16),
        Nat.digitChar (c.toNat % 16)] := by
      simp [escape, hquote, hback, hbell, hfeed, hline, hreturn, htab, hspace]
    rw [helement, hescape]
    simp only [List.cons_append, List.nil_append, read, codeUnit?_digitChar hlt]
  · have helement : elementOf c = .plain c := by
      simp [elementOf, hspace]
    have hescape : escape c = [c] := by
      simp [escape, hquote, hback, hbell, hfeed, hline, hreturn, htab, hspace]
    rw [helement, hescape]
    exact read_plain hquote hback hspace found rest

/-- The elements of a text that was written are found, up to the closing mark. -/
theorem read_flatMap_escape (cs : List Char) (found : List Element) (rest : List Char) :
    read found (cs.flatMap escape ++ '"' :: rest) =
      some (found.reverse ++ cs.map elementOf, rest) := by
  induction cs generalizing found with
  | nil => simp [read]
  | cons c cs ih =>
      rw [List.flatMap_cons, List.append_assoc, read_escape, ih]
      simp

/-- A code unit that is no half of a pair denotes its character, whatever follows it. -/
theorem denoted?_unit {n : ℕ} (h : n < 0xd800) (found : List Char) (rest : List Element) :
    denoted? found (.unit n :: rest) = denoted? (Char.ofNat n :: found) rest := by
  have hhigh : isHigh n = false := by
    simp [isHigh]
    omega
  have hlow : isLow n = false := by
    simp [isLow]
    omega
  rcases rest with _ | ⟨c | low, rest⟩ <;> simp [denoted?, hhigh, hlow]

theorem denoted?_elementOf (c : Char) (found : List Char) (rest : List Element) :
    denoted? found (elementOf c :: rest) = denoted? (c :: found) rest := by
  unfold elementOf
  split
  · rfl
  split
  · rename_i hspace
    have hlt : c.toNat < 0xd800 := Nat.lt_trans (toNat_lt_of_lt_space hspace) (by decide)
    rw [denoted?_unit hlt, Char.ofNat_toNat]
  · rfl

theorem denoted?_map_elementOf (cs found : List Char) :
    denoted? found (cs.map elementOf) = some (found.reverse ++ cs) := by
  induction cs generalizing found with
  | nil => simp [denoted?]
  | cons c cs ih =>
      rw [List.map_cons, denoted?_elementOf, ih]
      simp

/-- The elements of a text denote it. -/
theorem text?_map_elementOf (s : String) : text? (s.toList.map elementOf) = some s := by
  simp [text?, denoted?_map_elementOf]

end Literal
end Json
end Uplink
