import Mathlib.Data.List.Infix
import Mathlib.Data.List.TakeWhile
import Uplink.Proofs.Text.Numeral

/-!
# Parts and columns of a text

A text contains another one if the other one stands somewhere in it, in one piece.  The first column of
a line stands between blank characters, or the beginning, and a blank character, or the end.
-/

namespace Uplink
namespace Text

variable {needle line column : List Char} {text part : String}

theorem occursIn_iff {hay : List Char} : occursIn needle hay = true ↔ needle <:+: hay := by
  induction hay with
  | nil => simp [occursIn]
  | cons c hay ih =>
      rw [occursIn, Bool.or_eq_true, ih, List.isPrefixOf_iff_prefix, List.infix_cons_iff]

theorem contains_iff : contains text part = true ↔ part.toList <:+: text.toList :=
  occursIn_iff

/-- A line has a first column: the column is not empty and holds no blank, only blanks stand before it,
and no other character stands right after it. -/
def StartsWith (line column : List Char) : Prop :=
  column ≠ [] ∧ (∀ c ∈ column, isBlank c = false) ∧
    ∃ before after, line = before ++ column ++ after ∧ (∀ c ∈ before, isBlank c = true) ∧
      ∀ c ∈ after.head?, isBlank c = true

theorem firstColumn?_eq_some_iff : firstColumn? line = some column ↔ StartsWith line column := by
  unfold firstColumn? trimFront
  constructor
  · intro h
    dsimp only at h
    split at h
    · cases h
    · rename_i hempty
      obtain rfl := Option.some.inj h
      refine ⟨by simpa using hempty, ?_, line.takeWhile isBlank,
        (line.dropWhile isBlank).dropWhile (!isBlank ·), ?_, ?_, ?_⟩
      · intro c hc
        simpa using List.mem_takeWhile_imp hc
      · rw [List.append_assoc, List.takeWhile_append_dropWhile, List.takeWhile_append_dropWhile]
      · exact fun c hc => List.mem_takeWhile_imp hc
      · intro c hc
        have hhead := List.head?_dropWhile_not (fun c => !isBlank c) (line.dropWhile isBlank)
        rw [Option.mem_def.mp hc] at hhead
        simpa using hhead
  · rintro ⟨hne, hcolumn, before, after, rfl, hbefore, hafter⟩
    have hhead : ∀ c ∈ (column ++ after).head?, isBlank c = false := by
      intro c hc
      rw [List.head?_append_of_ne_nil column hne] at hc
      exact hcolumn c (List.mem_of_head? hc)
    have hrest : ((before ++ column ++ after).dropWhile isBlank) = column ++ after := by
      rw [List.append_assoc]
      exact (split_append hbefore hhead).2
    have htake : (column ++ after).takeWhile (fun c => !isBlank c) = column :=
      (split_append (by simpa using hcolumn) (by simpa using hafter)).1
    rw [hrest, htake]
    simpa using hne

end Text
end Uplink
