import Uplink.Link.Framing
import Uplink.Proofs.Json.Contents

/-!
# What a configured delimiter denotes

A delimiter is put between two marks and read as the document that this makes.  So the characters of a
delimiter are the contents of a string, or it denotes nothing: no mark in it can end the string before
the mark that was added.
-/

namespace Uplink
namespace Link

open Json (Contents)

section

variable {delimiter s : String}

theorem decodeDelimiter_of_contents (h : Contents delimiter.toList s.toList) :
    decodeDelimiter delimiter = s := by
  have hbefore : ∃ before, delimiter.toList ++ ['"'] = before ++ ['"'] ∧
      Contents before s.toList := ⟨_, rfl, h⟩
  obtain ⟨elements, hread, htext⟩ := Json.Literal.read_eq_some_iff.mpr hbefore
  simp only [decodeDelimiter, hread, htext, Option.getD_some]

theorem decodeDelimiter_of_not_contents (h : ∀ text, ¬ Contents delimiter.toList text) :
    decodeDelimiter delimiter = "" := by
  unfold decodeDelimiter
  split
  · rename_i elements hread
    cases htext : Json.Literal.text? elements with
    | none => rfl
    | some s =>
        obtain ⟨before, hbefore, hcontents⟩ := Json.Literal.read_eq_some_iff.mp ⟨_, hread, htext⟩
        obtain ⟨rfl, -⟩ := List.append_inj' hbefore rfl
        exact absurd hcontents (h _)
  · rfl

end

namespace Framing

/-- The four texts of a framing. -/
def parts : List (Framing → String) :=
  [commandStart, commandEnd, responseStart, responseEnd]

/-- Each text is decoded by itself. -/
theorem part_decoded {part : Framing → String} (hpart : part ∈ parts) (framing : Framing) :
    part framing.decoded = decodeDelimiter (part framing) := by
  simp only [parts, List.mem_cons, List.not_mem_nil, or_false] at hpart
  rcases hpart with rfl | rfl | rfl | rfl <;> rfl

/-- Each text of a decoded framing is the one that the configured text denotes, and is empty if the
configured text is not the contents of a string; and these are the contents for which the text between
two marks is a document with the value of a string.  A mark behind some contents makes the text denote
nothing, whatever follows.  The contents as which a string is written denote that string.  No text has
a say in how another one is decoded. -/
theorem decoded_denotes :
    (∀ part ∈ parts, ∀ framing : Framing,
      (∀ s, Contents (part framing).toList s.toList → part framing.decoded = s) ∧
      ((∀ text, ¬ Contents (part framing).toList text) → part framing.decoded = "") ∧
      (∀ s, Json.parse? ("\"" ++ part framing ++ "\"") = some (.string s) ↔
        Contents (part framing).toList s.toList) ∧
      (∀ before after text, part framing = before ++ "\"" ++ after →
        Contents before.toList text → part framing.decoded = "") ∧
      (∀ s, (Json.string s).render = "\"" ++ part framing ++ "\"" → part framing.decoded = s) ∧
      ∀ framing', part framing' = part framing → part framing'.decoded = part framing.decoded) ∧
    ∀ s, ∃ contents, (Json.string s).render = "\"" ++ contents ++ "\"" := by
  constructor
  · intro part hpart framing
    simp only [part_decoded hpart]
    refine ⟨fun s => decodeDelimiter_of_contents, decodeDelimiter_of_not_contents,
      fun s => Json.parse?_marked_iff, ?_, ?_, ?_⟩
    · intro before after text hpart hbefore
      refine decodeDelimiter_of_not_contents fun text' hcontents => ?_
      refine hbefore.not_append after.toList (?_ : Contents _ text')
      simpa [hpart] using hcontents
    · intro s hrender
      refine decodeDelimiter_of_contents (Json.parse?_marked_iff.mp ?_)
      rw [← hrender]
      exact Json.parse?_render (.string s)
    · intro framing' hsame
      rw [hsame]
  · intro s
    refine ⟨String.ofList (s.toList.flatMap Json.escape), String.toList_inj.mp ?_⟩
    rw [Json.toList_render, Json.spelled, Json.spelledString]
    simp

/-- A framing with a line end and a pair of code units, a mark, and half of a pair. -/
def escaped : Framing :=
  ⟨"\\r\\n", "\\ud83d\\ude00", "a\" ", "\\ud83d"⟩

/-- The escapes are decoded, and the other two texts denote nothing. -/
theorem decoded_denotes_escaped : escaped.decoded = ⟨"\r\n", "😀", "", ""⟩ := by
  obtain ⟨hparts, -⟩ := decoded_denotes
  obtain ⟨hstart, -⟩ := hparts commandStart (by simp [parts]) escaped
  obtain ⟨hend, -⟩ := hparts commandEnd (by simp [parts]) escaped
  obtain ⟨-, -, -, hmark, -⟩ := hparts responseStart (by simp [parts]) escaped
  obtain ⟨-, hnone, -⟩ := hparts responseEnd (by simp [parts]) escaped
  have hline : Contents "\\r\\n".toList "\r\n".toList :=
    .short (by decide) (.short (by decide) .nil)
  have hpair : Contents "\\ud83d\\ude00".toList "😀".toList :=
    .pair (Json.Literal.codeUnit?_eq_some_iff.mp rfl) (by decide) (by decide)
      (Json.Literal.codeUnit?_eq_some_iff.mp rfl) (by decide) (by decide) (by decide) .nil
  have hbefore : Contents "a".toList "a".toList :=
    .plain (by decide) (by decide) (by decide) .nil
  have hhalf : ∀ text, ¬ Contents "\\ud83d".toList text :=
    fun _ => Contents.not_half (Json.Literal.codeUnit?_eq_some_iff.mp rfl) (.inl (by decide))
  rw [Framing.mk.injEq]
  exact ⟨hstart _ hline, hend _ hpair, hmark "a" " " _ rfl hbefore, hnone hhalf⟩

end Framing
end Link
end Uplink
