import Mathlib.Data.List.DropRight
import Uplink.Modem.Lines

/-!
# Lines do not depend on chunks

A stream is cut at its newlines into lines and a tail that has no newline.  In whatever chunks the
stream is received, the buffer holds the tail, and the lines it gave out are those of the stream: each
decoded by itself, without the carriage returns at its end, and without the empty ones.
-/

namespace Uplink
namespace Modem

/-- The newline. -/
def newline : UInt8 := 10

/-- The text of a line with the given bytes. -/
def lineOf (bytes : List UInt8) : String :=
  String.ofList ((Text.lossy bytes).toList.rdropWhile (· = '\r'))

/-- The texts of lines, without the empty ones. -/
def texts (lines : List (List UInt8)) : List String :=
  (lines.map lineOf).filter (· ≠ "")

/-- What stands in a stream before its newlines; what follows the last newline is no line. -/
def linesOf (stream : List UInt8) : List String :=
  texts (stream.splitOn newline).dropLast

/-! ## Cutting a stream -/

/-- The stream is a row of lines, each with its newline, and a tail without one. -/
structure Cut (stream : List UInt8) (lines : List (List UInt8)) (tail : List UInt8) : Prop where
  stream : stream = (lines.map (· ++ [newline])).flatten ++ tail
  lines : ∀ line ∈ lines, newline ∉ line
  tail : newline ∉ tail

section

variable {stream more tail tail' : List UInt8} {lines lines' : List (List UInt8)}

theorem Cut.nil (h : newline ∉ tail) : Cut tail [] tail :=
  ⟨rfl, by simp, h⟩

theorem Cut.cons {line : List UInt8} (h : Cut stream lines tail) (hline : newline ∉ line) :
    Cut (line ++ newline :: stream) (line :: lines) tail where
  stream := by
    rw [h.stream]
    simp
  lines := by
    intro other hother
    rcases List.mem_cons.mp hother with rfl | hrest
    · exact hline
    · exact h.lines other hrest
  tail := h.tail

/-- What comes after a stream is joined to its tail. -/
theorem Cut.append (h : Cut stream lines tail) (h' : Cut (tail ++ more) lines' tail') :
    Cut (stream ++ more) (lines ++ lines') tail' where
  stream := by
    have hmore := h'.stream
    rw [h.stream, List.append_assoc, hmore]
    simp
  lines := by
    intro line hline
    rcases List.mem_append.mp hline with hfirst | hsecond
    · exact h.lines line hfirst
    · exact h'.lines line hsecond
  tail := h'.tail

/-- There is one way to cut a stream. -/
theorem Cut.splitOn_eq (h : Cut stream lines tail) :
    stream.splitOn newline = lines ++ [tail] := by
  obtain ⟨rfl, hlines, htail⟩ := h
  induction lines with
  | nil => simpa using List.splitOn_eq_singleton htail
  | cons line lines ih =>
      have hline : newline ∉ line := hlines line (by simp)
      have hrest := ih (fun other hother => hlines other (by simp [hother]))
      rw [List.map_cons, List.flatten_cons, List.append_assoc, List.append_assoc,
        List.singleton_append, List.splitOn_append_cons_self, List.splitOn_eq_singleton hline, hrest]
      rfl

theorem Cut.linesOf_eq (h : Cut stream lines tail) : linesOf stream = texts lines := by
  rw [linesOf, h.splitOn_eq, List.dropLast_concat]

theorem texts_append (lines lines' : List (List UInt8)) :
    texts (lines ++ lines') = texts lines ++ texts lines' := by
  simp [texts]

end

namespace LineBuffer

/-! ## Taking a chunk -/

variable {buffer : LineBuffer} {chunk : List UInt8}

theorem lineText_eq (held : List UInt8) : lineText held = lineOf held.reverse :=
  rfl

/-- Lines that were found before stay where they are. -/
theorem foldl_step (found : List String) (now : LineBuffer × List String) (chunk : List UInt8) :
    chunk.foldl step (now.1, now.2 ++ found) =
      ((chunk.foldl step now).1, (chunk.foldl step now).2 ++ found) := by
  induction chunk generalizing now with
  | nil => rfl
  | cons b chunk ih =>
      have hstep : step (now.1, now.2 ++ found) b =
          ((step now b).1, (step now b).2 ++ found) := by
        unfold step
        split
        · dsimp only
          split <;> rfl
        · rfl
      rw [List.foldl_cons, List.foldl_cons, hstep, ih]

/-- A newline completes the line that is held. -/
theorem push_newline (buffer : LineBuffer) (chunk : List UInt8) :
    buffer.push (newline :: chunk) =
      ((push {} chunk).1, texts [buffer.held.reverse] ++ (push {} chunk).2) := by
  have hstep : step (buffer, []) newline = ({}, [] ++ texts [buffer.held.reverse]) := by
    simp only [step, newline, if_true, lineText_eq, texts, List.map_cons, List.map_nil]
    by_cases hempty : lineOf buffer.held.reverse = ""
    · simp [hempty]
    · simp [hempty]
  have hreverse : (texts [buffer.held.reverse]).reverse = texts [buffer.held.reverse] := by
    by_cases hempty : lineOf buffer.held.reverse = ""
    · simp [texts, hempty]
    · simp [texts, hempty]
  rw [push, List.foldl_cons, hstep, foldl_step _ ({}, []), List.reverse_append, hreverse, push]

/-- Any other byte is held. -/
theorem push_cons_of_ne {b : UInt8} (h : b ≠ newline) (buffer : LineBuffer) (chunk : List UInt8) :
    buffer.push (b :: chunk) = push ⟨b :: buffer.held⟩ chunk := by
  have hstep : step (buffer, []) b = (⟨b :: buffer.held⟩, []) := by
    simp only [step]
    exact if_neg h
  rw [push, List.foldl_cons, hstep, push]

/-- What is held and the chunk are cut; the lines are given out, and the tail is held. -/
theorem push_cut (h : newline ∉ buffer.held) (chunk : List UInt8) :
    ∃ lines, Cut (buffer.held.reverse ++ chunk) lines (buffer.push chunk).1.held.reverse ∧
      (buffer.push chunk).2 = texts lines := by
  induction chunk generalizing buffer with
  | nil => exact ⟨[], by simpa [push] using Cut.nil (by simpa using h), rfl⟩
  | cons b chunk ih =>
      by_cases hb : b = newline
      · subst hb
        have hempty : newline ∉ ({} : LineBuffer).held := by simp
        obtain ⟨lines, hcut, htexts⟩ := ih hempty
        rw [push_newline]
        refine ⟨buffer.held.reverse :: lines, hcut.cons (by simpa using h), ?_⟩
        rw [htexts, ← texts_append, List.singleton_append]
      · have hheld : newline ∉ b :: buffer.held := by simp [Ne.symm hb, h]
        obtain ⟨lines, hcut, htexts⟩ := @ih ⟨b :: buffer.held⟩ hheld
        rw [push_cons_of_ne hb]
        refine ⟨lines, ?_, htexts⟩
        simpa using hcut

/-- Every stream can be cut. -/
theorem exists_cut (stream : List UInt8) : ∃ lines tail, Cut stream lines tail := by
  have hempty : newline ∉ ({} : LineBuffer).held := by simp
  obtain ⟨lines, hcut, -⟩ := push_cut hempty stream
  exact ⟨lines, _, hcut⟩

/-- What follows the last newline is no line. -/
theorem linesOf_append {stream rest : List UInt8} (hrest : newline ∉ rest) :
    linesOf (stream ++ rest) = linesOf stream := by
  obtain ⟨lines, tail, hcut⟩ := exists_cut stream
  have htail : newline ∉ tail ++ rest := by simp [hcut.tail, hrest]
  rw [(hcut.append (Cut.nil htail)).linesOf_eq, List.append_nil, hcut.linesOf_eq]

/-! ## Taking a stream -/

/-- The buffer holds the tail of the stream that was received. -/
def Holds (buffer : LineBuffer) (stream : List UInt8) : Prop :=
  ∃ lines, Cut stream lines buffer.held.reverse

theorem holds_nil : Holds {} [] :=
  ⟨[], .nil (by simp)⟩

/-- A chunk adds to the lines of the stream those that it completes, and the buffer holds the tail
again. -/
theorem Holds.push {stream : List UInt8} (h : buffer.Holds stream) (chunk : List UInt8) :
    (buffer.push chunk).1.Holds (stream ++ chunk) ∧
      linesOf (stream ++ chunk) = linesOf stream ++ (buffer.push chunk).2 := by
  obtain ⟨lines, hcut⟩ := h
  obtain ⟨more, hmore, htexts⟩ := push_cut (by simpa using hcut.tail) chunk
  have happend := hcut.append hmore
  refine ⟨⟨lines ++ more, happend⟩, ?_⟩
  rw [happend.linesOf_eq, hcut.linesOf_eq, texts_append, htexts]

end LineBuffer
end Modem
end Uplink
