import Uplink.Link.Framing
import Uplink.Note
import Uplink.Text.Utf8

/-!
# Cutting responses out of a stream

A framer receives a stream in chunks and cuts out the responses, each from its opening bytes through
its closing bytes.  Outside a response it keeps only a tail that may still grow into the opening
bytes.

Without opening bytes nothing is a response.  Without closing bytes a response ends where the chunk
ends that completed its opening.
-/

namespace Uplink
namespace Link

/-- What a framer tells about a chunk. -/
inductive FrameEvent where
  /-- These bytes belong to no response. -/
  | skip (text : String)
  /-- A response starts in this chunk and does not end in it. -/
  | begin
  /-- A response that started before does not end in this chunk either. -/
  | middle
  /-- A response is complete. -/
  | response (text : String)
  deriving DecidableEq, Repr

/-- The note under which an event is published. -/
def FrameEvent.note : FrameEvent → Note
  | skip _ => .skip
  | begin => .begin
  | middle => .middle
  | response _ => .response

/-- Where the needle occurs first. -/
def findFirst? (needle : List UInt8) : List UInt8 → Option Nat
  | [] => if needle.isEmpty then some 0 else none
  | b :: rest =>
    if needle.isPrefixOf (b :: rest) then some 0 else (findFirst? needle rest).map (· + 1)

/-- The length of the longest proper initial part of `opening` with which some bytes end. -/
def partialLength (opening bytes : List UInt8) : Nat :=
  ((List.range opening.length).reverse.find? fun n => (opening.take n).isSuffixOf bytes).getD 0

/-- The state of a framer. -/
structure Framer where
  /-- How a response starts. -/
  opening : List UInt8
  /-- How a response ends. -/
  closing : List UInt8
  /-- The received bytes that have not been told about. -/
  buffer : List UInt8 := []
  /-- Whether the buffer starts with the opening bytes of a response. -/
  inResponse : Bool := false
  deriving DecidableEq, Repr

namespace Framer

/-- A framer for responses between two texts. -/
def of (opening closing : String) : Framer :=
  { opening := Text.utf8 opening, closing := Text.utf8 closing }

/-- Forget all received bytes. -/
def reset (framer : Framer) : Framer :=
  { framer with buffer := [], inResponse := false }

/-- Where the response ends with which some bytes start. -/
def endOf? (framer : Framer) (bytes : List UInt8) : Option Nat :=
  let start := framer.opening.length
  if framer.closing.isEmpty then some bytes.length
  else (findFirst? framer.closing (bytes.drop start)).map (start + · + framer.closing.length)

/-- Nothing is left after a response, or the response is not empty. -/
theorem endOf?_drop {framer : Framer} {bytes : List UInt8} {stop : Nat}
    (hopening : framer.opening ≠ []) (h : framer.endOf? bytes = some stop) :
    bytes.drop stop = [] ∨ (bytes.drop stop).length < bytes.length := by
  have hpos : 0 < framer.opening.length := List.length_pos_iff.2 hopening
  simp only [endOf?] at h
  split at h
  · simp only [Option.some.injEq] at h
    exact .inl (h ▸ List.drop_length)
  · obtain ⟨at', _, hstop⟩ := Option.map_eq_some_iff.1 h
    cases hrest : bytes.drop stop with
    | nil => exact .inl rfl
    | cons b rest =>
      have hlength := congrArg List.length hrest
      simp only [List.length_drop, List.length_cons] at hlength
      simp only [List.length_cons]
      omega

/-- How much is left to tell about some bytes: an opening found in them is a step, too. -/
def pending (inside : Bool) (rest : List UInt8) : Nat :=
  2 * rest.length + if inside then 0 else 1

theorem pending_response_lt (inside : Bool) {rest after : List UInt8}
    (h : after.length < rest.length) : pending false after < pending inside rest := by
  have hfalse : pending false after = 2 * after.length + 1 := rfl
  have hinside : 2 * rest.length ≤ pending inside rest := Nat.le_add_right _ _
  omega

theorem pending_opening_lt {inside : Bool} (rest : List UInt8) (start : Nat)
    (hinside : ¬ inside = true) : pending true (rest.drop start) < pending inside rest := by
  have hle : (rest.drop start).length ≤ rest.length := List.length_drop ▸ Nat.sub_le _ _
  have htrue : pending true (rest.drop start) = 2 * (rest.drop start).length := rfl
  have hfalse : pending inside rest = 2 * rest.length + 1 := by
    rw [pending, if_neg hinside]
  omega

/-- Tell about the bytes `rest`, of which nothing is known to belong to a response that has begun
unless `inside`.  `began` tells whether the opening bytes of the current response were completed by
the current chunk, and `found` holds the events so far, last first. -/
def cut (framer : Framer) (hopening : framer.opening ≠ []) (began : Bool) (found : List FrameEvent)
    (inside : Bool) (rest : List UInt8) : List FrameEvent × Bool × List UInt8 :=
  if hinside : inside then
    match h : framer.endOf? rest with
    | none => ((if began then .begin else .middle) :: found, true, rest)
    | some stop =>
      let found := .response (Text.lossy (rest.take stop)) :: found
      if hempty : rest.drop stop = [] then (found, false, [])
      else
        have := pending_response_lt inside ((endOf?_drop hopening h).resolve_left hempty)
        cut framer hopening began found false (rest.drop stop)
  else
    match findFirst? framer.opening rest with
    | some start =>
      have := pending_opening_lt rest start hinside
      cut framer hopening true found true (rest.drop start)
    | none =>
      let skipped := rest.take (rest.length - partialLength framer.opening rest)
      let kept := rest.drop (rest.length - partialLength framer.opening rest)
      (if skipped.isEmpty then found else .skip (Text.lossy skipped) :: found, false, kept)
  termination_by pending inside rest
  decreasing_by all_goals exact this

/-- Take a chunk: the framer afterwards and what it tells. -/
def push (framer : Framer) (chunk : List UInt8) : Framer × List FrameEvent :=
  if hopening : framer.opening = [] then
    (framer, if chunk.isEmpty then [] else [.skip (Text.lossy chunk)])
  else
    let (found, inResponse, buffer) :=
      framer.cut hopening false [] framer.inResponse (framer.buffer ++ chunk)
    ({ framer with buffer, inResponse }, found.reverse)

end Framer
end Link
end Uplink
