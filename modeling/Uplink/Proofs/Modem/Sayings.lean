import Uplink.Modem.Session
import Uplink.Proofs.Modem.Lines

/-!
# What lines say

A line says one thing at most: it tells an event, or it is an error.  Which it is depends on the line
and, if the line belongs to no report, on the lines before it that were picked for the identity.  To
handle lines in order is to publish what they say, in order; nothing else of the session matters for
it, and nothing else of the session changes.
-/

namespace Uplink
namespace Modem

/-- What a line says, if it says anything. -/
inductive Saying where
  /-- The line tells something. -/
  | event (event : Event)
  /-- The line cannot be used. -/
  | error
  deriving DecidableEq, Repr

namespace Saying

/-- What is published. -/
def event? : Saying → Option Event
  | .event e => some e
  | .error => none

/-- What is noted. -/
def note? : Saying → Option Note
  | .event _ => none
  | .error => some .error

/-- A report is told if it can be read. -/
def ofReport {α : Type} (event : α → Event) : Except Failure α → Saying
  | .ok value => .event (event value)
  | .error _ => .error

/-- The identity is told if it is resolved. -/
def ofResolution : Resolution → Saying
  | .resolved identity => .event (.identity identity)
  | .unknown => .error

end Saying

open Session in
/-- What a line says, and the search for the identity after it: the line is a flow report, or else a
signal report, or else it is considered for the identity. -/
def interpret (tracker : IdentityTracker) (line : String) : IdentityTracker × Option Saying :=
  match afterTag? FlowReport.tag line with
  | some data => (tracker, some (.ofReport .flow (FlowReport.parse data)))
  | none =>
    match afterTag? signalTag line with
    | some data => (tracker, some (.ofReport .signal (parseSignal data)))
    | none => ((tracker.consider line).1, (tracker.consider line).2.map .ofResolution)

/-- What lines say, one after another, and the search for the identity after them. -/
def discuss (tracker : IdentityTracker) : List String → IdentityTracker × List Saying
  | [] => (tracker, [])
  | line :: lines =>
    let rest := discuss (interpret tracker line).1 lines
    (rest.1, (interpret tracker line).2.toList ++ rest.2)

section

variable {tag line data : String} {tracker : IdentityTracker}

/-- The text after a tag is what makes the line together with the tag. -/
theorem afterTag?_eq_some_iff : Session.afterTag? tag line = some data ↔ line = tag ++ data := by
  unfold Session.afterTag?
  dsimp only
  constructor
  · intro h
    split at h
    · rename_i hprefix
      obtain ⟨rest, hrest⟩ := List.isPrefixOf_iff_prefix.mp hprefix
      cases h
      rw [← String.toList_inj, String.toList_append, String.toList_ofList, ← hrest]
      simp
    · cases h
  · rintro rfl
    have hprefix : tag.toList.isPrefixOf (tag ++ data).toList = true := by
      rw [List.isPrefixOf_iff_prefix, String.toList_append]
      exact List.prefix_append _ _
    rw [if_pos hprefix]
    simp

/-- A line is a flow report, or a signal report, or it is considered for the identity. -/
theorem interpret_cases (tracker : IdentityTracker) (line : String) :
    (∃ data, line = FlowReport.tag ++ data ∧
      interpret tracker line = (tracker, some (.ofReport .flow (FlowReport.parse data)))) ∨
    (∃ data, line = signalTag ++ data ∧
      interpret tracker line = (tracker, some (.ofReport .signal (parseSignal data)))) ∨
    (∀ data, line ≠ FlowReport.tag ++ data) ∧ (∀ data, line ≠ signalTag ++ data) ∧
      interpret tracker line =
        ((tracker.consider line).1, (tracker.consider line).2.map .ofResolution) := by
  have hne : ∀ {tag data}, Session.afterTag? tag line = none → line ≠ tag ++ data := by
    intro tag data hnone hline
    rw [afterTag?_eq_some_iff.mpr hline] at hnone
    cases hnone
  cases hflow : Session.afterTag? FlowReport.tag line with
  | some data =>
      refine .inl ⟨data, afterTag?_eq_some_iff.mp hflow, ?_⟩
      simp only [interpret, hflow]
  | none =>
      cases hsignal : Session.afterTag? signalTag line with
      | some data =>
          refine .inr (.inl ⟨data, afterTag?_eq_some_iff.mp hsignal, ?_⟩)
          simp only [interpret, hflow, hsignal]
      | none =>
          refine .inr (.inr ⟨fun _ => hne hflow, fun _ => hne hsignal, ?_⟩)
          simp only [interpret, hflow, hsignal]

/-- No line says more than one thing. -/
theorem length_discuss_le (tracker : IdentityTracker) (lines : List String) :
    (discuss tracker lines).2.length ≤ lines.length := by
  induction lines generalizing tracker with
  | nil => exact le_rfl
  | cons line lines ih =>
      have hrest := ih (interpret tracker line).1
      have hline : (interpret tracker line).2.toList.length ≤ 1 := by
        cases (interpret tracker line).2 <;> simp
      simp only [discuss, List.length_append, List.length_cons]
      omega

theorem discuss_append (tracker : IdentityTracker) (lines lines' : List String) :
    discuss tracker (lines ++ lines') =
      ((discuss (discuss tracker lines).1 lines').1,
        (discuss tracker lines).2 ++ (discuss (discuss tracker lines).1 lines').2) := by
  induction lines generalizing tracker with
  | nil => rfl
  | cons line lines ih => simp only [List.cons_append, discuss, ih, List.append_assoc]

end

theorem publishAll_append {α : Type} (feed : Feed α) (items items' : List α) :
    feed.publishAll (items ++ items') = (feed.publishAll items).publishAll items' :=
  List.foldl_append

namespace Session

/-- The session after some sayings, with the search for the identity as it is then. -/
def hear (s : Session) (tracker : IdentityTracker) (sayings : List Saying) : Session :=
  { s with tracker, events := s.events.publishAll (sayings.filterMap Saying.event?) }

theorem publish_eq (s : Session) {α : Type} (event : α → Event) (report : Except Failure α) :
    s.publish event report =
      (s.hear s.tracker [.ofReport event report],
        [Saying.ofReport event report].filterMap Saying.note?) := by
  cases report <;> rfl

theorem consider_eq (s : Session) (line : String) :
    s.consider line =
      (s.hear (s.tracker.consider line).1 ((s.tracker.consider line).2.map .ofResolution).toList,
        ((s.tracker.consider line).2.map Saying.ofResolution).toList.filterMap Saying.note?) := by
  unfold consider
  dsimp only
  split
  · rename_i h
    rw [h]
    rfl
  · rename_i h
    rw [h]
    rfl
  · rename_i h
    rw [h]
    rfl

theorem handleLine_eq (s : Session) (line : String) :
    s.handleLine line =
      (s.hear (interpret s.tracker line).1 (interpret s.tracker line).2.toList,
        (interpret s.tracker line).2.toList.filterMap Saying.note?) := by
  cases hflow : afterTag? FlowReport.tag line with
  | some data =>
      simp only [handleLine, interpret, hflow]
      exact s.publish_eq ..
  | none =>
      cases hsignal : afterTag? signalTag line with
      | some data =>
          simp only [handleLine, interpret, hflow, hsignal]
          exact s.publish_eq ..
      | none =>
          simp only [handleLine, interpret, hflow, hsignal]
          exact s.consider_eq line

/-- To handle lines is to publish what they say. -/
theorem handleLines_eq (s : Session) (notes : List Note) (lines : List String) :
    s.handleLines notes lines =
      (s.hear (discuss s.tracker lines).1 (discuss s.tracker lines).2,
        notes ++ (discuss s.tracker lines).2.filterMap Saying.note?) := by
  induction lines generalizing s notes with
  | nil => simp [handleLines, discuss, hear, Feed.publishAll]
  | cons line lines ih =>
      simp only [handleLines, handleLine_eq, ih, discuss, hear, List.filterMap_append,
        publishAll_append, List.append_assoc]

theorem receive_eq (s : Session) (chunk : List UInt8) :
    s.receive chunk =
      (({ s with lines := (s.lines.push chunk).1 } : Session).hear
          (discuss s.tracker (s.lines.push chunk).2).1 (discuss s.tracker (s.lines.push chunk).2).2,
        (discuss s.tracker (s.lines.push chunk).2).2.filterMap Saying.note?) :=
  handleLines_eq { s with lines := (s.lines.push chunk).1 } [] (s.lines.push chunk).2

end Session
end Modem
end Uplink
