import Uplink.Proofs.Modem.Search
import Uplink.Proofs.Modem.Stream

/-!
# Where the identity of a modem comes from

The search for the identity begins anew when the modem begins to be watched, and at no other time: what
was picked on a connection that is lost stays picked.  So the lines that decide the identity are those
that the connections before had left, and then some of the connection that is open.  A whole echo on
this connection always decides the identity, but the identity is the number of the echo only if the
connections before left no other number.
-/

namespace Uplink
namespace Modem

/-- The streams of the connections after a moment. -/
def streamsAfter (streams : List (List UInt8)) (m : Moment) : List (List UInt8) :=
  if m.label.begins then []
  else if m.label.opens then [] :: streams
  else
    match m.chunk? with
    | some chunk => (streams.headD [] ++ chunk) :: streams.tail
    | none => streams

/-- The streams of the connections since the modem began to be watched, last connection first. -/
def streams (moments : List Moment) : List (List UInt8) :=
  moments.foldl streamsAfter []

/-- What the lines of some connections leave of a search that begins anew, last connection first. -/
def left (streams : List (List UInt8)) : IdentityTracker :=
  (discuss {} (streams.reverse.flatMap linesOf)).1

theorem streams_concat (moments : List Moment) (m : Moment) :
    streams (moments ++ [m]) = streamsAfter (streams moments) m := by
  rw [streams, streams, List.foldl_append, List.foldl_cons, List.foldl_nil]

theorem left_cons (stream : List UInt8) (past : List (List UInt8)) :
    left (stream :: past) = (discuss (left past) (linesOf stream)).1 := by
  rw [left, left, List.reverse_cons, List.flatMap_append, List.flatMap_singleton, discuss_append]

theorem staged_left (streams : List (List UInt8)) : (left streams).Staged :=
  staged_discuss .blank _

/-! ## What a run does to the search -/

/-- The search is where the connections since the modem began to be watched have left it, and as long
as the run drives the transport, the buffer holds the tail of the last one. -/
structure Searching (streams : List (List UInt8)) (w : Watched) : Prop where
  tracker : w.resource.tracker = left streams
  present : Driving w → ∃ stream past, streams = stream :: past ∧ w.resource.lines.Holds stream

section

variable {w next first last : Watched} {label : Label} {moments : List Moment}
  {streams : List (List UInt8)}

theorem streamsAfter_of_opens (hbegins : label.begins = false) (hopens : label.opens = true) :
    streamsAfter streams ⟨w, label, next⟩ = [] :: streams := by
  simp [streamsAfter, hbegins, hopens]

theorem streamsAfter_of_reads {chunk : List UInt8} (hbegins : label.begins = false)
    (hreads : read? w label = some chunk) :
    streamsAfter streams ⟨w, label, next⟩ = (streams.headD [] ++ chunk) :: streams.tail := by
  have hopens : label.opens = false := by
    refine eq_false_of_ne_true ?_
    intro hopens
    rw [read?_of_opens hopens] at hreads
    cases hreads
  simp [streamsAfter, hbegins, hopens, Moment.chunk?, hreads]

theorem streamsAfter_of_apart (hbegins : label.begins = false) (hopens : label.opens = false)
    (hreads : read? w label = none) : streamsAfter streams ⟨w, label, next⟩ = streams := by
  simp [streamsAfter, hbegins, hopens, Moment.chunk?, hreads]

theorem Searching.opened (h : Searching streams w) (hlines : next.resource.lines = {})
    (htracker : next.resource.tracker = w.resource.tracker) : Searching ([] :: streams) next := by
  refine ⟨?_, ?_⟩
  · rw [htracker, h.tracker, left_cons]
    rfl
  · intro _
    rw [hlines]
    exact ⟨[], streams, rfl, LineBuffer.holds_nil⟩

theorem Searching.read (h : Searching streams w) {chunk : List UInt8} (hdriving : Driving w)
    (htook : w.resource.Took chunk next.resource) :
    Searching ((streams.headD [] ++ chunk) :: streams.tail) next := by
  obtain ⟨stream, past, rfl, hholds⟩ := h.present hdriving
  obtain ⟨hheld, hlines⟩ := hholds.push chunk
  refine ⟨?_, ?_⟩
  · rw [htook.tracker, h.tracker, left_cons, left_cons, List.headD_cons, List.tail_cons, hlines,
      discuss_append]
  · intro _
    rw [htook.lines]
    exact ⟨stream ++ chunk, past, rfl, hheld⟩

theorem Searching.step (h : Searching streams w) (hstep : Step w label next)
    (hnumbered : Numbered w) : Searching (streamsAfter streams ⟨w, label, next⟩) next := by
  rcases hstep.touch hnumbered with ⟨hbegins, htouch⟩ | ⟨rfl, hlive, hlines, htracker, -⟩
  · cases htouch with
    | «open» hopens hlines htracker =>
        rw [streamsAfter_of_opens hbegins hopens]
        exact h.opened hlines htracker
    | read chunk hreads hdriving htook =>
        rw [streamsAfter_of_reads hbegins hreads]
        exact h.read hdriving htook
    | apart hopens hreads hsilent =>
        rw [streamsAfter_of_apart hbegins hopens hreads]
        refine ⟨hsilent.tracker.trans h.tracker, ?_⟩
        intro hdriving
        rcases hstep.steady_or hnumbered hopens with hsteady | hnot
        · rw [hsilent.lines]
          exact h.present (hsteady.driving_iff.mp hdriving)
        · exact absurd hdriving hnot
  · -- no run drives the transport when the modem begins to be watched
    refine ⟨htracker, ?_⟩
    intro hdriving
    rcases hstep.steady_or hnumbered rfl with hsteady | hnot
    · exact absurd (hsteady.driving_iff.mp hdriving) (not_driving_of_live hlive)
    · exact absurd hdriving hnot

theorem Run.searching (hrun : Run first moments last) (hfresh : first.Fresh)
    (hblank : first.resource.tracker = {}) : Searching (Modem.streams moments) last := by
  induction hrun with
  | nil =>
      refine ⟨hblank, ?_⟩
      intro hdriving
      exact absurd hdriving (not_driving_of_holder hfresh.holder)
  | snoc hrun hstep ih =>
      rw [streams_concat]
      exact ih.step hstep (hrun.numbered hfresh)

/-- The identity is decided when a chunk is read, and so on a connection that stays open. -/
theorem Step.reads_of_decided (h : Step w label next) (hnumbered : Numbered w)
    (hopen : w.identity = none) (hdecided : next.identity ≠ none) :
    ∃ chunk, read? w label = some chunk ∧ Driving w ∧ Driving next := by
  have hchanged : next.resource.tracker ≠ w.resource.tracker := by
    intro hsame
    rw [Watched.identity, hsame] at hdecided
    exact hdecided hopen
  rcases h.touch hnumbered with ⟨-, htouch⟩ | ⟨-, -, -, htracker, -⟩
  · cases htouch with
    | «open» _ _ htracker => exact absurd htracker hchanged
    | read chunk hreads =>
        exact ⟨chunk, hreads, h.driving_of_reads hnumbered hreads⟩
    | apart _ _ hsilent => exact absurd hsilent.tracker hchanged
  · rw [Watched.identity, htracker] at hdecided
    exact absurd rfl hdecided

/-! ## What decides the identity -/

/-- The search on an open connection, of which the given stream was read, after the connections before.
What they left is picked already, and the others that are picked are lines of the stream, in order.
The identity is decided by two numbers with their confirmations.  If the connections before left
nothing, all of these are lines of the stream.  If they left the identity undecided, a whole echo
decides it, and it is the number of the echo just if they left no other number. -/
structure Echoed (past : List (List UInt8)) (stream : List UInt8) (tracker : IdentityTracker) :
    Prop where
  picked : ∃ picked, tracker.candidates = (left past).candidates ++ picked ∧
    picked.Sublist (linesOf stream)
  decided : ∀ identity, tracker.identity = some identity →
    ∃ number number', isIdentity number = true ∧ isIdentity number' = true ∧
      tracker.candidates = [number, confirmation, number', confirmation] ∧
      identity = if number = number' then number else unknownIdentity
  own : (left past).candidates = [] → tracker.candidates.Sublist (linesOf stream)
  echo : (left past).identity = none → ∀ number, isIdentity number = true →
    (linesOf stream).filter isAnswer = [number, confirmation, number, confirmation] →
    ∃ identity, tracker.identity = some identity ∧
      (identity = number ↔
        ∀ other ∈ (left past).candidates, isIdentity other = true → other = number)

theorem echoed_left (past : List (List UInt8)) (stream : List UInt8) :
    Echoed past stream (left (stream :: past)) := by
  have hpicked : ∃ picked, (left (stream :: past)).candidates = (left past).candidates ++ picked ∧
      picked.Sublist (linesOf stream) := by
    obtain ⟨picked, hcandidates, hsublist⟩ :=
      (left past).exists_picked ((linesOf stream).filter isAnswer)
    rw [left_cons, discuss_fst]
    exact ⟨picked, hcandidates, hsublist.trans List.filter_sublist⟩
  refine ⟨hpicked, fun identity => (staged_left _).decided_by, ?_, ?_⟩
  · intro hnothing
    obtain ⟨picked, hcandidates, hsublist⟩ := hpicked
    rw [hcandidates, hnothing]
    exact hsublist
  · intro hopen number hnumber hanswers
    obtain ⟨one, two, hall, hothers⟩ := (staged_left past).echo hopen hnumber
    rw [left_cons, discuss_fst, hanswers, hall]
    refine ⟨_, rfl, ?_⟩
    rw [IdentityTracker.resolution_eq_iff hnumber, hothers]

theorem Searching.exists_echoed (h : Searching streams w) (hdriving : Driving w) :
    ∃ stream past, streams = stream :: past ∧ Echoed past stream w.resource.tracker := by
  obtain ⟨stream, past, rfl, -⟩ := h.present hdriving
  rw [h.tracker]
  exact ⟨stream, past, rfl, echoed_left past stream⟩

/-- Of a modem that was never watched before, whatever happens to it: as long as a run drives the
transport, the lines that are picked for the identity are those that the connections before left since
the modem began to be watched, and then some of the open one; and when the identity is decided, there
is an open connection, and so this holds of the four lines that decide it. -/
theorem Run.echoed (hfresh : first.Fresh) (hblank : first.resource.tracker = {})
    (hrun : Run first moments last) :
    (Driving last → ∃ stream past, Modem.streams moments = stream :: past ∧
        Echoed past stream last.resource.tracker) ∧
      ∀ label next, Step last label next → last.identity = none → next.identity ≠ none →
        Driving next ∧ ∃ stream past,
          Modem.streams (moments ++ [⟨last, label, next⟩]) = stream :: past ∧
          Echoed past stream next.resource.tracker := by
  refine ⟨(hrun.searching hfresh hblank).exists_echoed, ?_⟩
  intro label next hstep hopen hdecided
  obtain ⟨chunk, -, -, hdriving⟩ := hstep.reads_of_decided (hrun.numbered hfresh) hopen hdecided
  exact ⟨hdriving, ((hrun.snoc hstep).searching hfresh hblank).exists_echoed hdriving⟩

end

/-! ## A connection that is lost after the first number -/

/-- The first line of an echo: fifteen times the digit one. -/
def fragment : List UInt8 :=
  List.replicate 15 49 ++ [10]

/-- A whole echo of the number `123456789012345`. -/
def wholeEcho : List UInt8 :=
  [49, 50, 51, 52, 53, 54, 55, 56, 57, 48, 49, 50, 51, 52, 53, 10, 79, 75, 10,
    49, 50, 51, 52, 53, 54, 55, 56, 57, 48, 49, 50, 51, 52, 53, 10, 79, 75, 10]

/-- The modem has gone after the first line of its echo. -/
def lostModem : Watched :=
  (moved (answer askedModem fragment)).withResource
    { (moved (answer askedModem fragment)).resource with
      transport := (moved (answer askedModem fragment)).resource.transport.hangUp }

/-- The connection has ended, and it is time for the next attempt. -/
def pausedModem : Watched :=
  { moved (moved lostModem) with now := 5000 }

/-- The transport is acquired again, and both requests are written again. -/
def againModem : Watched :=
  moved (moved (moved (moved pausedModem)))

/-- The modem has answered with a whole echo. -/
def echoedModem : Watched :=
  moved (answer againModem wholeEcho)

/-- From the first number to the end of the first connection. -/
def lostMoments : List Moment :=
  readMoments askedModem fragment ++
    [⟨moved (answer askedModem fragment), .transport, lostModem⟩,
      ⟨lostModem, .watcher (.move (.ended 0 .failed)), moved lostModem⟩,
      ⟨moved lostModem, .watcher (.move (.released 0 .failed)), moved (moved lostModem)⟩,
      ⟨moved (moved lostModem), .watcher .time, pausedModem⟩]

/-- From the next attempt to the whole echo. -/
def againMoments : List Moment :=
  [⟨pausedModem, .watcher (.move (.attempted 0)), moved pausedModem⟩,
    ⟨moved pausedModem, .watcher (.move (.acquired 0)), moved (moved pausedModem)⟩,
    ⟨moved (moved pausedModem), .watcher (.move (.worked 0)), moved (moved (moved pausedModem))⟩,
    ⟨moved (moved (moved pausedModem)), .watcher (.move (.worked 0)), againModem⟩] ++
    readMoments againModem wholeEcho

/-- The whole run. -/
def reconnectedMoments : List Moment :=
  attemptedMoments ++ acquiredMoment :: askedMoments ++ (lostMoments ++ againMoments)

theorem run_reconnectedMoments : Run pipedModem reconnectedMoments echoedModem := by
  have hfragment : Run askedModem (readMoments askedModem fragment) _ :=
    run_readMoments (by decide +kernel)
  have hlost := hfragment.snoc (show Step _ .transport lostModem from .transport _ _)
  have hended := hlost.snoc (step_moved (.ended 0 .failed) (by decide +kernel))
  have hreleased := hended.snoc (step_moved (.released 0 .failed) (by decide +kernel))
  have hpaused := hreleased.snoc
    (show Step _ (.watcher .time) pausedModem from .watcher (.time (by decide +kernel)) trivial)
  have hattempted := Run.single (@step_moved pausedModem (.attempted 0) (by decide +kernel))
  have hacquired := hattempted.snoc (step_moved (.acquired 0) (by decide +kernel))
  have hasked := hacquired.snoc (step_moved (.worked 0) (by decide +kernel))
  have hagain := hasked.snoc (step_moved (.worked 0) (by decide +kernel))
  have hechoed : Run againModem (readMoments againModem wholeEcho) _ :=
    run_readMoments (by decide +kernel)
  exact run_askedModem.trans (hpaused.trans (hagain.trans hechoed))

/-- The number that the first connection left decides the identity together with the whole echo. -/
theorem Run.echoed_reconnectedMoments :
    streams reconnectedMoments = [wholeEcho, fragment] ∧
      Echoed [fragment] wholeEcho echoedModem.resource.tracker ∧
      echoedModem.identity = some unknownIdentity := by
  have hdriving : Driving echoedModem := ⟨_, rfl, by decide +kernel, by decide +kernel⟩
  have hstreams : streams reconnectedMoments = [wholeEcho, fragment] := by decide +kernel
  obtain ⟨stream, past, hall, hechoed⟩ :=
    (Run.echoed fresh_pipedModem rfl run_reconnectedMoments).1 hdriving
  rw [hstreams] at hall
  cases hall
  exact ⟨hstreams, hechoed, by decide +kernel⟩

/-- A lost connection had delivered a number and left the identity undecided.  On the next one the modem
answers with a whole echo of another number; the identity becomes unknown, and of the four lines that
decide it one was not received on the open connection. -/
theorem misled_reconnectedMoments :
    Run pipedModem reconnectedMoments echoedModem ∧ Driving echoedModem ∧
      streams reconnectedMoments = [wholeEcho, fragment] ∧ againModem.identity = none ∧
      linesOf wholeEcho = ["123456789012345", "OK", "123456789012345", "OK"] ∧
      echoedModem.resource.tracker.candidates =
        ["111111111111111", "OK", "123456789012345", "OK"] ∧
      ¬ echoedModem.resource.tracker.candidates.Sublist (linesOf wholeEcho) ∧
      echoedModem.identity = some unknownIdentity := by
  refine ⟨run_reconnectedMoments, ⟨_, rfl, by decide +kernel, by decide +kernel⟩, ?_⟩
  exact ⟨by decide +kernel, by decide +kernel, by decide +kernel, by decide +kernel,
    by decide +kernel, by decide +kernel⟩

end Modem
end Uplink
