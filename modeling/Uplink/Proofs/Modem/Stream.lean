import Uplink.Proofs.Modem.Run

/-!
# What a modem says on a connection

A connection begins when the transport is acquired, and what is read until the next one begins is the
stream of the connection.  What is published and noted meanwhile depends on the stream alone, and on
how far the search for the identity was at the beginning: it is what the lines of the stream say.
-/

namespace Uplink
namespace Modem

namespace Moment

/-- The chunk that is read at a moment. -/
def chunk? (m : Moment) : Option (List UInt8) :=
  read? m.modem m.label

/-- The events that are published at a moment. -/
def told (m : Moment) : List Event :=
  m.modem.resource.events.since m.next.resource.events

/-- The notes that are published at a moment at which a chunk is read. -/
def complaints (m : Moment) : List Note :=
  if m.chunk?.isSome then m.modem.notes.since m.next.notes else []

end Moment

/-- What is read, as one stream. -/
def stream (moments : List Moment) : List UInt8 :=
  (moments.filterMap Moment.chunk?).flatten

theorem stream_concat (moments : List Moment) (m : Moment) :
    stream (moments ++ [m]) = stream moments ++ m.chunk?.getD [] := by
  rw [stream, stream, List.filterMap_append, List.flatten_append]
  cases h : m.chunk? <;> simp [h]

/-- What the lines of a stream say on a connection that begins with a modem. -/
def spoken (opened : Watched) (stream : List UInt8) : IdentityTracker × List Saying :=
  discuss opened.resource.tracker (linesOf stream)

/-! ## During a connection -/

/-- What was told and noted since a connection began is what its stream says, and as long as the run
drives the transport, the buffer holds the tail of the stream, and the search for the identity is where
the stream led it. -/
structure Hearing (opened : Watched) (during : List Moment) (w : Watched) : Prop where
  told : during.flatMap Moment.told =
    (spoken opened (stream during)).2.filterMap Saying.event?
  complaints : during.flatMap Moment.complaints =
    (spoken opened (stream during)).2.filterMap Saying.note?
  present : Driving w → w.resource.lines.Holds (stream during) ∧
    w.resource.tracker = (spoken opened (stream during)).1

section

variable {opened w next first last : Watched} {opening : Moment} {label : Label}
  {before during after : List Moment}

/-- A moment at which nothing is read and nothing is published. -/
theorem Hearing.apart (h : Hearing opened during w) (hreads : read? w label = none)
    (hevents : next.resource.events = w.resource.events)
    (hpresent : Driving next → Driving w ∧ next.resource.lines = w.resource.lines ∧
      next.resource.tracker = w.resource.tracker) :
    Hearing opened (during ++ [⟨w, label, next⟩]) next := by
  have hchunk : Moment.chunk? ⟨w, label, next⟩ = none := hreads
  have hstream : stream (during ++ [⟨w, label, next⟩]) = stream during := by
    rw [stream_concat, hchunk, Option.getD_none, List.append_nil]
  have htold : Moment.told ⟨w, label, next⟩ = [] := by
    simp [Moment.told, hevents]
  have hcomplaints : Moment.complaints ⟨w, label, next⟩ = [] := by
    simp [Moment.complaints, hchunk]
  refine ⟨?_, ?_, ?_⟩
  · rw [hstream, List.flatMap_append, List.flatMap_singleton, htold, List.append_nil, h.told]
  · rw [hstream, List.flatMap_append, List.flatMap_singleton, hcomplaints, List.append_nil,
      h.complaints]
  · intro hdriving
    obtain ⟨hbefore, hlines, htracker⟩ := hpresent hdriving
    rw [hstream, hlines, htracker]
    exact h.present hbefore

/-- A moment at which a chunk is read: the lines that it completes say what is published. -/
theorem Hearing.read (h : Hearing opened during w) {chunk : List UInt8}
    (hreads : read? w label = some chunk) (hdriving : Driving w)
    (htook : w.resource.Took chunk next.resource)
    (hnotes : next.notes = w.notes.publishAll
      ((discuss w.resource.tracker (w.resource.lines.push chunk).2).2.filterMap Saying.note?)) :
    Hearing opened (during ++ [⟨w, label, next⟩]) next := by
  obtain ⟨hholds, htracker⟩ := h.present hdriving
  obtain ⟨hheld, hlines⟩ := hholds.push chunk
  have hchunk : Moment.chunk? ⟨w, label, next⟩ = some chunk := hreads
  have hstream : stream (during ++ [⟨w, label, next⟩]) = stream during ++ chunk := by
    rw [stream_concat, hchunk, Option.getD_some]
  have hspoken : spoken opened (stream during ++ chunk) =
      ((discuss w.resource.tracker (w.resource.lines.push chunk).2).1,
        (spoken opened (stream during)).2 ++
          (discuss w.resource.tracker (w.resource.lines.push chunk).2).2) := by
    rw [spoken, hlines, discuss_append, htracker]
    rfl
  have htold : Moment.told ⟨w, label, next⟩ =
      (discuss w.resource.tracker (w.resource.lines.push chunk).2).2.filterMap Saying.event? := by
    simp [Moment.told, htook.events]
  have hcomplaints : Moment.complaints ⟨w, label, next⟩ =
      (discuss w.resource.tracker (w.resource.lines.push chunk).2).2.filterMap Saying.note? := by
    simp [Moment.complaints, hchunk, hnotes]
  refine ⟨?_, ?_, ?_⟩
  · rw [hstream, hspoken, List.flatMap_append, List.flatMap_singleton, htold, h.told,
      List.filterMap_append]
  · rw [hstream, hspoken, List.flatMap_append, List.flatMap_singleton, hcomplaints, h.complaints,
      List.filterMap_append]
  · intro _
    rw [hstream, hspoken, htook.lines, htook.tracker]
    exact ⟨hheld, rfl⟩

theorem Hearing.step (h : Hearing opened during w) (hstep : Step w label next)
    (hnumbered : Numbered w) (hopens : label.opens = false) :
    Hearing opened (during ++ [⟨w, label, next⟩]) next := by
  have hsteady := hstep.steady_or hnumbered hopens
  rcases hstep.touch hnumbered with ⟨-, htouch⟩ | ⟨rfl, hlive, -, -, hevents⟩
  · cases htouch with
    | «open» hopened _ _ =>
        rw [hopens] at hopened
        cases hopened
    | read chunk hreads hdriving htook hnotes _ _ => exact h.read hreads hdriving htook hnotes
    | apart _ hreads hsilent =>
        refine h.apart hreads hsilent.events ?_
        intro hdriving
        rcases hsteady with hsteady | hnot
        · exact ⟨hsteady.driving_iff.mp hdriving, hsilent.lines, hsilent.tracker⟩
        · exact absurd hdriving hnot
  · -- to begin anew there must be no live run, so none drives the transport
    refine h.apart rfl hevents ?_
    intro hdriving
    rcases hsteady with hsteady | hnot
    · exact absurd (hsteady.driving_iff.mp hdriving) (not_driving_of_live hlive)
    · exact absurd hdriving hnot

/-- A connection begins with an empty buffer, and with the search for the identity as it was. -/
theorem Step.fresh_of_opens (h : Step w label next) (hnumbered : Numbered w)
    (hopens : label.opens = true) :
    next.resource.lines = {} ∧ next.resource.tracker = w.resource.tracker := by
  rcases h.touch hnumbered with ⟨-, htouch⟩ | ⟨rfl, -⟩
  · cases htouch with
    | «open» _ hlines htracker => exact ⟨hlines, htracker⟩
    | read chunk hreads =>
        rw [read?_of_opens hopens] at hreads
        cases hreads
    | apart hnot =>
        rw [hnot] at hopens
        cases hopens
  · cases hopens

/-- From the beginning of a connection on, what is heard is what its stream says. -/
theorem Run.hearing (h : Run opened during w) (hbefore : Run first before opened)
    (hfresh : first.Fresh) (hlines : opened.resource.lines = {})
    (hduring : ∀ m ∈ during, m.label.opens = false) : Hearing opened during w := by
  induction h with
  | nil =>
      have hspoken : spoken opened (stream []) = (opened.resource.tracker, []) := rfl
      refine ⟨by rw [hspoken]; rfl, by rw [hspoken]; rfl, ?_⟩
      intro _
      rw [hlines, hspoken]
      exact ⟨LineBuffer.holds_nil, rfl⟩
  | snoc hrun hstep ih =>
      have hearlier := ih fun m hm => hduring m (List.mem_append_left _ hm)
      have hopens := hduring _ (List.mem_append_right _ List.mem_cons_self)
      exact hearlier.step hstep ((hbefore.trans hrun).numbered hfresh) hopens

/-- A connection does not end where a chunk is read: the run that drove the transport drives it on. -/
theorem Step.driving_of_reads {chunk : List UInt8} (h : Step w label next) (hnumbered : Numbered w)
    (hreads : read? w label = some chunk) : Driving w ∧ Driving next := by
  rcases h.touch hnumbered with ⟨-, htouch⟩ | ⟨rfl, -⟩
  · cases htouch with
    | «open» hopens =>
        rw [read?_of_opens hopens] at hreads
        cases hreads
    | read _ _ hdriving _ _ hholder hlive =>
        have hsteady : Steady w next := ⟨hholder, hlive⟩
        exact ⟨hdriving, hsteady.driving_iff.mpr hdriving⟩
    | apart _ hnone =>
        rw [hnone] at hreads
        cases hreads
  · cases hreads

/-! ## A connection and its stream -/

/-- What is heard on a connection: what was told and noted is what the lines of its stream say, each
one thing at most; the buffer was empty at first; what follows the last newline of the stream says
nothing; and the connection outlasts the reading of each chunk. -/
structure Heard (opening : Moment) (during : List Moment) : Prop where
  fresh : opening.next.resource.lines = {}
  told : during.flatMap Moment.told =
    (discuss opening.next.resource.tracker (linesOf (stream during))).2.filterMap Saying.event?
  complaints : during.flatMap Moment.complaints =
    (discuss opening.next.resource.tracker (linesOf (stream during))).2.filterMap Saying.note?
  sparing : (discuss opening.next.resource.tracker (linesOf (stream during))).2.length ≤
    (linesOf (stream during)).length
  tail : ∀ complete rest, stream during = complete ++ rest → newline ∉ rest →
    linesOf (stream during) = linesOf complete
  lasting : ∀ m ∈ during, ∀ chunk, m.chunk? = some chunk → Driving m.modem ∧ Driving m.next

/-- Of a modem that was never started before, whatever happens to it: on each connection, in whatever
chunks its stream is read, the events that are published and the notes about lines are those that the
lines of the stream give, in order.  The lines are what stands before the newlines of the stream,
decoded one by one, without the carriage returns at their ends, and without the empty ones; a line is
a flow report, or else a signal report, or else it is considered for the identity. -/
theorem Run.heard (hfresh : first.Fresh)
    (hrun : Run first (before ++ opening :: (during ++ after)) last)
    (hopening : opening.label.opens = true) (hduring : ∀ m ∈ during, m.label.opens = false) :
    Heard opening during := by
  obtain ⟨hbefore, hstep, hlater⟩ := hrun.split
  have hnumbered := hbefore.numbered hfresh
  obtain ⟨hlines, -⟩ := hstep.fresh_of_opens hnumbered hopening
  obtain ⟨middle, hconnection, -⟩ := hlater.of_append
  have hopened := hbefore.snoc hstep
  have hhearing := hconnection.hearing hopened hfresh hlines hduring
  refine ⟨hlines, hhearing.told, hhearing.complaints, length_discuss_le _ _, ?_, ?_⟩
  · intro complete rest hstream hrest
    rw [hstream, LineBuffer.linesOf_append hrest]
  · intro m hm chunk hchunk
    obtain ⟨earlier, later, rfl⟩ := List.append_of_mem hm
    obtain ⟨hearlier, hmoment, -⟩ := hconnection.split
    exact hmoment.driving_of_reads ((hopened.trans hearlier).numbered hfresh) hchunk

end

/-! ## A stream that is read in two chunks -/

/-- A modem that was never watched, over a pipe. -/
def pipedModem : Watched :=
  .of { target := .scripted [] } 60000 5000

/-- The modem after its next move. -/
def moved (w : Watched) : Watched :=
  ((w.move? Session.resource).map Prod.snd).getD w

theorem step_moved {w : Watched} (event : Watcher.Event)
    (h : (w.move? Session.resource).map Prod.fst = some event) :
    Step w (.watcher (.move event)) (moved w) := by
  obtain ⟨⟨event, next⟩, hmove, rfl⟩ := Option.map_eq_some_iff.mp h
  rw [moved, hmove]
  exact .watcher (Watcher.step_of_move? hmove) trivial

/-- The modem says something. -/
def answer (w : Watched) (bytes : List UInt8) : Watched :=
  w.withResource { w.resource with transport := (w.resource.transport.peerWrite bytes).2 }

theorem step_answer (w : Watched) (bytes : List UInt8) : Step w .transport (answer w bytes) :=
  .transport w _

theorem fresh_pipedModem : pipedModem.Fresh :=
  ⟨rfl, rfl, rfl, rfl⟩

/-- The modem is watched, and its run has its turn. -/
def attemptedModem : Watched :=
  moved pipedModem.begin.2

/-- The transport is acquired, and both requests are written. -/
def askedModem : Watched :=
  moved (moved (moved attemptedModem))

/-- Up to the first attempt to acquire the transport. -/
def attemptedMoments : List Moment :=
  [⟨pipedModem, .begin true, pipedModem.begin.2⟩,
    ⟨pipedModem.begin.2, .watcher (.move (.attempted 0)), attemptedModem⟩]

/-- The acquisition. -/
def acquiredMoment : Moment :=
  ⟨attemptedModem, .watcher (.move (.acquired 0)), moved attemptedModem⟩

/-- Both requests are written. -/
def askedMoments : List Moment :=
  [⟨moved attemptedModem, .watcher (.move (.worked 0)), moved (moved attemptedModem)⟩,
    ⟨moved (moved attemptedModem), .watcher (.move (.worked 0)), askedModem⟩]

theorem run_askedModem :
    Run pipedModem (attemptedMoments ++ acquiredMoment :: askedMoments) askedModem := by
  have hbegin : Step pipedModem (.begin true) pipedModem.begin.2 := .begin pipedModem
  have hattempted := (Run.single hbegin).snoc (step_moved (.attempted 0) (by decide +kernel))
  have hacquired := hattempted.snoc (step_moved (.acquired 0) (by decide +kernel))
  have hasked := hacquired.snoc (step_moved (.worked 0) (by decide +kernel))
  exact hasked.snoc (step_moved (.worked 0) (by decide +kernel))

/-- The first chunk of a stream: `+CSQ:1`. -/
def firstChunk : List UInt8 :=
  [43, 67, 83, 81, 58, 49]

/-- The second chunk: the rest of the report, another one without a reading, and the beginning of a
line. -/
def secondChunk : List UInt8 :=
  [53, 13, 10, 43, 67, 83, 81, 58, 120, 10, 79]

/-- A chunk comes and is read. -/
def readMoments (w : Watched) (chunk : List UInt8) : List Moment :=
  [⟨w, .transport, answer w chunk⟩,
    ⟨answer w chunk, .watcher (.move (.worked 0)), moved (answer w chunk)⟩]

theorem run_readMoments {w : Watched} {chunk : List UInt8}
    (h : ((answer w chunk).move? Session.resource).map Prod.fst = some (.worked 0)) :
    Run w (readMoments w chunk) (moved (answer w chunk)) :=
  (Run.single (step_answer w chunk)).snoc (step_moved (.worked 0) h)

/-- From the acquisition to the reading of the second chunk. -/
def chunkMoments : List Moment :=
  askedMoments ++ (readMoments askedModem firstChunk ++
    readMoments (moved (answer askedModem firstChunk)) secondChunk)

/-- The report that was cut is told, and the one without a reading is an error. -/
theorem Run.heard_chunkMoments :
    Heard acquiredMoment chunkMoments ∧ stream chunkMoments = firstChunk ++ secondChunk ∧
      chunkMoments.flatMap Moment.told = [.signal 15] ∧
      chunkMoments.flatMap Moment.complaints = [.error] := by
  have hfirst : Run askedModem (readMoments askedModem firstChunk) _ :=
    run_readMoments (by decide +kernel)
  have hsecond : Run _ (readMoments (moved (answer askedModem firstChunk)) secondChunk) _ :=
    run_readMoments (by decide +kernel)
  have hrun := run_askedModem.trans (hfirst.trans hsecond)
  have hheard : Heard acquiredMoment chunkMoments :=
    @Run.heard pipedModem _ acquiredMoment attemptedMoments chunkMoments []
      fresh_pipedModem (by simpa [chunkMoments] using hrun) rfl (by decide +kernel)
  have hstream : stream chunkMoments = firstChunk ++ secondChunk := by decide +kernel
  refine ⟨hheard, hstream, ?_, ?_⟩
  · rw [hheard.told, hstream]
    decide +kernel
  · rw [hheard.complaints, hstream]
    decide +kernel

end Modem
end Uplink
