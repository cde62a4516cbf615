import Uplink.Proofs.Link.Place
import Uplink.Proofs.Watcher.Readiness

/-!
# Connections

A connection begins when the watcher acquires the transport and ends when it has released it.  What is
read in between is the stream of that connection, and the framer starts afresh on each.  A command has
the place only during a connection; at rest, only while the link is ready and the stream is open.
-/

namespace Uplink
namespace Link

/-! ## The framer -/

namespace Framer

variable (framer : Framer)

/-- Taking a chunk changes neither how a response starts nor how it ends. -/
theorem reset_push (chunk : List UInt8) : (framer.push chunk).1.reset = framer.reset := by
  unfold push
  split <;> rfl

theorem reset_pushAll (chunks : List (List UInt8)) :
    (framer.pushAll chunks).1.reset = framer.reset := by
  induction chunks generalizing framer with
  | nil => rfl
  | cons chunk chunks ih => exact (ih _).trans (framer.reset_push chunk)

theorem pushAll_concat (chunks : List (List UInt8)) (chunk : List UInt8) :
    framer.pushAll (chunks ++ [chunk]) =
      (((framer.pushAll chunks).1.push chunk).1,
        (framer.pushAll chunks).2 ++ ((framer.pushAll chunks).1.push chunk).2) := by
  induction chunks generalizing framer with
  | nil => simp [pushAll]
  | cons first chunks ih => simp [pushAll, ih, List.append_assoc]

end Framer

/-! ## The transport -/

section

variable {t t' : Transport}

end

namespace Exchange

variable (x : Exchange)

/-- To take the command in the place away touches nothing of the connection. -/
theorem frame_settlePending (pending : Pending) (outcome : Except Failure Answer) :
    (x.settlePending pending outcome).framer = x.framer ∧
      (x.settlePending pending outcome).transport = x.transport ∧
      (x.settlePending pending outcome).submissions = x.submissions := by
  unfold settlePending
  dsimp only
  split <;> exact ⟨rfl, rfl, rfl⟩

theorem frame_vacate : x.vacate.framer = x.framer ∧ x.vacate.transport = x.transport ∧
    x.vacate.submissions = x.submissions := by
  unfold vacate
  split
  · exact frame_settlePending ..
  · exact ⟨rfl, rfl, rfl⟩

theorem frame_complete (response : String) : (x.complete response).framer = x.framer ∧
    (x.complete response).submissions = x.submissions := by
  unfold complete
  split
  · exact ⟨(frame_settlePending ..).1, (frame_settlePending ..).2.2⟩
  · exact ⟨rfl, rfl⟩

theorem frame_foldl_complete (responses : List String) :
    (responses.foldl complete x).framer = x.framer ∧
      (responses.foldl complete x).submissions = x.submissions := by
  induction responses generalizing x with
  | nil => exact ⟨rfl, rfl⟩
  | cons response responses ih =>
      obtain ⟨hframer, hsubmissions⟩ := x.frame_complete response
      rw [← hframer, ← hsubmissions]
      exact ih (x.complete response)

theorem framer_receive (chunk : List UInt8) :
    (x.receive chunk).1.framer = (x.framer.push chunk).1 := by
  rw [receive_eq, (frame_foldl_complete ..).1]

end Exchange

namespace Desk

/-! ## The streams of the connections -/

/-- The chunk that is read at a moment. -/
def Moment.chunk? (moment : Moment) : Option (List UInt8) :=
  match moment.label with
  | .watcher (.move (.worked _)) =>
    match moment.desk.exchange.transport.read readLimit with
    | (.data chunk, _) => some chunk
    | _ => none
  | _ => none

/-- The streams of the connections after a moment. -/
def streamsAfter (streams : List (List (List UInt8))) (moment : Moment) :
    List (List (List UInt8)) :=
  match moment.label with
  | .watcher (.move (.acquired _)) => [] :: streams
  | _ =>
    match moment.chunk? with
    | some chunk => (streams.headD [] ++ [chunk]) :: streams.tail
    | none => streams

/-- The streams of the connections of a run, in chunks, last connection first. -/
def streams (moments : List Moment) : List (List (List UInt8)) :=
  moments.foldl streamsAfter []

/-- The framer has received the stream of the last connection and nothing else, and the responses that
were cut are those of the streams, one after another. -/
structure Framed (fresh : Framer) (streams : List (List (List UInt8))) (cuts : List String)
    (x : Exchange) : Prop where
  framer : x.framer = (fresh.pushAll (streams.headD [])).1
  cuts : cuts = streams.reverse.flatMap fun chunks => responses (fresh.pushAll chunks).2

/-- What happens to the link when it is not the watcher that acts. -/
structure Apart (d next : Desk) : Prop where
  framer : next.exchange.framer = d.exchange.framer
  stream : next.exchange.transport.stream = .closed ↔ d.exchange.transport.stream = .closed
  holder : next.link.holder = d.link.holder

section

variable {d next : Desk} {label : Label}

/-- A step is one of the watcher, or the connection is left alone. -/
theorem Step.touch_or_apart (h : Step d label next) :
    (∃ watched, label = .watcher watched ∧ d.Admits watched ∧
      Watcher.Step Exchange.resource d.link watched next.link ∧
      Touch d.exchange watched next.exchange) ∨
    (∀ watched, label ≠ .watcher watched) ∧ Apart d next := by
  cases h with
  | watcher step admits =>
      exact .inl ⟨_, rfl, admits, step, touch_of_step step (ne_surroundings_of_admits admits)⟩
  | submit command =>
      refine .inr ⟨by simp, ?_⟩
      rcases d.submit_cases command with ⟨failure, -, hsubmit⟩ | ⟨-, -, hsubmit⟩
      · rw [hsubmit]
        exact ⟨rfl, .rfl, rfl⟩
      · rw [hsubmit]
        exact ⟨rfl, .rfl, rfl⟩
  | take | written | resume | abandon => exact .inr ⟨by simp, rfl, .rfl, rfl⟩
  | failed =>
      refine .inr ⟨by simp, d.exchange.frame_vacate.1, ?_, rfl⟩
      exact iff_of_eq (congrArg (Transport.stream · = .closed) d.exchange.frame_vacate.2.1)
  | transport stream => exact .inr ⟨by simp, rfl, stream, rfl⟩

/-- A moment at which nothing is acquired and nothing is read. -/
theorem streamsAfter_of_idle {streams : List (List (List UInt8))}
    (hacquired : ∀ run, label ≠ .watcher (.move (.acquired run)))
    (hworked : ∀ run, label ≠ .watcher (.move (.worked run))) :
    streamsAfter streams ⟨d, label⟩ = streams := by
  have hchunk : (Moment.mk d label).chunk? = none := by
    unfold Moment.chunk?
    split
    · exact absurd ‹_› (hworked _)
    · rfl
  unfold streamsAfter
  split
  · exact absurd ‹_› (hacquired _)
  · rw [hchunk]

/-- Nothing is acquired and nothing is read, and the framer stays as it was. -/
theorem Framed.idle {fresh : Framer} {streams : List (List (List UInt8))} {cuts : List String}
    {x : Exchange} (h : Framed fresh streams cuts d.exchange)
    (hacquired : ∀ run, label ≠ .watcher (.move (.acquired run)))
    (hworked : ∀ run, label ≠ .watcher (.move (.worked run)))
    (hframer : x.framer = d.exchange.framer) :
    Framed fresh (streamsAfter streams ⟨d, label⟩) (cuts ++ (Moment.mk d label).cut) x := by
  rw [streamsAfter_of_idle hacquired hworked, cut_of_ne_worked hworked, List.append_nil]
  exact ⟨hframer.trans h.framer, h.cuts⟩

theorem Framed.touch {fresh : Framer} {streams : List (List (List UInt8))} {cuts : List String}
    {watched : Watcher.Label Unit} {x : Exchange} (h : Framed fresh streams cuts d.exchange)
    (htouch : Touch d.exchange watched x) (hreset : fresh.reset = fresh) :
    Framed fresh (streamsAfter streams ⟨d, .watcher watched⟩)
      (cuts ++ (Moment.mk d (.watcher watched)).cut) x := by
  cases htouch with
  | idle hwatched =>
      refine h.idle ?_ ?_ rfl
      · rintro run hlabel
        cases hlabel
        exact hwatched
      · rintro run hlabel
        cases hlabel
        exact hwatched
  | refuse | lose => exact h.idle (by simp) (by simp) rfl
  | shut =>
      refine h.idle (by simp) (by simp) ?_
      rw [Exchange.shut_eq_vacate, (Exchange.frame_vacate _).1]
  | @acquire run transport hconnect =>
      -- a new stream begins, and the framer is as fresh as at first
      rw [cut_of_ne_worked (by simp), List.append_nil]
      refine ⟨?_, ?_⟩
      · change d.exchange.framer.reset = fresh
        rw [h.framer, Framer.reset_pushAll, hreset]
      · simp [streamsAfter, Framer.pushAll, h.cuts]
  | @read run chunk transport hread =>
      have hchunk : (Moment.mk d (.watcher (.move (.worked run)))).chunk? = some chunk := by
        simp only [Moment.chunk?, hread]
      have hstreams : streamsAfter streams ⟨d, .watcher (.move (.worked run))⟩ =
          (streams.headD [] ++ [chunk]) :: streams.tail := by
        simp only [streamsAfter, hchunk]
      rw [hstreams, cut_of_chunk hread]
      refine ⟨?_, ?_⟩
      · rw [Exchange.framer_receive, List.headD_cons, Framer.pushAll_concat, ← h.framer]
      · rw [h.cuts, h.framer]
        cases streams with
        | nil => simp [Framer.pushAll]
        | cons present past => simp [Framer.pushAll_concat]

theorem Framed.step {fresh : Framer} {streams : List (List (List UInt8))} {cuts : List String}
    (h : Framed fresh streams cuts d.exchange) (hstep : Step d label next)
    (hreset : fresh.reset = fresh) :
    Framed fresh (streamsAfter streams ⟨d, label⟩) (cuts ++ (Moment.mk d label).cut)
      next.exchange := by
  rcases hstep.touch_or_apart with ⟨watched, rfl, -, -, htouch⟩ | ⟨hlabel, hapart⟩
  · exact h.touch htouch hreset
  · exact h.idle (fun run => hlabel _) (fun run => hlabel _) hapart.framer

end

end Desk

/-! ## The handle and the stream -/

/-- The only work is to drive, and it says nothing of readiness. -/
theorem drive_of_work {task : Watcher.Task} {args : Unit} {now : ℕ} {permit : Bool}
    {x next : Exchange} {deed : Watcher.Deed}
    (h : Exchange.resource.act task args now permit x = .work next deed) :
    task = .drive ∧ deed.ready = none := by
  cases task with
  | acquire =>
      simp only [Exchange.resource, Exchange.act, Exchange.acquire] at h
      split at h <;> cases h
  | drive =>
      simp only [Exchange.resource, Exchange.act, Exchange.drive] at h
      split at h
      · cases h
      · cases h
      · cases h
        exact ⟨rfl, rfl⟩
  | release =>
      simp only [Exchange.resource, Exchange.act, Exchange.release] at h
      split at h <;> cases h

theorem silent_resource : Watcher.Silent Exchange.resource :=
  fun _ _ _ _ _ _ _ h => (drive_of_work h).2

namespace Desk

/-- The watcher holds the transport. -/
def Connected (d : Desk) : Prop :=
  Watcher.handleOf d.link.holder ≠ []

/-- A connection begins or ends. -/
inductive Label.Turns : Label → Prop where
  | acquired (run : ℕ) : Turns (.watcher (.move (.acquired run)))
  | released (run : ℕ) (ending : Watcher.Ending) : Turns (.watcher (.move (.released run ending)))

section

variable {d next : Desk} {label : Label} {run : ℕ} {ending : Watcher.Ending}

end

section

variable {first last : Desk} {moments : List Moment} {pending : Pending}

/-- The watcher of a link is ready exactly while its live run has a handle that it did not lose by a
stop. -/
theorem Run.state_eq_ready_iff (hfresh : Fresh first) (hrun : Run first moments last) :
    last.link.state = .ready ↔ last.link.Engaged :=
  hrun.toWatcher.ready_iff hfresh.link.watcher silent_resource rfl hrun.quiet

theorem Run.connected_of_ready (hfresh : Fresh first) (hrun : Run first moments last)
    (hready : last.link.ready = true) : last.Connected := by
  have hstate : last.link.state = .ready := by simpa [Watcher.ready] using hready
  obtain ⟨run, -, hhandle, -⟩ := ((hrun.state_eq_ready_iff hfresh).mp hstate).openCycle_eq
  rw [Connected, hhandle]
  simp

end
end Desk
end Link
end Uplink
