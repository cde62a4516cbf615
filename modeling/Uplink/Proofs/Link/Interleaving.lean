import Mathlib.Data.List.Nodup
import Uplink.Link.Desk
import Uplink.Proofs.Link.Delivery

/-!
# Interleavings

Submissions go through their parts side by side, and the parts meet responses, changes of the
transport and the moves of the watcher in any order.  Each of these is a step here, with what it
needs.  Whatever the order, a submission under way has the place or its end is noted, and the command
in the place is one whose submitter is under way or has given up.
-/

namespace Uplink
namespace Link
namespace Desk

/-- What happens to a desk: a part of a submission, a change of the transport, or something that
happens to the watcher. -/
inductive Label where
  | submit (command : String)
  | take (id : ℕ)
  | written (id : ℕ)
  | failed (id : ℕ) (failure : Failure)
  | resume (id : ℕ)
  | abandon (id : ℕ)
  | transport
  | watcher (label : Watcher.Label Unit)

/-- What may happen to the watcher.  A connection is opened and closed only while nobody writes, and
a link says nothing of readiness itself. -/
def Admits (d : Desk) : Watcher.Label Unit → Prop
  | .surroundings | .say _ _ => False
  | .move (.acquired _) | .move (.released _ _) => d.WriterFree
  | _ => True

/-- One thing that may happen to a desk. -/
inductive Step : Desk → Label → Desk → Prop where
  | submit (d : Desk) (command : String) : Step d (.submit command) (d.submit command)
  /-- The writer goes to one of those who wait for it. -/
  | take {d : Desk} {id : ℕ} (free : d.WriterFree) (queued : ⟨id, .queued⟩ ∈ d.underway) :
      Step d (.take id) (d.toPhase id .writing)
  /-- A write succeeds only while there is a stream. -/
  | written {d : Desk} {id : ℕ} (writing : ⟨id, .writing⟩ ∈ d.underway)
      (stream : d.exchange.transport.stream ≠ .closed) :
      Step d (.written id) (d.toPhase id .waiting)
  | failed {d : Desk} {id : ℕ} {failure : Failure} (writing : ⟨id, .writing⟩ ∈ d.underway) :
      Step d (.failed id failure) (d.fail id failure)
  /-- A submitter that waits for the response goes on as soon as its command has lost the place. -/
  | resume {d : Desk} {id : ℕ} (waiting : ⟨id, .waiting⟩ ∈ d.underway)
      (ended : d.exchange.open? ≠ some id) : Step d (.resume id) (d.dismiss id)
  | abandon {d : Desk} {id : ℕ} (underway : id ∈ d.ids) : Step d (.abandon id) (d.abandon id)
  /-- Writes and the surroundings change the transport; they neither open nor close the stream. -/
  | transport {d : Desk} {transport : Transport}
      (stream : transport.stream = .closed ↔ d.exchange.transport.stream = .closed) :
      Step d .transport (d.withExchange { d.exchange with transport })
  | watcher {d : Desk} {next : Watched} {label : Watcher.Label Unit}
      (step : Watcher.Step Exchange.resource d.link label next) (admits : d.Admits label) :
      Step d (.watcher label) { d with link := next }

/-- A desk, and what happens to it next. -/
structure Moment where
  desk : Desk
  label : Label

/-- A row of things that happen to a desk. -/
inductive Run : Desk → List Moment → Desk → Prop where
  | nil (d : Desk) : Run d [] d
  | snoc {first last next : Desk} {moments : List Moment} {label : Label} :
      Run first moments last → Step last label next → Run first (moments ++ [⟨last, label⟩]) next

/-- A desk whose link was never started. -/
structure Fresh (d : Desk) : Prop where
  link : Link.Fresh d.link
  underway : d.underway = []

/-! ## A desk as a link, and as a watcher -/

/-- What happens to the watcher of a desk. -/
def Label.toWatcher : Label → Watcher.Label Unit
  | .watcher label => label
  | _ => .surroundings

/-- A moment of the link of a desk, in which parts of submissions are changes around it. -/
def Moment.toLink (moment : Moment) : Link.Moment where
  link := moment.desk.link
  label :=
    match moment.label with
    | .watcher label => .watcher label
    | _ => .transport

/-- The responses that are cut out of the stream at a moment. -/
def Moment.cut (moment : Moment) : List String :=
  moment.toLink.cut

/-- What happens to the watcher of a desk in a run. -/
def watched (moments : List Moment) : List (Watcher.Label Unit) :=
  moments.map fun moment => moment.label.toWatcher

section

variable {d next : Desk} {label : Label} {first middle last : Desk} {moments moments' : List Moment}

/-- A submission fails at once, or takes the empty place of a link that is ready. -/
theorem submit_cases (d : Desk) (command : String) :
    (∃ failure, (failure = .busy → d.exchange.pending ≠ none) ∧
      d.submit command = d.withExchange
        ({ d.exchange with submissions := d.exchange.submissions + 1 }.conclude
          d.exchange.submissions (.error failure))) ∨
    d.link.ready = true ∧ d.exchange.pending = none ∧
      d.submit command =
        { link := d.link.withResource
            ({ d.exchange with submissions := d.exchange.submissions + 1 }.reserve
              d.exchange.submissions command)
          underway := d.underway ++ [⟨d.exchange.submissions, .queued⟩] } := by
  unfold Desk.submit
  by_cases hready : d.link.ready = true
  · by_cases hfree : d.exchange.pending = none
    · exact .inr ⟨hready, hfree, by simp [hready, hfree]⟩
    · have hsome : d.exchange.pending.isSome = true := Option.isSome_iff_ne_none.mpr hfree
      exact .inl ⟨.busy, fun _ => hfree, by simp [hready, hsome]⟩
  · exact .inl ⟨.notReady, by simp, by simp [hready]⟩

theorem Step.toWatcher (h : Step d label next) :
    Watcher.Step Exchange.resource d.link label.toWatcher next.link := by
  cases h with
  | submit command =>
      rcases d.submit_cases command with ⟨failure, -, hsubmit⟩ | ⟨-, -, hsubmit⟩
      · rw [hsubmit]
        exact .surroundings d.link _
      · rw [hsubmit]
        exact .surroundings d.link _
  | take | written | resume => exact .surroundings d.link d.link.resource
  | failed | abandon | transport => exact .surroundings d.link _
  | watcher step _ => exact step

theorem Run.toWatcher (h : Run first moments last) :
    Watcher.Run Exchange.resource first.link (watched moments) last.link := by
  induction h with
  | nil => exact .nil _
  | snoc _ hstep ih =>
      rw [watched, List.map_append]
      exact ih.snoc hstep.toWatcher

theorem Run.quiet (h : Run first moments last) (run : ℕ) (ready : Bool) :
    .say run ready ∉ watched moments := by
  induction h with
  | nil => simp [watched]
  | @snoc last next moments label _ hstep ih =>
      rw [watched, List.map_append, List.mem_append, List.map_singleton, List.mem_singleton]
      rintro (hmem | hlabel)
      · exact ih hmem
      · cases hstep with
        | watcher _ admits =>
            cases hlabel
            exact admits
        | _ => cases hlabel

theorem Run.trans (h : Run first moments middle) (h' : Run middle moments' last) :
    Run first (moments ++ moments') last := by
  induction h' with
  | nil => rwa [List.append_nil]
  | snoc _ hstep ih =>
      rw [← List.append_assoc]
      exact .snoc ih hstep

theorem Run.single (h : Step d label next) : Run d [⟨d, label⟩] next :=
  .snoc (.nil d) h

/-- Only work cuts responses out of the stream. -/
theorem cut_of_ne_worked (h : ∀ run, label ≠ .watcher (.move (.worked run))) :
    (Moment.mk d label).cut = [] := by
  refine Link.cut_of_ne_worked ?_
  intro run hlabel
  cases label with
  | watcher label =>
      cases hlabel
      exact h run rfl
  | _ => cases hlabel

theorem cut_of_chunk {run : ℕ} {chunk : List UInt8} {transport : Transport}
    (hread : d.exchange.transport.read readLimit = (.data chunk, transport)) :
    (Moment.mk d (.watcher (.move (.worked run)))).cut =
      responses (d.exchange.framer.push chunk).2 :=
  cut_of_read hread

end

/-! ## What is kept of the submissions under way -/

/-- What is so of an exchange and the numbers of the submissions under way.  The command in the place
is one that has not ended, and its submitter still waits if and only if it is under way; whoever is
under way without the place has an end that is noted. -/
structure Kept (x : Exchange) (ids : List ℕ) : Prop where
  nodup : ids.Nodup
  lt : ∀ id ∈ ids, id < x.submissions
  settled_lt : ∀ id ∈ x.settled, id < x.submissions
  place_lt : ∀ pending, x.pending = some pending → pending.id < x.submissions
  unsettled : ∀ pending, x.pending = some pending → pending.id ∉ x.settled
  awaited : ∀ pending, x.pending = some pending → (pending.awaited = true ↔ pending.id ∈ ids)
  replied : ∀ id ∈ ids, x.open? = some id ∨ id ∈ x.settled

end Desk

namespace Exchange

variable (x : Exchange) (id : ℕ)

theorem settled_forget : (x.forget id).settled = x.settled.filter (· ≠ id) := by
  simp only [settled, forget, List.filter_map]
  rfl

theorem pending_vacate : x.vacate.pending = none := by
  unfold vacate
  split
  · exact pending_settlePending ..
  · assumption

theorem pending_failWrite (failure : Failure) : (x.failWrite id failure).pending = none :=
  x.pending_vacate

/-- To close the transport is to clear the place. -/
theorem shut_eq_vacate : x.shut = { x with transport := x.transport.disconnect }.vacate := by
  cases hpending : x.pending with
  | none => simp only [shut, vacate, hpending]
  | some pending => simp only [shut, vacate, hpending]

theorem pending_shut : x.shut.pending = none := by
  rw [shut_eq_vacate]
  exact pending_vacate _

/-- Whoever gives up, the same command has the place. -/
theorem open?_leave : (x.leave id).open? = x.open? := by
  unfold leave forget open?
  rw [Option.map_map]
  refine Option.map_congr fun pending _ => ?_
  simp only [Function.comp_apply]
  split <;> rfl

theorem open?_eq_some {x : Exchange} {id : ℕ} :
    x.open? = some id ↔ ∃ pending, x.pending = some pending ∧ pending.id = id :=
  Option.map_eq_some_iff

end Exchange

namespace Desk
namespace Kept

variable {x x' : Exchange} {ids : List ℕ} {pending : Pending} {id : ℕ}

theorem fresh (name : String) (framing : Framing) (transport : Transport) :
    Kept (.of name framing transport) [] where
  nodup := List.nodup_nil
  lt := by simp
  settled_lt := by simp [Exchange.of, Exchange.settled]
  place_lt := by simp [Exchange.of]
  unsettled := by simp [Exchange.of]
  awaited := by simp [Exchange.of]
  replied := by simp

/-- Only the place, the ends and the count of submissions matter. -/
theorem of_same (h : Kept x ids) (hpending : x'.pending = x.pending)
    (houtcomes : x'.outcomes = x.outcomes) (hsubmissions : x'.submissions = x.submissions) :
    Kept x' ids := by
  have hsettled : x'.settled = x.settled := congrArg (List.map Prod.fst) houtcomes
  have hopen : x'.open? = x.open? := congrArg (Option.map Pending.id) hpending
  constructor
  case nodup => exact h.nodup
  case lt =>
    rw [hsubmissions]
    exact h.lt
  case settled_lt =>
    rw [hsettled, hsubmissions]
    exact h.settled_lt
  case place_lt =>
    rw [hpending, hsubmissions]
    exact h.place_lt
  case unsettled =>
    rw [hpending, hsettled]
    exact h.unsettled
  case awaited =>
    rw [hpending]
    exact h.awaited
  case replied =>
    rw [hopen, hsettled]
    exact h.replied

/-- With an empty place, everyone under way has an end. -/
theorem settled_of_free (h : Kept x ids) (hfree : x.pending = none) :
    ∀ id ∈ ids, id ∈ x.settled := by
  intro id hid
  rcases h.replied id hid with hopen | hsettled
  · rw [Exchange.open?, hfree] at hopen
    cases hopen
  · exact hsettled

/-- Of an empty place there is little to say. -/
theorem of_free (hfree : x.pending = none) (hnodup : ids.Nodup)
    (hlt : ∀ id ∈ ids, id < x.submissions) (hsettled_lt : ∀ id ∈ x.settled, id < x.submissions)
    (hsettled : ∀ id ∈ ids, id ∈ x.settled) : Kept x ids where
  nodup := hnodup
  lt := hlt
  settled_lt := hsettled_lt
  place_lt := by simp [hfree]
  unsettled := by simp [hfree]
  awaited := by simp [hfree]
  replied := fun id hid => .inr (hsettled id hid)

theorem settle (h : Kept x ids) (hpending : x.pending = some pending)
    (outcome : Except Failure Answer) : Kept (x.settlePending pending outcome) ids := by
  have hiff := h.awaited pending hpending
  have hopen : x.open? = some pending.id := by rw [Exchange.open?, hpending, Option.map_some]
  cases hawaited : pending.awaited with
  | true =>
      rw [Exchange.settlePending_of_awaited _ _ hawaited]
      refine of_free rfl h.nodup h.lt ?_ ?_
      · intro id hid
        rcases List.mem_cons.mp hid with rfl | hid
        · exact h.place_lt pending hpending
        · exact h.settled_lt id hid
      · intro id hid
        rcases h.replied id hid with hthis | hsettled
        · rw [hopen] at hthis
          cases hthis
          exact List.mem_cons_self
        · exact List.mem_cons_of_mem _ hsettled
  | false =>
      rw [Exchange.settlePending, hawaited]
      refine of_free rfl h.nodup h.lt h.settled_lt ?_
      intro id hid
      rcases h.replied id hid with hthis | hsettled
      · rw [hopen] at hthis
        cases hthis
        exact absurd (hiff.mpr hid) (by simp [hawaited])
      · exact hsettled

theorem vacate (h : Kept x ids) : Kept x.vacate ids := by
  unfold Exchange.vacate
  split
  · rename_i pending hpending
    exact h.settle hpending _
  · exact h

theorem complete (h : Kept x ids) (response : String) : Kept (x.complete response) ids := by
  cases hpending : x.pending with
  | none =>
      rw [x.complete_of_none hpending]
      exact h.of_same rfl rfl rfl
  | some pending =>
      rw [x.complete_of_some hpending]
      exact h.settle hpending _

theorem foldl_complete (h : Kept x ids) (responses : List String) :
    Kept (responses.foldl Exchange.complete x) ids := by
  induction responses generalizing x with
  | nil => exact h
  | cons response responses ih => exact ih (h.complete response)

/-- A submission fails at once. -/
theorem decline (h : Kept x ids) (failure : Failure) :
    Kept ({ x with submissions := x.submissions + 1 }.conclude x.submissions (.error failure))
      ids where
  nodup := h.nodup
  lt id hid := Nat.lt_succ_of_lt (h.lt id hid)
  settled_lt id hid := by
    rcases List.mem_cons.mp hid with rfl | hid
    · exact Nat.lt_succ_self _
    · exact Nat.lt_succ_of_lt (h.settled_lt id hid)
  place_lt pending hpending := Nat.lt_succ_of_lt (h.place_lt pending hpending)
  unsettled pending hpending hmem := by
    rcases List.mem_cons.mp hmem with heq | hmem
    · exact Nat.ne_of_lt (h.place_lt pending hpending) heq
    · exact h.unsettled pending hpending hmem
  awaited := h.awaited
  replied id hid := by
    rcases h.replied id hid with hopen | hsettled
    · exact .inl hopen
    · exact .inr (List.mem_cons_of_mem _ hsettled)

/-- A submission takes the empty place. -/
theorem reserve (h : Kept x ids) (hfree : x.pending = none) (command : String) :
    Kept ({ x with submissions := x.submissions + 1 }.reserve x.submissions command)
      (ids ++ [x.submissions]) where
  nodup := by
    have hnew : x.submissions ∉ ids := fun hmem => Nat.lt_irrefl _ (h.lt _ hmem)
    rw [← List.concat_eq_append]
    exact List.Nodup.concat hnew h.nodup
  lt id hid := by
    rcases List.mem_append.mp hid with hid | hid
    · exact Nat.lt_succ_of_lt (h.lt id hid)
    · cases List.mem_singleton.mp hid
      exact Nat.lt_succ_self _
  settled_lt id hid := Nat.lt_succ_of_lt (h.settled_lt id hid)
  place_lt pending hpending := by
    cases hpending
    exact Nat.lt_succ_self _
  unsettled pending hpending hmem := by
    cases hpending
    exact Nat.lt_irrefl _ (h.settled_lt _ hmem)
  awaited pending hpending := by
    cases hpending
    simp
  replied id hid := by
    rcases List.mem_append.mp hid with hid | hid
    · exact .inr (h.settled_of_free hfree id hid)
    · cases List.mem_singleton.mp hid
      exact .inl rfl

/-- A submission goes away that does not have the place. -/
theorem dismiss (h : Kept x ids) (hended : x.open? ≠ some id) :
    Kept x (ids.filter (· ≠ id)) where
  nodup := h.nodup.filter _
  lt other hother := h.lt other (List.mem_of_mem_filter hother)
  settled_lt := h.settled_lt
  place_lt := h.place_lt
  unsettled := h.unsettled
  awaited pending hpending := by
    have hne : pending.id ≠ id := fun heq => hended (Exchange.open?_eq_some.mpr ⟨_, hpending, heq⟩)
    rw [h.awaited pending hpending]
    simp [hne]
  replied other hother := h.replied other (List.mem_of_mem_filter hother)

theorem fail (h : Kept x ids) (hid : id ∈ ids) (failure : Failure) :
    Kept (x.failWrite id failure) (ids.filter (· ≠ id)) := by
  have hvacated := h.vacate
  have hsubmissions : (x.failWrite id failure).submissions = x.vacate.submissions := rfl
  have hsettled : (x.failWrite id failure).settled = id :: x.vacate.settled.filter (· ≠ id) := by
    rw [Exchange.failWrite, Exchange.settled_conclude, Exchange.settled_forget]
  refine of_free (x.pending_failWrite id failure) (h.nodup.filter _) ?_ ?_ ?_
  · exact fun other hother => hvacated.lt other (List.mem_of_mem_filter hother)
  · intro other hother
    rw [hsettled] at hother
    rcases List.mem_cons.mp hother with rfl | hother
    · exact hvacated.lt _ hid
    · exact hvacated.settled_lt other (List.mem_of_mem_filter hother)
  · intro other hother
    obtain ⟨hother, hne⟩ := List.mem_filter.mp hother
    rw [hsettled]
    refine List.mem_cons_of_mem _ (List.mem_filter.mpr ⟨?_, hne⟩)
    exact hvacated.settled_of_free x.pending_vacate other hother

theorem leave (h : Kept x ids) (id : ℕ) : Kept (x.leave id) (ids.filter (· ≠ id)) := by
  have hsettled : (x.leave id).settled = x.settled.filter (· ≠ id) := Exchange.settled_forget _ _
  -- the command in the place is the one from before, perhaps without its submitter
  have hplace : ∀ pending, (x.leave id).pending = some pending → ∃ before,
      x.pending = some before ∧ pending.id = before.id ∧
        (pending.awaited = true ↔ before.awaited = true ∧ before.id ≠ id) := by
    intro pending hpending
    obtain ⟨before, hbefore, rfl⟩ := Option.map_eq_some_iff.mp hpending
    refine ⟨before, hbefore, ?_⟩
    split
    · rename_i heq
      simp [heq]
    · rename_i hne
      simp [hne]
  constructor
  case nodup => exact h.nodup.filter _
  case lt => exact fun other hother => h.lt other (List.mem_of_mem_filter hother)
  case settled_lt =>
    intro other hother
    rw [hsettled] at hother
    exact h.settled_lt other (List.mem_of_mem_filter hother)
  case place_lt =>
    intro pending hpending
    obtain ⟨before, hbefore, heq, -⟩ := hplace pending hpending
    rw [heq]
    exact h.place_lt before hbefore
  case unsettled =>
    intro pending hpending hmem
    obtain ⟨before, hbefore, heq, -⟩ := hplace pending hpending
    rw [hsettled, heq] at hmem
    exact h.unsettled before hbefore (List.mem_of_mem_filter hmem)
  case awaited =>
    intro pending hpending
    obtain ⟨before, hbefore, heq, hawaited⟩ := hplace pending hpending
    rw [hawaited, heq, h.awaited before hbefore]
    simp
  case replied =>
    intro other hother
    obtain ⟨hother, hne⟩ := List.mem_filter.mp hother
    rw [x.open?_leave, hsettled]
    rcases h.replied other hother with hthis | hthis
    · exact .inl hthis
    · exact .inr (List.mem_filter.mpr ⟨hthis, hne⟩)

theorem touch {label : Watcher.Label Unit} (h : Kept x ids) (htouch : Touch x label x') :
    Kept x' ids := by
  cases htouch with
  | idle => exact h
  | acquire | refuse | lose => exact h.of_same rfl rfl rfl
  | read =>
      rw [Exchange.receive_eq]
      refine foldl_complete ?_ _
      exact h.of_same rfl rfl rfl
  | shut =>
      rw [Exchange.shut_eq_vacate]
      refine vacate ?_
      exact h.of_same rfl rfl rfl

end Kept

section

variable {d next : Desk} {label : Label}

theorem ne_surroundings_of_admits {label : Watcher.Label Unit} (h : d.Admits label) :
    label ≠ .surroundings := by
  rintro rfl
  exact h

theorem mem_ids_of_mem {id : ℕ} {phase : Phase} (h : ⟨id, phase⟩ ∈ d.underway) : id ∈ d.ids :=
  List.mem_map_of_mem (f := Submission.id) h

theorem mem_toPhase {submission : Submission} {id : ℕ} {phase : Phase}
    (h : submission ∈ (d.toPhase id phase).underway) :
    submission ∈ d.underway ∨ submission = ⟨id, phase⟩ := by
  obtain ⟨before, hbefore, rfl⟩ := List.mem_map.mp h
  split
  · rename_i hid
    exact .inr (hid ▸ rfl)
  · exact .inl hbefore

theorem Kept.step (h : Kept d.exchange d.ids) (hstep : Step d label next) :
    Kept next.exchange next.ids := by
  cases hstep with
  | submit command =>
      rcases d.submit_cases command with ⟨failure, -, hsubmit⟩ | ⟨-, hfree, hsubmit⟩
      · rw [hsubmit]
        exact h.decline failure
      · have hkept := h.reserve hfree command
        rw [hsubmit, ids, List.map_append]
        exact hkept
  | take | written =>
      rw [ids_toPhase]
      exact h
  | failed writing =>
      rw [Desk.fail, ids_dismiss]
      exact h.fail (mem_ids_of_mem writing) _
  | resume _ ended =>
      rw [ids_dismiss]
      exact h.dismiss ended
  | abandon _ =>
      rw [Desk.abandon, ids_dismiss]
      exact h.leave _
  | transport _ => exact h.of_same rfl rfl rfl
  | watcher step admits => exact h.touch (touch_of_step step (ne_surroundings_of_admits admits))

theorem Fresh.pending (h : Fresh d) : d.exchange.pending = none := by
  obtain ⟨name, framing, transport, hexchange⟩ := h.link.exchange
  rw [exchange, hexchange]
  rfl

theorem Fresh.kept (h : Fresh d) : Kept d.exchange d.ids := by
  obtain ⟨name, framing, transport, hexchange⟩ := h.link.exchange
  rw [exchange, hexchange, ids, h.underway]
  exact .fresh name framing transport

theorem Run.keeps {first last : Desk} {moments : List Moment} (hrun : Run first moments last)
    (hkept : Kept first.exchange first.ids) : Kept last.exchange last.ids := by
  induction hrun with
  | nil => exact hkept
  | snoc _ hstep ih => exact ih.step hstep

theorem Run.kept {first last : Desk} {moments : List Moment} (hfresh : Fresh first)
    (hrun : Run first moments last) : Kept last.exchange last.ids :=
  hrun.keeps hfresh.kept

end

end Desk
end Link
end Uplink
