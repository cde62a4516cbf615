import Uplink.Proofs.Link.Connection

/-!
# Connections are isolated

What is delivered is cut out of the streams of the connections, one by one.  A command that has the
place when its connection ends has lost it for good: no response of a later connection goes to it.  If
it was written, its submission ends with the connection.  If it still waits for the writer, which the
release of the connection has, its submission ends with the failure of its own write; and where its
submitter has gone, nobody is told anything.
-/

namespace Uplink
namespace Link
namespace Desk

/-- Where all responses of a run have to go. -/
def deliveries (moments : List Moment) : List Delivery :=
  Link.deliveries (moments.map Moment.toLink)

/-- Nothing is answered or published but what had to be delivered. -/
structure Delivered (made : List Delivery) (x : Exchange) : Prop where
  answered : ∀ id answer, (id, .ok answer) ∈ x.outcomes → .answered id answer ∈ made
  published : x.published = made.filterMap Delivery.published?

/-- A submission has lost the place for good. -/
structure Ended (id : ℕ) (d : Desk) : Prop where
  lt : id < d.exchange.submissions
  gone : d.exchange.open? ≠ some id

/-- If a submission is under way, it waits for its response. -/
def Waits (id : ℕ) (d : Desk) : Prop :=
  ∀ submission ∈ d.underway, submission.id = id → submission.phase = .waiting

end Desk

/-! ## Deliveries -/

namespace Exchange

variable {x : Exchange} {id : ℕ}

theorem published_vacate (x : Exchange) : x.vacate.published = x.published := by
  unfold vacate settlePending
  dsimp only
  split
  · split <;> rfl
  · rfl

/-- To clear the place answers nobody. -/
theorem mem_outcomes_of_vacate {answer : Answer} (h : (id, .ok answer) ∈ x.vacate.outcomes) :
    (id, .ok answer) ∈ x.outcomes := by
  unfold vacate at h
  split at h
  · unfold settlePending at h
    dsimp only at h
    split at h
    · exact (List.mem_cons.mp h).resolve_left (by simp)
    · exact h
  · exact h

end Exchange

namespace Desk

section

variable {made : List Delivery} {x x' : Exchange}

theorem Delivered.same (h : Delivered made x) (hpublished : x'.published = x.published)
    (houtcomes : ∀ id answer, (id, .ok answer) ∈ x'.outcomes → (id, .ok answer) ∈ x.outcomes) :
    Delivered made x' :=
  ⟨fun id answer hmem => h.answered id answer (houtcomes id answer hmem),
    hpublished.trans h.published⟩

theorem Delivered.of_parts (h : Delivered made x) (transport : Transport) (framer : Framer) :
    Delivered made { x with transport, framer } :=
  ⟨h.answered, h.published⟩

theorem Delivered.vacate (h : Delivered made x) : Delivered made x.vacate :=
  h.same x.published_vacate fun _ _ hmem => Exchange.mem_outcomes_of_vacate hmem

theorem Delivered.publish (h : Delivered made x) (hfree : x.pending = none)
    (responses : List String) :
    Delivered (made ++ responses.map .published) (responses.foldl Exchange.complete x) := by
  induction responses generalizing made x with
  | nil => simpa using h
  | cons response responses ih =>
      rw [List.map_cons, List.foldl_cons, ← List.singleton_append, ← List.append_assoc]
      refine ih ?_ (x.pending_complete response)
      rw [x.complete_of_none hfree]
      refine ⟨fun id answer hmem => List.mem_append_left _ (h.answered id answer hmem), ?_⟩
      rw [List.filterMap_append, ← h.published]
      exact List.reverse_cons

/-- The responses of a chunk are delivered as they have to be, also when the submitter of the command
in the place has given up. -/
theorem Delivered.complete (h : Delivered made x) (responses : List String) :
    Delivered (made ++ route x.pending responses) (responses.foldl Exchange.complete x) := by
  cases hpending : x.pending with
  | none => exact h.publish hpending responses
  | some pending =>
      cases responses with
      | nil => simpa [route] using h
      | cons response responses =>
          rw [route, List.foldl_cons, ← List.singleton_append, ← List.append_assoc]
          refine Delivered.publish ?_ (x.pending_complete response) responses
          rw [x.complete_of_some hpending]
          unfold Exchange.settlePending
          dsimp only
          refine ⟨fun id answer hmem => ?_, ?_⟩
          · split at hmem
            · rcases List.mem_cons.mp hmem with hthis | hmem
              · cases hthis
                exact List.mem_append_right _ List.mem_cons_self
              · exact List.mem_append_left _ (h.answered id answer hmem)
            · exact List.mem_append_left _ (h.answered id answer hmem)
          · rw [List.filterMap_append]
            refine Eq.trans ?_ (h.published.trans (List.append_nil _).symm)
            split <;> rfl

end

section

variable {d next : Desk} {label : Label} {made : List Delivery}

theorem map_response_deliveries (moments : List Moment) :
    (deliveries moments).map Delivery.response = moments.flatMap Moment.cut := by
  rw [deliveries, Link.map_response_deliveries, List.flatMap_map]
  rfl

theorem Delivered.touch {watched : Watcher.Label Unit} {x : Exchange}
    (h : Delivered made d.exchange) (htouch : Touch d.exchange watched x) :
    Delivered (made ++ route d.exchange.pending (Moment.mk d (.watcher watched)).cut) x := by
  cases htouch with
  | @read run chunk transport hread =>
      rw [cut_of_chunk hread, Exchange.receive_eq]
      exact (h.of_parts transport _).complete (responses (d.exchange.framer.push chunk).2)
  | idle hwatched =>
      rw [cut_of_ne_worked, route_nil, List.append_nil]
      · exact h
      · rintro run hlabel
        cases hlabel
        exact hwatched
  | acquire | refuse | lose =>
      rw [cut_of_ne_worked (by simp), route_nil, List.append_nil]
      exact h.of_parts _ _
  | shut =>
      rw [cut_of_ne_worked (by simp), route_nil, List.append_nil, Exchange.shut_eq_vacate]
      exact (h.of_parts d.exchange.transport.disconnect d.exchange.framer).vacate

theorem Delivered.step (h : Delivered made d.exchange) (hstep : Step d label next) :
    Delivered (made ++ route d.exchange.pending (Moment.mk d label).cut) next.exchange := by
  have hquiet : (∀ watched, label ≠ .watcher watched) → Delivered made next.exchange →
      Delivered (made ++ route d.exchange.pending (Moment.mk d label).cut) next.exchange := by
    intro hlabel hnext
    rw [cut_of_ne_worked fun run => hlabel _, route_nil, List.append_nil]
    exact hnext
  cases hstep with
  | watcher step admits => exact h.touch (touch_of_step step (ne_surroundings_of_admits admits))
  | take | written | resume => exact hquiet (by simp) h
  | transport => exact hquiet (by simp) (h.of_parts _ _)
  | submit command =>
      refine hquiet (by simp) ?_
      rcases d.submit_cases command with ⟨failure, -, hsubmit⟩ | ⟨-, -, hsubmit⟩
      · rw [hsubmit]
        exact h.same rfl fun _ _ hmem => (List.mem_cons.mp hmem).resolve_left (by simp)
      · rw [hsubmit]
        exact h.same rfl fun _ _ hmem => hmem
  | failed =>
      refine hquiet (by simp) (h.same d.exchange.published_vacate fun id answer hmem => ?_)
      have hmem := (List.mem_cons.mp hmem).resolve_left (by simp)
      exact Exchange.mem_outcomes_of_vacate (List.mem_of_mem_filter hmem)
  | abandon =>
      exact hquiet (by simp) (h.same rfl fun _ _ hmem => List.mem_of_mem_filter hmem)

end

/-! ## After the place is lost for good -/

section

variable {d next : Desk} {label : Label} {id : ℕ}

theorem submissions_of_touch {watched : Watcher.Label Unit} {x x' : Exchange}
    (h : Touch x watched x') : x'.submissions = x.submissions := by
  cases h with
  | idle | acquire | refuse | lose => rfl
  | read =>
      rw [Exchange.receive_eq]
      exact (Exchange.frame_foldl_complete ..).2
  | shut =>
      rw [Exchange.shut_eq_vacate]
      exact (Exchange.frame_vacate _).2.2

theorem Step.submissions_le (h : Step d label next) :
    d.exchange.submissions ≤ next.exchange.submissions := by
  cases h with
  | submit command =>
      rcases d.submit_cases command with ⟨failure, -, hsubmit⟩ | ⟨-, -, hsubmit⟩
      · rw [hsubmit]
        exact Nat.le_succ _
      · rw [hsubmit]
        exact Nat.le_succ _
  | take | written | resume | abandon | transport => exact Nat.le_refl _
  | failed => exact Nat.le_of_eq d.exchange.frame_vacate.2.2.symm
  | watcher step admits =>
      have htouch := touch_of_step step (ne_surroundings_of_admits admits)
      exact Nat.le_of_eq (submissions_of_touch htouch).symm

theorem Ended.step (h : Ended id d) (hstep : Step d label next)
    (hkept : Kept d.exchange d.ids) : Ended id next := by
  refine ⟨Nat.lt_of_lt_of_le h.lt hstep.submissions_le, fun hopen => ?_⟩
  obtain ⟨pending, hpending, rfl⟩ := Exchange.open?_eq_some.mp hopen
  cases hplace : d.exchange.pending with
  | none =>
      obtain ⟨-, -, hnew⟩ := hstep.place_of_free hplace hpending
      exact Nat.ne_of_lt h.lt (congrArg Pending.id hnew)
  | some before =>
      have hother : before.id ≠ pending.id :=
        fun hid => h.gone (Exchange.open?_eq_some.mpr ⟨before, hplace, hid⟩)
      rcases hstep.eq_or_left hkept hplace hpending with rfl | ⟨-, rfl⟩
      · exact hother rfl
      · exact hother rfl

/-- Whoever waits for the response does not write again. -/
theorem Waits.step (h : Waits id d) (hlt : id < d.exchange.submissions)
    (hstep : Step d label next) : Waits id next ∧ ∀ failure, label ≠ .failed id failure := by
  have hsame : ∀ {d' : Desk}, (∀ submission ∈ d'.underway, submission ∈ d.underway) →
      Waits id d' := fun hunderway submission hmem => h submission (hunderway submission hmem)
  have hne : ∀ {phase : Phase} {other : ℕ}, ⟨other, phase⟩ ∈ d.underway → phase ≠ .waiting →
      other ≠ id := fun hmem hphase hid => hphase (h _ hmem hid)
  cases hstep with
  | submit command =>
      refine ⟨?_, by simp⟩
      rcases d.submit_cases command with ⟨failure, -, hsubmit⟩ | ⟨-, -, hsubmit⟩
      · rw [hsubmit]
        exact hsame fun _ hmem => hmem
      · rw [hsubmit]
        intro submission hmem hid
        rcases List.mem_append.mp hmem with hmem | hmem
        · exact h submission hmem hid
        · cases List.mem_singleton.mp hmem
          exact absurd hid (Nat.ne_of_gt hlt)
  | take _ queued =>
      refine ⟨fun submission hmem hid => ?_, by simp⟩
      rcases mem_toPhase hmem with hbefore | rfl
      · exact h submission hbefore hid
      · exact absurd hid (hne queued (by simp))
  | written writing _ =>
      refine ⟨fun submission hmem hid => ?_, by simp⟩
      rcases mem_toPhase hmem with hbefore | rfl
      · exact h submission hbefore hid
      · rfl
  | failed writing =>
      refine ⟨hsame fun _ hmem => List.mem_of_mem_filter hmem, ?_⟩
      rintro failure hlabel
      cases hlabel
      exact hne writing (by simp) rfl
  | resume | abandon => exact ⟨hsame fun _ hmem => List.mem_of_mem_filter hmem, by simp⟩
  | transport | watcher => exact ⟨hsame fun _ hmem => hmem, by simp⟩

end

/-! ## A run -/

section

variable {first last : Desk} {moments : List Moment} {id : ℕ}

/-- A run from any of its moments on. -/
theorem Run.split {earlier later : List Moment} {moment : Moment}
    (h : Run first moments last) (hmoments : moments = earlier ++ moment :: later) :
    Run first earlier moment.desk ∧
      ∃ next, Step moment.desk moment.label next ∧ Run next later last := by
  induction h generalizing later with
  | nil => exact absurd hmoments (by simp)
  | snoc hrun hstep ih =>
      -- the moment is the last one, or it is one of those before
      rcases later.eq_nil_or_concat' with rfl | ⟨later, final, rfl⟩
      · obtain ⟨rfl, hmoment⟩ := List.append_inj' hmoments rfl
        cases hmoment
        exact ⟨hrun, _, hstep, .nil _⟩
      · rw [← List.cons_append, ← List.append_assoc] at hmoments
        obtain ⟨hbefore, hfinal⟩ := List.append_inj' hmoments rfl
        cases hfinal
        obtain ⟨hearlier, next, hnext, hlater⟩ := ih hbefore
        exact ⟨hearlier, next, hnext, hlater.snoc hstep⟩

theorem Run.ended (hrun : Run first moments last) (hkept : Kept first.exchange first.ids)
    (hended : Ended id first) : Ended id last := by
  induction hrun with
  | nil => exact hended
  | snoc hrun hstep ih => exact ih.step hstep (hrun.keeps hkept)

theorem Run.submissions_le (hrun : Run first moments last) :
    first.exchange.submissions ≤ last.exchange.submissions := by
  induction hrun with
  | nil => exact Nat.le_refl _
  | snoc _ hstep ih => exact Nat.le_trans ih hstep.submissions_le

theorem Run.waits (hrun : Run first moments last) (hlt : id < first.exchange.submissions)
    (hwaits : Waits id first) :
    Waits id last ∧ ∀ moment ∈ moments, ∀ failure, moment.label ≠ .failed id failure := by
  induction hrun with
  | nil => exact ⟨hwaits, by simp⟩
  | snoc hrun hstep ih =>
      obtain ⟨hlast, hbefore⟩ := ih
      obtain ⟨hnext, hlabel⟩ := hlast.step (Nat.lt_of_lt_of_le hlt hrun.submissions_le) hstep
      refine ⟨hnext, fun moment hmem => ?_⟩
      rcases List.mem_append.mp hmem with hmem | hmem
      · exact hbefore moment hmem
      · cases List.mem_singleton.mp hmem
        exact hlabel

theorem Kept.waits {d : Desk} (h : Kept d.exchange d.ids)
    (hwaiting : ⟨id, .waiting⟩ ∈ d.underway) : Waits id d := by
  intro submission hmem hid
  have hsame := List.inj_on_of_nodup_map h.nodup hmem hwaiting hid
  rw [hsame]

end

/-! ## A connection that ends while a command waits, and the next one -/

/-- The command is written, and a response has begun. -/
def begunDesk : Desk :=
  (askedDesk.hear [60, 120]).moved

/-- The peer has gone. -/
def hungDesk : Desk :=
  begunDesk.withExchange { begunDesk.exchange with transport := begunDesk.exchange.transport.hangUp }

/-- The connection has ended, and its submitter has gone on.  It is time for the next attempt. -/
def pausedDesk : Desk :=
  { hungDesk.moved.moved.dismiss 0 with
    link := { hungDesk.moved.moved.link with now := 1000 } }

/-- The transport is acquired again, and more bytes have come. -/
def againDesk : Desk :=
  pausedDesk.moved.moved.hear [121, 62, 60, 122, 62]

/-- From the start of the link to the end of the first connection. -/
def hungMoments : List Moment :=
  writingMoments ++ [⟨writingDesk, .written 0⟩] ++ [⟨askedDesk, .transport⟩] ++
    [⟨askedDesk.hear [60, 120], .watcher (.move (.worked 0))⟩] ++ [⟨begunDesk, .transport⟩] ++
    [⟨hungDesk, .watcher (.move (.ended 0 .failed))⟩]

/-- From then on to the reading of the second stream. -/
def againMoments : List Moment :=
  [⟨hungDesk.moved.moved, .resume 0⟩] ++ [⟨hungDesk.moved.moved.dismiss 0, .watcher .time⟩] ++
    [⟨pausedDesk, .watcher (.move (.attempted 0))⟩] ++
    [⟨pausedDesk.moved, .watcher (.move (.acquired 0))⟩] ++
    [⟨pausedDesk.moved.moved, .transport⟩] ++
    [⟨againDesk, .watcher (.move (.worked 0))⟩]

theorem run_hungMoments : Run idleDesk hungMoments hungDesk.moved := by
  have hheard := run_askedDesk.snoc (step_hear askedDesk [60, 120])
  have hbegun := hheard.snoc (step_moved (.worked 0) (by decide +kernel) trivial)
  have hhung := hbegun.snoc (show Step _ _ hungDesk from .transport .rfl)
  exact hhung.snoc (step_moved (.ended 0 .failed) (by decide +kernel) trivial)

theorem run_againMoments : Run hungDesk.moved.moved againMoments againDesk.moved := by
  have hresume : Step hungDesk.moved.moved (.resume 0) (hungDesk.moved.moved.dismiss 0) :=
    .resume (by decide +kernel) (by decide +kernel)
  have hpause : Step (hungDesk.moved.moved.dismiss 0) (.watcher .time) pausedDesk :=
    .watcher (.time (by decide +kernel)) trivial
  have hpaused := (Run.single hresume).snoc hpause
  have hattempted := hpaused.snoc (step_moved (.attempted 0) (by decide +kernel) trivial)
  have hacquired := hattempted.snoc (step_moved (.acquired 0) (by decide +kernel)
    (show WriterFree _ by decide +kernel))
  have hheard := hacquired.snoc (step_hear pausedDesk.moved.moved [121, 62, 60, 122, 62])
  exact hheard.snoc (step_moved (.worked 0) (by decide +kernel) trivial)

/-- From the start of the link to the reading of the second stream. -/
def reconnectedMoments : List Moment :=
  hungMoments ++ ⟨hungDesk.moved, .watcher (.move (.released 0 .failed))⟩ :: againMoments

theorem run_reconnectedMoments : Run idleDesk reconnectedMoments againDesk.moved := by
  have hreleased := run_hungMoments.snoc
    (step_moved (.released 0 .failed) (by decide +kernel) (show WriterFree _ by decide +kernel))
  have hagain := hreleased.trans run_againMoments
  rwa [List.append_assoc] at hagain

end Desk
end Link
end Uplink
