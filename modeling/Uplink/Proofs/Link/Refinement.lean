import Uplink.Proofs.Link.Interleaving

/-!
# Submissions in one piece

`Watched.submit` takes the place, writes, and notes a failure at once, and `Watched.abandon` lets every
submitter give up at once.  What happens to a link in this way is a run of the parts, one after
another, at a desk where everyone under way waits for the response.  So all that is proved of every
interleaving holds of such a link.
-/

namespace Uplink
namespace Link

section

variable {t t' : Transport} {bytes : List UInt8}

theorem stream_of_write_ok (h : t.write bytes = (.ok (), t')) :
    t.stream ≠ .closed ∧ t'.stream ≠ .closed := by
  unfold Transport.write at h
  split at h
  · rename_i hstream
    split at h
    · cases h
      exact ⟨by simp [hstream], by simp [hstream]⟩
    · cases h
  · rename_i hstream
    cases h
    exact ⟨by simp [hstream], by simp⟩
  · cases h
  · cases h

/-- A write that fails leaves the transport as it was. -/
theorem eq_of_write_error {failure : Failure} (h : t.write bytes = (.error failure, t')) :
    t' = t := by
  unfold Transport.write at h
  split at h
  · split at h
    · cases h
    · cases h
      rfl
  · cases h
  · cases h
    rfl
  · cases h
    rfl

end

namespace Exchange

variable {x : Exchange} {id : ℕ}

theorem filter_outcomes (h : id ∉ x.settled) :
    (x.outcomes.filter fun outcome => outcome.1 ≠ id) = x.outcomes := by
  refine List.filter_eq_self.mpr fun outcome houtcome => ?_
  have hne : outcome.1 ≠ id := by
    rintro rfl
    exact h (List.mem_map_of_mem houtcome)
  simpa using hne

/-- To take the place and to fail in the write is to fail. -/
theorem failWrite_reserve (hfree : x.pending = none) (hnew : id ∉ x.settled) (command : String)
    (failure : Failure) :
    (x.reserve id command).failWrite id failure = x.conclude id (.error failure) := by
  have hvacate : (x.reserve id command).vacate = x.conclude id (.error (.closed x.name)) := by
    unfold vacate reserve
    dsimp only
    rw [settlePending_of_awaited _ _ rfl]
    simp only [← hfree]
  rw [failWrite, hvacate]
  simp only [conclude, forget]
  rw [List.filter_cons_of_neg (by simp), filter_outcomes hnew]

end Exchange

namespace Desk

/-- Every submission under way waits for the response, with its command in the place. -/
def AtEase (d : Desk) : Prop :=
  ∀ submission ∈ d.underway,
    submission.phase = .waiting ∧ d.exchange.open? = some submission.id

section

variable {d : Desk}

theorem AtEase.underway_eq_nil (h : d.AtEase) (hfree : d.exchange.pending = none) :
    d.underway = [] := by
  refine List.eq_nil_iff_forall_not_mem.mpr fun submission hmem => ?_
  have hopen := (h submission hmem).2
  rw [Exchange.open?, hfree] at hopen
  cases hopen

/-- Ease is a matter of the place alone. -/
theorem AtEase.withExchange (h : d.AtEase) {x : Exchange} (hopen : x.open? = d.exchange.open?) :
    (d.withExchange x).AtEase := by
  intro submission hmem
  obtain ⟨hphase, hplace⟩ := h submission hmem
  exact ⟨hphase, hopen.trans hplace⟩

theorem writerFree_of_waiting (h : ∀ submission ∈ d.underway, submission.phase = .waiting) :
    d.WriterFree := by
  intro submission hmem
  rw [h submission hmem]
  simp

/-- While everyone waits for the response, anything may happen to the watcher. -/
theorem admits_of_waiting {label : Watcher.Label Unit}
    (h : ∀ submission ∈ d.underway, submission.phase = .waiting) (hsurroundings : label ≠ .surroundings)
    (hsay : ∀ run ready, label ≠ .say run ready) : d.Admits label := by
  unfold Admits
  split
  · exact hsurroundings rfl
  · exact hsay _ _ rfl
  · exact writerFree_of_waiting h
  · exact writerFree_of_waiting h
  · trivial

/-- All whose command has lost the place go on. -/
theorem exists_run_resume (h : ∀ submission ∈ d.underway, submission.phase = .waiting) :
    ∃ moments last, Run d moments last ∧ last.link = d.link ∧ last.AtEase ∧
      ∀ moment ∈ moments, ∃ id, moment.label = .resume id := by
  induction hlength : d.underway.length using Nat.strong_induction_on generalizing d with
  | _ n ih =>
    subst hlength
    by_cases hease : d.AtEase
    · exact ⟨[], d, .nil d, rfl, hease, by simp⟩
    · -- one of those who wait goes on, and fewer are left
      obtain ⟨⟨id, phase⟩, hmem, hended⟩ : ∃ submission ∈ d.underway,
          d.exchange.open? ≠ some submission.id := by
        unfold AtEase at hease
        push Not at hease
        obtain ⟨submission, hmem, hended⟩ := hease
        exact ⟨submission, hmem, hended (h submission hmem)⟩
      obtain rfl : phase = .waiting := h _ hmem
      have hlt : (d.dismiss id).underway.length < d.underway.length :=
        List.length_filter_lt_length_iff_exists.mpr ⟨_, hmem, by simp⟩
      have hleft : ∀ submission ∈ (d.dismiss id).underway, submission.phase = .waiting :=
        fun submission hmem => h submission (List.mem_of_mem_filter hmem)
      obtain ⟨moments, last, hrun, hlink, hlast, hresumes⟩ := ih _ hlt hleft rfl
      refine ⟨_, last, (Run.single (.resume hmem hended)).trans hrun, hlink, hlast, ?_⟩
      simpa using hresumes

/-- The writer goes to the only one who is under way. -/
theorem step_take_sole (link : Watched) (id : ℕ) :
    Step ⟨link, [⟨id, .queued⟩]⟩ (.take id) ⟨link, [⟨id, .writing⟩]⟩ := by
  have hstep : Step ⟨link, [⟨id, .queued⟩]⟩ (.take id) _ :=
    .take (by simp [WriterFree]) List.mem_cons_self
  simpa [toPhase] using hstep

/-- The write of the only one who is under way ends well. -/
theorem step_written_sole {link : Watched} (id : ℕ)
    (hopen : link.resource.transport.stream ≠ .closed) :
    Step ⟨link, [⟨id, .writing⟩]⟩ (.written id) ⟨link, [⟨id, .waiting⟩]⟩ := by
  have hstep : Step ⟨link, [⟨id, .writing⟩]⟩ (.written id) _ := .written List.mem_cons_self hopen
  simpa [toPhase] using hstep

/-- The write of the only one who is under way fails, and its submission with it. -/
theorem step_failed_sole (w : Watched) {x : Exchange} {id : ℕ} (hfree : x.pending = none)
    (hnew : id ∉ x.settled) (command : String) (failure : Failure) :
    Step ⟨w.withResource (x.reserve id command), [⟨id, .writing⟩]⟩ (.failed id failure)
      ⟨w.withResource (x.conclude id (.error failure)), []⟩ := by
  have hunderway : ([⟨id, .writing⟩] : List Submission).filter (·.id ≠ id) = [] := by simp
  have hlink := congrArg w.withResource (Exchange.failWrite_reserve hfree hnew command failure)
  have hdesk : Desk.fail ⟨w.withResource (x.reserve id command), [⟨id, .writing⟩]⟩ id failure =
      ⟨w.withResource (x.conclude id (.error failure)), []⟩ :=
    congrArg₂ Desk.mk hlink hunderway
  rw [← hdesk]
  exact .failed List.mem_cons_self

theorem atEase_nil (link : Watched) : AtEase ⟨link, []⟩ := by
  simp [AtEase]

/-- The command in the place is written in one piece: the writer is taken, the transport changes, and
the write ends. -/
theorem exists_run_send (w : Watched) {x : Exchange} {id : ℕ} (hfree : x.pending = none)
    (hnew : id ∉ x.settled) (command : String) :
    ∃ moments last,
      Run ⟨w.withResource (x.reserve id command), [⟨id, .queued⟩]⟩ moments last ∧
        last.link = w.withResource (x.send id command) ∧ last.AtEase := by
  have htake := Run.single (step_take_sole (w.withResource (x.reserve id command)) id)
  rw [Exchange.send]
  split
  · rename_i transport hwrite
    obtain ⟨hopen, hopen'⟩ := stream_of_write_ok hwrite
    have htransport : Step ⟨w.withResource (x.reserve id command), [⟨id, .writing⟩]⟩ .transport
        ⟨w.withResource { x.reserve id command with transport }, [⟨id, .writing⟩]⟩ :=
      .transport (iff_of_false hopen' hopen)
    refine ⟨_, _, (htake.snoc htransport).snoc (step_written_sole id hopen'), rfl, ?_⟩
    intro submission hmem
    cases List.mem_singleton.mp hmem
    exact ⟨rfl, rfl⟩
  · rename_i failure transport hwrite
    obtain rfl := eq_of_write_error hwrite
    exact ⟨_, _, htake.snoc (step_failed_sole w hfree hnew command failure), rfl, atEase_nil _⟩

/-- A submission in one piece is a run of its parts. -/
theorem exists_run_submit (hkept : Kept d.exchange d.ids) (hease : d.AtEase) (command : String) :
    ∃ moments last, Run d moments last ∧ last.link = d.link.submit command ∧ last.AtEase := by
  have hsubmit := Run.single (.submit d command)
  by_cases hready : d.link.ready = true
  · cases hpending : d.exchange.pending with
    | some pending =>
        have hresource : d.link.resource.pending = some pending := hpending
        refine ⟨_, _, hsubmit, ?_, ?_⟩
        · simp [Desk.submit, Watched.submit, hready, hresource, Desk.withExchange, exchange]
        · rw [Desk.submit, hready]
          simp only [hpending]
          exact hease.withExchange (congrArg (Option.map Pending.id) hpending).symm
    | none =>
        have hresource : d.link.resource.pending = none := hpending
        have hnew : d.exchange.submissions ∉ d.exchange.settled :=
          fun hmem => Nat.lt_irrefl _ (hkept.settled_lt _ hmem)
        obtain ⟨moments, last, hrun, hlink, hlast⟩ := exists_run_send d.link
          (x := { d.exchange with submissions := d.exchange.submissions + 1 }) hpending hnew command
        have hsend : Run (d.submit command) moments last := by
          simpa [Desk.submit, hready, hpending, hease.underway_eq_nil hpending] using hrun
        refine ⟨_, last, hsubmit.trans hsend, ?_, hlast⟩
        simpa [Watched.submit, hready, hresource, exchange] using hlink
  · refine ⟨_, _, hsubmit, ?_, ?_⟩
    · simp [Desk.submit, Watched.submit, hready, Desk.withExchange, exchange]
    · rw [Desk.submit, eq_false_of_ne_true hready]
      exact hease.withExchange rfl

/-- When every submitter gives up, the one that is under way does, if there is one. -/
theorem abandon_cases (hkept : Kept d.exchange d.ids) (hease : d.AtEase) :
    d.link.abandon = d.link ∨
      ∃ id ∈ d.ids, (d.abandon id).link = d.link.abandon ∧ (d.abandon id).AtEase := by
  cases hunderway : d.underway with
  | nil =>
      -- the command in the place, if there is one, has lost its submitter before
      have hsame : (d.exchange.pending.map fun pending => { pending with awaited := false }) =
          d.exchange.pending := by
        cases hpending : d.exchange.pending with
        | none => rfl
        | some pending =>
            have hiff := hkept.awaited pending hpending
            rw [ids, hunderway] at hiff
            have hawaited : pending.awaited = false := by simpa using hiff
            rw [Option.map_some, ← hawaited]
      exact .inl (congrArg (fun place => d.link.withResource { d.exchange with pending := place })
        hsame)
  | cons submission rest =>
      obtain ⟨pending, hpending, hid⟩ := Exchange.open?_eq_some.mp
        (hease submission (hunderway ▸ List.mem_cons_self)).2
      have hnew : pending.id ∉ d.exchange.settled := hkept.unsettled pending hpending
      have hmem : pending.id ∈ d.ids := by
        rw [ids, hunderway, hid]
        exact List.mem_cons_self
      have hnil : (d.abandon pending.id).underway = [] := by
        refine List.filter_eq_nil_iff.mpr fun other hother => ?_
        have hopen := (hease other hother).2
        rw [Exchange.open?, hpending] at hopen
        simpa using (Option.some.inj hopen).symm
      refine .inr ⟨pending.id, hmem, ?_, ?_⟩
      · have hresource : d.link.resource.pending = some pending := hpending
        have houtcomes := Exchange.filter_outcomes hnew
        simp only [exchange] at houtcomes
        simp only [Desk.abandon, link_dismiss, Desk.withExchange, Exchange.leave, Exchange.forget,
          exchange, Watched.abandon, hresource, Option.map_some, if_pos, houtcomes]
      · intro other hother
        rw [hnil] at hother
        cases hother

theorem exists_run_abandon (hkept : Kept d.exchange d.ids) (hease : d.AtEase) :
    ∃ moments last, Run d moments last ∧ last.link = d.link.abandon ∧ last.AtEase := by
  rcases abandon_cases hkept hease with hlink | ⟨id, hid, hlink, hlast⟩
  · exact ⟨[], d, .nil d, hlink.symm, hease⟩
  · exact ⟨_, _, Run.single (.abandon hid), hlink, hlast⟩

/-- What happens to a link in one piece is a run of a desk. -/
theorem exists_run_of_step {label : Link.Label} {next : Watched}
    (hkept : Kept d.exchange d.ids) (hease : d.AtEase) (hstep : Link.Step d.link label next)
    (hsay : ∀ run ready, label ≠ .watcher (.say run ready))
    (hstream : label = .transport →
      (next.resource.transport.stream = .closed ↔ d.exchange.transport.stream = .closed)) :
    ∃ moments last, Run d moments last ∧ last.link = next ∧ last.AtEase := by
  cases hstep with
  | submit command => exact exists_run_submit hkept hease command
  | abandon => exact exists_run_abandon hkept hease
  | transport transport =>
      exact ⟨_, _, Run.single (.transport (hstream rfl)), rfl, hease⟩
  | @watcher _ label hwatcher hsurroundings =>
      have hwaiting : ∀ submission ∈ d.underway, submission.phase = .waiting :=
        fun submission hmem => (hease submission hmem).1
      have hadmits := admits_of_waiting hwaiting hsurroundings fun run ready hlabel =>
        hsay run ready (congrArg _ hlabel)
      obtain ⟨moments, last, hrun, hlink, hlast, -⟩ :=
        exists_run_resume (d := { d with link := next }) hwaiting
      exact ⟨_, last, (Run.single (.watcher hwatcher hadmits)).trans hrun, hlink, hlast⟩

end

/-! ## A run in one piece -/

/-- The changes of the transport by its surroundings are of a certain kind. -/
def Steady (kind : Transport → Transport → Prop) (moments : List Link.Moment) (last : Watched) :
    Prop :=
  ∀ earlier moment later, moments = earlier ++ moment :: later → moment.label = .transport →
    kind moment.link.resource.transport
      ((later.map Link.Moment.link).headD last).resource.transport

theorem Steady.of_concat {kind : Transport → Transport → Prop} {moments : List Link.Moment}
    {moment : Link.Moment} {last : Watched} (h : Steady kind (moments ++ [moment]) last) :
    Steady kind moments moment.link := by
  rintro earlier other later rfl hlabel
  have hother := h earlier other (later ++ [moment]) (by simp) hlabel
  cases later with
  | nil => exact hother
  | cons next later => exact hother

/-- Whatever happens to a link in one piece, it is what happens to the link of a desk, if the
surroundings neither open nor close the stream. -/
theorem exists_run_of_run {first last : Watched} {moments : List Link.Moment}
    (hrun : Link.Run first moments last) (hfresh : Link.Fresh first)
    (hsay : ∀ moment ∈ moments, ∀ run ready, moment.label ≠ .watcher (.say run ready))
    (hsteady : Steady (fun t t' => t'.stream = .closed ↔ t.stream = .closed) moments last) :
    ∃ parts desk, Run { link := first } parts desk ∧ desk.link = last ∧ desk.AtEase := by
  induction hrun with
  | nil => exact ⟨[], _, .nil _, rfl, by simp [AtEase]⟩
  | @snoc last next moments label _ hstep ih =>
      obtain ⟨parts, desk, hparts, rfl, hease⟩ :=
        ih (fun moment hmem => hsay moment (List.mem_append_left _ hmem)) hsteady.of_concat
      have hkept := hparts.kept ⟨hfresh, rfl⟩
      obtain ⟨more, final, hmore, hlink, hfinal⟩ := exists_run_of_step hkept hease hstep
        (hsay _ (List.mem_append_right _ List.mem_cons_self))
        (hsteady moments ⟨desk.link, label⟩ [] rfl)
      exact ⟨_, final, hparts.trans hmore, hlink, hfinal⟩

end Desk
end Link
end Uplink
