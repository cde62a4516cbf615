import Uplink.Proofs.Modem.Stream

/-!
# What a modem is asked

The run of a connection has requests to make, and knows when the next one is due.  It tries them one by
one; a request that fails is noted as an error, and leaves the run and the other requests as they are.
Nothing is written but by a request, and no request is tried but on an open connection.
-/

namespace Uplink

namespace Transport

/-- Nothing was written: the files hold what they held, and no piece was added to those that the peer
is to see. -/
structure Unwritten (t next : Transport) : Prop where
  files : next.files = t.files
  outbox : next.outbox <:+ t.outbox

section

variable {t next : Transport} {bytes : List UInt8}

theorem Unwritten.refl (t : Transport) : t.Unwritten t :=
  ⟨rfl, List.suffix_refl _⟩

theorem unwritten_disconnect (t : Transport) : t.Unwritten t.disconnect :=
  ⟨rfl, List.suffix_refl _⟩

theorem unwritten_connect (t : Transport) : t.Unwritten t.connect.2 := by
  unfold connect
  dsimp only
  split
  · split
    · exact ⟨rfl, List.nil_suffix⟩
    · exact ⟨rfl, List.suffix_refl _⟩
    · exact ⟨rfl, List.suffix_refl _⟩
  · repeat' split
    all_goals exact ⟨rfl, List.suffix_refl _⟩
  · split
    · exact ⟨rfl, List.nil_suffix⟩
    · exact ⟨rfl, List.suffix_refl _⟩

theorem unwritten_read (limit : ℕ) (t : Transport) : t.Unwritten (t.read limit).2 := by
  unfold read
  dsimp only
  repeat' split
  all_goals exact ⟨rfl, List.suffix_refl _⟩

/-- What fails to be written is not written in part either. -/
theorem write_of_failed (h : (t.write bytes).1.isOk = false) : (t.write bytes).2 = t := by
  unfold write at h ⊢
  split
  · rename_i hstream
    simp only [hstream] at h
    split
    · rename_i hpeer
      rw [if_pos hpeer] at h
      cases h
    · rfl
  · rename_i hstream
    simp only [hstream] at h
    cases h
  · rfl
  · rfl

end
end Transport

namespace Modem

/-! ## What is asked -/

/-- The note about a request that is tried. -/
def Request.noted (request : Request) (success : Bool) : Note :=
  if success then request.note else .error

/-- A request that is tried, with the time, and whether it is written. -/
structure Attempt where
  time : ℕ
  request : Request
  success : Bool

/-- The note about an attempt. -/
def Attempt.note (a : Attempt) : Note :=
  a.request.noted a.success

/-- The attempt that is made in a step. -/
def attempt? (w : Watched) : Label → Option Attempt
  | .watcher (.move (.worked _)) =>
      w.resource.requests.head?.map fun request =>
        ⟨w.now, request, (w.resource.transport.write (Text.utf8 request.text)).1.isOk⟩
  | _ => none

/-- The attempt that is made at a moment. -/
def Moment.attempt? (m : Moment) : Option Attempt :=
  Modem.attempt? m.modem m.label

/-- The attempts that are made, in order. -/
def attempts (moments : List Moment) : List Attempt :=
  moments.filterMap Moment.attempt?

/-! ## Working -/

namespace Session

/-- A connection begins with both requests, and the next one is due when the interval is over. -/
structure Opened (s : Session) (now : ℕ) (next : Session) : Prop where
  requests : next.requests = [.identity, .signal]
  due : next.nextRequest = s.afterInterval now
  interval : next.interval = s.interval

/-- The run tried a request, and has the other ones left. -/
structure Asked (s : Session) (request : Request) (rest : List Request) (next : Session) :
    Prop where
  pending : s.requests = request :: rest
  left : next.requests = rest
  due : next.nextRequest = s.nextRequest
  interval : next.interval = s.interval
  transport : next.transport = (s.transport.write (Text.utf8 request.text)).2

/-- The run found that the signal is to be asked for again. -/
structure Ticked (s : Session) (now : ℕ) (next : Session) : Prop where
  pending : s.requests = []
  past : s.nextRequest ≤ now
  left : next.requests = [.signal]
  due : next.nextRequest = s.afterInterval now
  interval : next.interval = s.interval
  transport : next.transport = s.transport

/-- The requests to be made are the same as before, and so is the time of the next one. -/
structure Keeps (s next : Session) : Prop where
  requests : next.requests = s.requests
  due : next.nextRequest = s.nextRequest
  interval : next.interval = s.interval

theorem Keeps.refl (s : Session) : s.Keeps s :=
  ⟨rfl, rfl, rfl⟩

section

variable {s next : Session} {task : Watcher.Task} {now : ℕ} {permit success : Bool}
  {deed : Watcher.Deed} {until? : Option ℕ}

theorem ask_eq (s : Session) (request : Request) :
    s.ask request =
      ({ s with transport := (s.transport.write (Text.utf8 request.text)).2 },
        request.noted (s.transport.write (Text.utf8 request.text)).1.isOk) := by
  unfold ask
  split
  · rename_i hwrite
    rw [hwrite]
    rfl
  · rename_i hwrite
    rw [hwrite]
    rfl

/-- A run works by trying a request, by reading what came, or by finding that a request is due; as long
as there are requests, it does nothing else. -/
theorem work_cases (h : s.drive now = .work next deed) :
    (∃ request rest, s.Asked request rest next ∧
      deed.notes = [request.noted (s.transport.write (Text.utf8 request.text)).1.isOk]) ∨
    s.Ticked now next ∨
    s.requests = [] ∧ s.Keeps next ∧ next.transport = (s.transport.read readLimit).2 := by
  unfold drive at h
  split at h
  · rename_i request rest hrequests
    simp only [ask_eq] at h
    cases h
    exact .inl ⟨request, rest, ⟨hrequests, rfl, rfl, rfl, rfl⟩, rfl⟩
  · rename_i hrequests
    split at h
    · cases h
    · rename_i chunk transport hread
      simp only [receive_eq] at h
      cases h
      exact .inr (.inr ⟨hrequests, ⟨rfl, rfl, rfl⟩, by rw [hread]; rfl⟩)
    · split at h
      · cases h
      · rename_i hpast
        cases h
        exact .inr (.inl ⟨hrequests, Nat.le_of_not_lt hpast, rfl, rfl, rfl, rfl⟩)

/-- A run waits only for the next request, and only if there is none to be made. -/
theorem drive_eq_wait (h : s.drive now = .wait until?) :
    s.requests = [] ∧ now < s.nextRequest ∧ until? = some s.nextRequest := by
  unfold drive at h
  split at h
  · cases h
  · rename_i hrequests
    split at h
    · cases h
    · cases h
    · split at h
      · rename_i hlt
        cases h
        exact ⟨hrequests, hlt, rfl⟩
      · cases h

/-- A task that comes to its end writes nothing, and leaves no request that was to be made. -/
theorem keeps_of_finish (h : resource.act task () now permit s = .finish next success) :
    s.Keeps next ∧ s.transport.Unwritten next.transport ∧ (task = .drive → s.requests = []) := by
  cases task with
  | acquire =>
      have hconnect := Transport.unwritten_connect s.transport
      simp only [resource, act, acquire] at h
      split at h
      · rename_i hok
        rw [hok] at hconnect
        cases h
        exact ⟨⟨rfl, rfl, rfl⟩, hconnect, by rintro ⟨⟩⟩
      · rename_i hfailed
        rw [hfailed] at hconnect
        cases h
        exact ⟨⟨rfl, rfl, rfl⟩, hconnect, by rintro ⟨⟩⟩
  | drive =>
      have hread := Transport.unwritten_read readLimit s.transport
      simp only [resource, act, drive] at h
      split at h
      · cases h
      · rename_i hrequests
        split at h
        · rename_i hended
          rw [hended] at hread
          cases h
          exact ⟨⟨rfl, rfl, rfl⟩, hread, fun _ => hrequests⟩
        · cases h
        · split at h <;> cases h
  | release =>
      cases h
      exact ⟨⟨rfl, rfl, rfl⟩, Transport.unwritten_disconnect _, by rintro ⟨⟩⟩

end
end Session

/-! ## What a step does about the requests -/

/-- What a step does about the requests of a connection.  A connection ends by a stop, or when there is
no request to be made. -/
inductive Duty (w : Watched) (label : Label) (next : Watched) : Prop where
  | open (opens : label.opens = true) (untried : attempt? w label = none) (driving : Driving next)
      (opened : w.resource.Opened w.now next.resource) (now : next.now = w.now)
      (unwritten : w.resource.transport.Unwritten next.resource.transport)
  | ask (a : Attempt) (rest : List Request) (opens : label.opens = false)
      (tried : attempt? w label = some a) (driving : Driving w) (steady : Steady w next)
      (asked : w.resource.Asked a.request rest next.resource) (now : next.now = w.now)
      (notes : next.notes = w.notes.publishAll [a.note])
  | tick (opens : label.opens = false) (untried : attempt? w label = none) (driving : Driving w)
      (steady : Steady w next) (ticked : w.resource.Ticked w.now next.resource)
      (now : next.now = w.now)
  | apart (opens : label.opens = false) (untried : attempt? w label = none)
      (keeps : w.resource.Keeps next.resource)
      (ends : Driving w → Driving next ∨ label = .watcher (.stop true) ∨ w.resource.requests = [])
      (unwritten : label ≠ .transport →
        w.resource.transport.Unwritten next.resource.transport)

section

variable {w next : Watched} {holder : Watcher.Holder Unit} {event : Watcher.Event} {label : Label}

theorem stage_of_driving (h : Driving w) (hholder : w.holder = some holder) :
    holder.stage = .driving ∧ w.isCancelled holder.run = false := by
  obtain ⟨other, hother, hstage, hlive⟩ := h
  cases hholder.symm.trans hother
  refine ⟨hstage, ?_⟩
  simp [Watcher.isCancelled, hlive]

theorem not_driving_of_stage_ne (hholder : w.holder = some holder)
    (hstage : holder.stage ≠ .driving) : ¬ Driving w :=
  fun hdriving => hstage (stage_of_driving hdriving hholder).1

theorem opened_afterAcquire (holder : Watcher.Holder Unit) (w : Watched) :
    w.resource.Opened w.now (Watcher.afterAcquire Session.resource holder w true).2.resource ∧
      (Watcher.afterAcquire Session.resource holder w true).2.resource.transport =
        w.resource.transport ∧
      (Watcher.afterAcquire Session.resource holder w true).2.now = w.now ∧
      (Watcher.afterAcquire Session.resource holder w true).2.holder =
        some { holder with stage := .driving } ∧
      (Watcher.afterAcquire Session.resource holder w true).2.live = w.live := by
  rw [Watcher.afterAcquire, if_pos rfl]
  -- to say that the watcher is ready concerns neither the resource nor the time
  have hresource := Watcher.setState_resource w holder.run .ready
  have hnow := Watcher.setState_now w holder.run .ready
  have hdue := congrArg₂ Session.afterInterval hresource hnow
  have hinterval := congrArg Session.interval hresource
  have htransport := congrArg Session.transport hresource
  exact ⟨⟨rfl, hdue, hinterval⟩, htransport, hnow, rfl, Watcher.setState_live ..⟩

/-- The run that drives the transport works. -/
theorem duty_of_work {s : Session} {deed : Watcher.Deed} (hdriving : Driving w)
    (hdrive : w.resource.drive w.now = .work s deed) (hquiet : deed.ready = none) :
    Duty w (.watcher (.move (.worked holder.run)))
      ((w.withResource s).display holder.run deed) := by
  obtain ⟨hnotes, hresource⟩ := display_of_quiet (w.withResource s) holder.run hquiet
  have hsteady : Steady w ((w.withResource s).display holder.run deed) :=
    ⟨Watcher.display_holder .., Watcher.display_live ..⟩
  have hresource : ((w.withResource s).display holder.run deed).resource = s := hresource
  have hnow : ((w.withResource s).display holder.run deed).now = w.now := Watcher.display_now ..
  rcases Session.work_cases hdrive with ⟨request, rest, hasked, hdeed⟩ | hticked |
    ⟨hrequests, hkeeps, htransport⟩
  · rw [hdeed] at hnotes
    refine .ask ⟨w.now, request, _⟩ rest rfl ?_ hdriving hsteady (by rwa [hresource]) hnow hnotes
    rw [attempt?, hasked.pending]
    rfl
  · refine .tick rfl ?_ hdriving hsteady (by rwa [hresource]) hnow
    rw [attempt?, hticked.pending]
    rfl
  · refine .apart rfl ?_ (by rwa [hresource]) (fun _ => .inl (hsteady.driving_iff.mpr hdriving)) ?_
    · rw [attempt?, hrequests]
      rfl
    · intro _
      rw [hresource, htransport]
      exact Transport.unwritten_read ..

theorem duty_of_holderStep (h : Watcher.HolderStep Session.resource w holder event next)
    (hholder : w.holder = some holder) : Duty w (.watcher (.move event)) next := by
  cases h with
  | leave _ hstage =>
      have hnot : ¬ Driving w := by
        refine not_driving_of_stage_ne hholder ?_
        rcases hstage with hstage | ⟨_, hstage⟩ <;> simp [hstage]
      exact .apart rfl rfl (.refl _) (absurd · hnot) fun _ => .refl _
  | @work task s deed htask hcancelled hact =>
      obtain ⟨hdriving, hdrive⟩ := driving_of_work hholder htask hcancelled hact
      exact duty_of_work hdriving hdrive (Session.drive_cases hdrive).1
  | @acquire s hstage hcancelled hact =>
      obtain ⟨hkeeps, hunwritten, -⟩ := Session.keeps_of_finish hact
      obtain ⟨hopened, htransport, hnow, hholder', hlive'⟩ :=
        opened_afterAcquire holder (w.withResource s)
      have hlive := hlive'.trans (live_of_isCancelled_eq_false hcancelled)
      refine .open rfl rfl ⟨_, hholder', rfl, hlive⟩ ?_ hnow (by rwa [htransport])
      refine ⟨hopened.requests, hopened.due.trans ?_, hopened.interval.trans hkeeps.interval⟩
      exact congrArg (w.now + max 1 ·) hkeeps.interval
  | @refuse s hstage _ hact =>
      obtain ⟨hkeeps, hunwritten, -⟩ := Session.keeps_of_finish hact
      have hresource : (Watcher.afterAcquire Session.resource holder (w.withResource s)
          false).2.resource = s := Watcher.setState_resource ..
      have hnot : ¬ Driving w := not_driving_of_stage_ne hholder (by simp [hstage])
      exact .apart rfl rfl (by rwa [hresource]) (absurd · hnot) fun _ => by rwa [hresource]
  | interrupt _ hcancelled =>
      refine .apart rfl rfl (.refl _) ?_ fun _ => .refl _
      intro hdriving
      rw [(stage_of_driving hdriving hholder).2] at hcancelled
      cases hcancelled
  | @finish s success _ _ hact =>
      obtain ⟨hkeeps, hunwritten, hrequests⟩ := Session.keeps_of_finish hact
      exact .apart rfl rfl hkeeps (fun _ => .inr (.inr (hrequests rfl))) fun _ => hunwritten
  | @release ending s _ hstage hact =>
      obtain ⟨hkeeps, hunwritten, -⟩ := Session.keeps_of_finish hact
      have hresource := silent_afterRelease holder ending (w.withResource s)
      have hnot : ¬ Driving w := not_driving_of_stage_ne hholder (by simp [hstage])
      exact .apart rfl rfl (by rwa [hresource]) (absurd · hnot) fun _ => by rwa [hresource]
  | retry hstage _ _ =>
      have hnot : ¬ Driving w := not_driving_of_stage_ne hholder (by simp [hstage])
      exact .apart rfl rfl (.refl _) (absurd · hnot) fun _ => .refl _

/-- What a step does about the requests: it opens a connection, tries a request, finds that one is due,
or leaves the requests as they are. -/
theorem Step.duty (h : Step w label next) (hnumbered : Numbered w) : Duty w label next := by
  cases h with
  | transport transport =>
      exact .apart rfl rfl ⟨rfl, rfl, rfl⟩ .inl fun hlabel => absurd rfl hlabel
  | begin =>
      rcases begin_cases w with ⟨-, -, hsame⟩ | ⟨hidle, -, -⟩
      · rw [hsame]
        exact .apart rfl rfl (.refl _) .inl fun _ => .refl _
      · have hresource := resource_begin hidle
        have hnot : ¬ Driving w := by
          rintro ⟨holder, -, -, hlive⟩
          have hstarted := hnumbered.started
          rw [hidle, hlive] at hstarted
          cases hstarted
        refine .apart rfl rfl (by rw [hresource]; exact ⟨rfl, rfl, rfl⟩) (absurd · hnot) fun _ => ?_
        rw [hresource]
        exact .refl _
  | watcher hstep hadmitted =>
      cases hstep with
      | start | surroundings => exact absurd hadmitted id
      | stop =>
          unfold Watcher.stop
          split
          · exact .apart rfl rfl (.refl _) (fun _ => .inr (.inl rfl)) fun _ => .refl _
          · exact .apart rfl rfl (.refl _) .inl fun _ => .refl _
      | say run ready =>
          have hresource : (w.setReady run ready).resource = w.resource :=
            Watcher.setState_resource ..
          have hsteady : Steady w (w.setReady run ready) :=
            ⟨Watcher.setState_holder .., Watcher.setState_live ..⟩
          refine .apart rfl rfl (by rw [hresource]; exact .refl _)
            (fun hdriving => .inl (hsteady.driving_iff.mpr hdriving)) fun _ => ?_
          rw [hresource]
          exact .refl _
      | requestCheck | note | time | giveUp =>
          exact .apart rfl rfl (.refl _) .inl fun _ => .refl _
      | turn _ _ hholder =>
          exact .apart rfl rfl (.refl _) (absurd · (not_driving_of_holder hholder)) fun _ => .refl _
      | holder hholder hmove =>
          exact duty_of_holderStep (Watcher.holderStep_of_holderMove? hmove) hholder

/-- Nothing takes time but to wait. -/
theorem Step.now_cases (h : Step w label next) :
    next.now = w.now ∨ label = .watcher .time := by
  cases h with
  | transport => exact .inl rfl
  | begin => exact .inl (now_begin w)
  | watcher hstep hadmitted =>
      cases hstep with
      | start | surroundings => exact absurd hadmitted id
      | stop =>
          unfold Watcher.stop
          split <;> exact .inl rfl
      | say => exact .inl (Watcher.setState_now ..)
      | requestCheck | note | giveUp | turn => exact .inl rfl
      | time => exact .inr rfl
      | holder _ hmove => exact .inl (Watcher.holderMove?_now _ hmove)

/-- At rest a run that drives the transport has no request to make, and waits for the next one. -/
theorem waits_of_rest (hdriving : Driving w) (hrest : w.move? Session.resource = none) :
    w.resource.requests = [] ∧ w.now < w.resource.nextRequest ∧
      w.due? Session.resource = some w.resource.nextRequest := by
  obtain ⟨holder, hholder, hstage, hlive⟩ := hdriving
  have hcancelled : ¬ w.isCancelled holder.run = true := by simp [Watcher.isCancelled, hlive]
  have hmove := Watcher.holderMove?_of_rest hrest hholder
  rw [Watcher.holderMove?, hstage] at hmove
  dsimp only at hmove
  rw [if_neg hcancelled] at hmove
  obtain ⟨until?, hact⟩ := Watcher.pursue_eq_none hmove
  obtain ⟨hrequests, hlt, rfl⟩ := Session.drive_eq_wait hact
  refine ⟨hrequests, hlt, ?_⟩
  rw [Watcher.due?, hholder]
  dsimp only
  rw [hstage]
  dsimp only
  rw [hact]

end

/-! ## What is written -/

/-- An attempt, and what it does: it is made on an open connection, which stays open whether it succeeds
or fails; the text of the request is written if it can be, and otherwise nothing is; and it is noted. -/
structure Tried (m : Moment) (a : Attempt) : Prop where
  time : a.time = m.modem.now
  driving : Driving m.modem
  lasting : Driving m.next
  success : a.success = (m.modem.resource.transport.write (Text.utf8 a.request.text)).1.isOk
  written : a.success = true → m.next.resource.transport =
    (m.modem.resource.transport.write (Text.utf8 a.request.text)).2
  failed : a.success = false → m.next.resource.transport = m.modem.resource.transport
  notes : m.modem.notes.since m.next.notes = [a.note]

section

variable {w next first last : Watched} {label : Label} {moments : List Moment} {m : Moment}

theorem time_of_attempt {a : Attempt} (h : attempt? w label = some a) : a.time = w.now ∧
    a.success = (w.resource.transport.write (Text.utf8 a.request.text)).1.isOk := by
  unfold attempt? at h
  split at h
  · obtain ⟨request, -, rfl⟩ := Option.map_eq_some_iff.mp h
    exact ⟨rfl, rfl⟩
  · cases h

theorem Step.tried {a : Attempt} (h : Step w label next) (hnumbered : Numbered w)
    (hattempt : Moment.attempt? ⟨w, label, next⟩ = some a) : Tried ⟨w, label, next⟩ a := by
  obtain ⟨htime, hsuccess⟩ := time_of_attempt hattempt
  cases h.duty hnumbered with
  | ask a' rest _ htried hdriving hsteady hasked _ hnotes =>
      cases hattempt.symm.trans htried
      have hlasting := hsteady.driving_iff.mpr hdriving
      refine ⟨htime, hdriving, hlasting, hsuccess, fun _ => hasked.transport, ?_, ?_⟩
      · intro hfailed
        rw [hsuccess] at hfailed
        exact hasked.transport.trans (Transport.write_of_failed hfailed)
      · change w.notes.since next.notes = _
        rw [hnotes, Feed.since_publishAll]
  | «open» _ huntried _ _ _ _ | tick _ huntried _ _ _ _ | apart _ huntried _ _ _ =>
      cases hattempt.symm.trans huntried

theorem Step.unwritten (h : Step w label next) (hnumbered : Numbered w)
    (huntried : Moment.attempt? ⟨w, label, next⟩ = none) (hlabel : label ≠ .transport) :
    w.resource.transport.Unwritten next.resource.transport := by
  cases h.duty hnumbered with
  | «open» _ _ _ _ _ hunwritten => exact hunwritten
  | ask _ _ _ htried _ _ _ _ _ => cases huntried.symm.trans htried
  | tick _ _ _ _ hticked _ =>
      rw [hticked.transport]
      exact .refl _
  | apart _ _ _ _ hunwritten => exact hunwritten hlabel

end
end Modem
end Uplink
