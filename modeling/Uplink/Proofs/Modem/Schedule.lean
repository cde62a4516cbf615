import Uplink.Proofs.Modem.Requests

/-!
# When a modem is asked

The run of a connection asks the modem for its identity and its signal when it begins, and for its
signal again each time the interval is over.  Where time passes promptly, so that nothing is put off
that can happen at once, each request is tried at its time, and whether it is written or fails changes
nothing about the others.  Neither does what comes from the modem, or what its owner does but to stop
it.
-/

namespace Uplink
namespace Modem

/-! ## The agenda of a connection -/

/-- The requests of a connection, in order, each with its time: who the modem is and how strong its
signal is, both at the start, and again how strong its signal is, each time the interval is over. -/
def due (start interval : ℕ) : ℕ → ℕ × Request
  | 0 => (start, .identity)
  | k + 1 => (start + k * interval, .signal)

/-- The first requests of a connection. -/
def agenda (start interval count : ℕ) : List (ℕ × Request) :=
  (List.range count).map (due start interval)

section

variable {start interval count : ℕ} {made rest : List (ℕ × Request)} {entry : ℕ × Request}

theorem agenda_succ (start interval count : ℕ) :
    agenda start interval (count + 1) =
      agenda start interval count ++ [due start interval count] := by
  simp [agenda, List.range_succ]

theorem length_agenda (start interval count : ℕ) :
    (agenda start interval count).length = count := by
  simp [agenda]

/-- What an agenda begins with is an agenda. -/
theorem eq_agenda_of_append (h : made ++ rest = agenda start interval count) :
    made = agenda start interval made.length := by
  have hle : made.length ≤ count := by
    have hlength := congrArg List.length h
    rw [List.length_append, length_agenda] at hlength
    omega
  have htake := congrArg (List.take made.length) h
  rwa [List.take_left, agenda, ← List.map_take, List.take_range, Nat.min_eq_left hle] at htake

end

/-! ## During a connection -/

/-- Time passes only at rest, and not beyond what is waited for. -/
def Moment.Prompt (m : Moment) : Prop :=
  m.label = .watcher .time → m.modem.move? Session.resource = none ∧
    ∀ moment, m.modem.due? Session.resource = some moment → m.next.now ≤ moment

/-- To write takes no time: the modem is not stopped while there is a request to be made. -/
def Moment.AtOnce (m : Moment) : Prop :=
  m.label = .watcher (.stop true) → Driving m.modem → m.modem.resource.requests = []

/-- The requests that are tried, each with its time. -/
def entries (moments : List Moment) : List (ℕ × Request) :=
  (attempts moments).map fun a => (a.time, a.request)

/-- How far the requests of a connection are that began at a time.  As long as the run drives the
transport, the requests that were tried and those to be made are the first ones of the agenda, and the
time of the next one is not over. -/
inductive Timely (start interval : ℕ) (during : List Moment) (w : Watched) : Prop where
  | driving (count : ℕ) (driving : Driving w)
      (made : entries during ++ w.resource.requests.map (w.now, ·) =
        agenda start interval (count + 2))
      (next : w.resource.nextRequest = start + (count + 1) * interval)
      (le : w.now ≤ w.resource.nextRequest)
  | ended (count : ℕ) (ended : ¬ Driving w) (made : entries during = agenda start interval count)
      (begun : (∀ m ∈ during, m.AtOnce) → 2 ≤ count)

section

variable {w next first last opened : Watched} {label : Label} {m opening : Moment} {a : Attempt}
  {moments before during after : List Moment} {start interval : ℕ}

theorem entries_of_tried (h : m.attempt? = some a) (moments : List Moment) :
    entries (moments ++ [m]) = entries moments ++ [(a.time, a.request)] := by
  simp [entries, attempts, h]

theorem entries_of_untried (h : m.attempt? = none) (moments : List Moment) :
    entries (moments ++ [m]) = entries moments := by
  simp [entries, attempts, h]

/-- A request that is tried was the first one to be made. -/
theorem Timely.ask {rest : List Request} (h : Timely start interval during w)
    (hdriving : Driving w) (hsteady : Steady w next)
    (htried : Moment.attempt? ⟨w, label, next⟩ = some a)
    (hasked : w.resource.Asked a.request rest next.resource) (hnow : next.now = w.now) :
    Timely start interval (during ++ [⟨w, label, next⟩]) next := by
  cases h with
  | ended _ hnot _ _ => exact absurd hdriving hnot
  | driving count _ made hnext le =>
      refine .driving count (hsteady.driving_iff.mpr hdriving) ?_ (hasked.due.trans hnext) ?_
      · rw [entries_of_tried htried, (time_of_attempt htried).1, hasked.left, hnow, ← made,
          hasked.pending, List.append_assoc]
        rfl
      · rwa [hasked.due, hnow]

/-- A request becomes due at its time, and the next one when the interval is over again. -/
theorem Timely.tick (h : Timely start interval during w) (hdriving : Driving w)
    (hsteady : Steady w next) (huntried : Moment.attempt? ⟨w, label, next⟩ = none)
    (hticked : w.resource.Ticked w.now next.resource) (hnow : next.now = w.now)
    (hinterval : w.resource.interval = interval) (hpos : 0 < interval) :
    Timely start interval (during ++ [⟨w, label, next⟩]) next := by
  cases h with
  | ended _ hnot _ _ => exact absurd hdriving hnot
  | driving count _ made hnext le =>
      have hdue : w.now = start + (count + 1) * interval :=
        (Nat.le_antisymm le hticked.past).trans hnext
      have hmore : next.resource.nextRequest = start + (count + 2) * interval := by
        rw [hticked.due, Session.afterInterval, hinterval, Nat.max_eq_right hpos, hdue,
          Nat.succ_mul (count + 1), Nat.add_assoc]
      refine .driving (count + 1) (hsteady.driving_iff.mpr hdriving) ?_ hmore ?_
      · rw [entries_of_untried huntried, hticked.left, agenda_succ, ← made, hticked.pending, hnow,
          hdue]
        simp [due]
      · rw [hmore, hnow, hdue]
        exact Nat.add_le_add_left (Nat.mul_le_mul_right _ (Nat.le_succ _)) _

/-- A moment at which the requests stay as they are: time has passed at rest only. -/
theorem Timely.keep (h : Timely start interval during w) (hdriving : Driving w)
    (hsteady : Steady w next) (huntried : Moment.attempt? ⟨w, label, next⟩ = none)
    (hkeeps : w.resource.Keeps next.resource)
    (hnow : next.now = w.now ∨ w.resource.requests = [] ∧ next.now ≤ w.resource.nextRequest) :
    Timely start interval (during ++ [⟨w, label, next⟩]) next := by
  cases h with
  | ended _ hnot _ _ => exact absurd hdriving hnot
  | driving count _ made hnext le =>
      refine .driving count (hsteady.driving_iff.mpr hdriving) ?_ (hkeeps.due.trans hnext) ?_
      · rw [entries_of_untried huntried, hkeeps.requests, ← made]
        rcases hnow with hnow | ⟨hrequests, -⟩
        · rw [hnow]
        · rw [hrequests]
          rfl
      · rw [hkeeps.due]
        rcases hnow with hnow | ⟨-, hle⟩
        · rwa [hnow]
        · exact hle

/-- The connection ends: a part of the requests was made, and both first ones if the modem was not
stopped before. -/
theorem Timely.finish (h : Timely start interval during w) (hended : ¬ Driving next)
    (huntried : Moment.attempt? ⟨w, label, next⟩ = none)
    (hends : Driving w → label = .watcher (.stop true) ∨ w.resource.requests = []) :
    Timely start interval (during ++ [⟨w, label, next⟩]) next := by
  have hentries := entries_of_untried huntried during
  cases h with
  | ended count _ made begun =>
      refine .ended count hended (hentries.trans made) fun hatOnce => begun fun m hm => ?_
      exact hatOnce m (List.mem_append_left _ hm)
  | driving count hdriving made _ _ =>
      refine .ended _ hended (hentries.trans (eq_agenda_of_append made)) fun hatOnce => ?_
      have hnone : w.resource.requests = [] := by
        rcases hends hdriving with hstop | hnone
        · exact hatOnce _ (List.mem_append_right _ List.mem_cons_self) hstop hdriving
        · exact hnone
      have hlength := congrArg List.length made
      rw [hnone, List.map_nil, List.append_nil, length_agenda] at hlength
      exact hlength ▸ Nat.le_add_left _ _

theorem Timely.step (h : Timely start interval during w) (hstep : Step w label next)
    (hnumbered : Numbered w) (hopens : label.opens = false)
    (hinterval : w.resource.interval = interval) (hpos : 0 < interval)
    (hprompt : Moment.Prompt ⟨w, label, next⟩) :
    Timely start interval (during ++ [⟨w, label, next⟩]) next := by
  cases hstep.duty hnumbered with
  | «open» hopened _ _ _ _ _ =>
      rw [hopens] at hopened
      cases hopened
  | ask a rest _ htried hdriving hsteady hasked hnow _ =>
      exact h.ask hdriving hsteady htried hasked hnow
  | tick _ huntried hdriving hsteady hticked hnow =>
      exact h.tick hdriving hsteady huntried hticked hnow hinterval hpos
  | apart _ huntried hkeeps hends _ =>
      rcases hstep.steady_or hnumbered hopens with hsteady | hended
      · by_cases hdriving : Driving w
        · refine h.keep hdriving hsteady huntried hkeeps ?_
          rcases hstep.now_cases with hnow | hlabel
          · exact .inl hnow
          · obtain ⟨hrest, hdue⟩ := hprompt hlabel
            obtain ⟨hrequests, -, hwaits⟩ := waits_of_rest hdriving hrest
            exact .inr ⟨hrequests, hdue _ hwaits⟩
        · have hended : ¬ Driving next := fun hnext => hdriving (hsteady.driving_iff.mp hnext)
          exact h.finish hended huntried fun hdriving' => absurd hdriving' hdriving
      · exact h.finish hended huntried fun hdriving => (hends hdriving).resolve_left hended

theorem Timely.begun (h : Timely start interval during w) (hatOnce : ∀ m ∈ during, m.AtOnce)
    (hended : ¬ Driving w) : 2 ≤ (entries during).length := by
  cases h with
  | driving _ hdriving _ _ _ => exact absurd hdriving hended
  | ended count _ made hbegun =>
      rw [made, length_agenda]
      exact hbegun hatOnce

end

/-! ## A connection that falls silent -/

end Modem
end Uplink
