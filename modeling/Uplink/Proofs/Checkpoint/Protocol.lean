import Uplink.Proofs.Checkpoint.Intervals
import Uplink.Proofs.Template

/-!
# The protocol of a checkpoint

What a listener can rely on, from the first start on, whatever the hash contains at whatever time,
however often the store fails, and whenever a task that was stopped comes to its end.

Two things it cannot rely on.  A stop may come between a call of the store and its answer, and then the
listener is not told about that answer.  And the keys that a checkpoint requires need not be those of
the fields that the template requires.
-/

namespace Uplink
namespace Checkpoint
namespace Vigil

/-- A start that succeeds. -/
def Act.begins : Act → Bool
  | .start success => success
  | _ => false

/-- The store answered with a hash that has every required key, and these are its fields. -/
def Complete (terms : Terms) (answer : Except Failure (Keyed String))
    (fields : List (String × Json)) : Prop :=
  ∃ hash, answer = .ok hash ∧ (∀ key ∈ terms.required, hash.has key = true) ∧
    terms.template.toConfig hash = .ok fields

section

variable {terms : Terms} {answer : Except Failure (Keyed String)} {fields : List (String × Json)}
  {v next first last : Vigil} {act : Act} {moments : List Moment} {t : Task}

theorem Complete.exists_mem (h : Complete terms answer fields) {name : String} {spec : FieldSpec}
    (hmem : (name, spec) ∈ terms.template.fields) (hkey : spec.key ∈ terms.required) :
    ∃ value, (name, value) ∈ fields := by
  obtain ⟨hash, -, hall, hconfig⟩ := h
  exact Template.exists_mem_of_has hconfig hmem (hall spec.key hkey)

theorem Change.starts_eq (h : Change v act next) : next.starts = v.starts + act.begins.toNat := by
  cases h with
  | start => rfl
  | still hturns =>
      cases act with
      | start success =>
          cases success with
          | false => rfl
          | true => cases hturns
      | _ => rfl
  | call | ready | retry | request | timer | leave | requestCheck | stop | time => rfl

theorem Run.starts_eq (h : Run first moments last) (hsound : Sound first)
    (hkept : ∀ m ∈ moments, m.act.deafens = false) :
    last.starts = first.starts + times Act.begins moments := by
  induction h with
  | nil => rfl
  | snoc hrun hstep ih =>
      rw [List.forall_mem_append, List.forall_mem_singleton] at hkept
      have hchange := hstep.change (hrun.sound hsound hkept.1).all_heard hkept.2
      rw [hchange.starts_eq, ih hkept.1, times_concat, Nat.add_assoc]

/-- A task that has ended does not call. -/
theorem Sound.not_call (h : Sound v) (ht : t ∈ v.tasks) (hended : t.ended = true) :
    ¬ Step v (.call t.number) next :=
  fun hstep => absurd (hended.symm.trans (hstep.turn_of_mem h ht rfl).ended_eq_false) nofun

/-- Whatever happens to a checkpoint whose listeners stay: each start has its task, and its listener is
told about every answer of the store, once and in order, but for one that the task has not seen or that
a stop has cut off; these are retries, and then at most one success; a success is a hash with all
required keys, as converted; after a success the task does not call any more, and the listener is told
no more; the checkpoint is ready from the success until the next start or stop, and at no other time
unless a task that was stopped comes to a success; between two calls of a task lies the interval, unless
a request of its own cut the wait short; and a start or a stop out of turn changes nothing. -/
theorem Run.event_protocol (hrun : Run first moments last) (hfresh : Fresh first)
    (hkept : ∀ m ∈ moments, m.act.deafens = false) :
    -- the events of a start, one for each call of the store
    (last.tasks.map Task.number).Perm (List.range (times Act.begins moments)) ∧
    (∀ t ∈ last.tasks, Shape t.events.reverse ∧
      ∃ cut, verdicts first.toTerms t.number moments = t.events.reverse ++ cut ∧ cut.length ≤ 1 ∧
        (cut ≠ [] → (∃ answer, t.phase = .called answer) ∨ t.stopped = true ∧ t.ended = true)) ∧
    (∀ act next, Step last act next →
      (∀ number, act = .call number →
        next.store.journal = .readHash first.key :: last.store.journal) ∧
      ((∀ number, act ≠ .call number) → act ≠ .surroundings → next.store = last.store)) ∧
    -- what is handed over
    (∀ answer fields,
      (first.verdict answer = .ready fields ↔ Complete first.toTerms answer fields) ∧
      (first.verdict answer = .ready fields → ∀ name spec, (name, spec) ∈ first.template.fields →
        spec.key ∈ first.required ∨
          first.required = first.template.requirements ∧ spec.required = true →
          ∃ value, (name, value) ∈ fields)) ∧
    -- after a success
    (∀ t ∈ last.tasks, ∀ fields, .ready fields ∈ t.events →
      t.observe.2 = true ∧ ∀ next, ¬ Step last (.call t.number) next) ∧
    (Since (HandsOver false) moments → last.ready = true) ∧
    (last.ready = true → Since (HandsOver false) moments ∨ Since (HandsOver true) moments) ∧
    -- the time between two calls of a task
    (∀ number earlier m since x later, moments = earlier ++ m :: (since ++ x :: later) →
      m.act = .call number → x.act = .call number → Lull number since →
        (x.now = m.now + first.retry ∧ ∃ y ∈ since, y.act = .wake number .timer) ∨
        (x.now ≤ m.now + first.retry ∧ Requested m since x.now ∧
          ∃ y ∈ since, y.act = .wake number .request)) ∧
    (∀ number earlier m since, moments = earlier ++ m :: since → m.act = .call number →
      Lull number since → ∀ t ∈ last.tasks, t.number = number → t.ended = false →
        last.now ≤ m.now + first.retry) ∧
    times Act.isCut moments + unused last ≤ times Act.isRequest moments ∧
    -- calls of the owner
    (last.started = true ↔ Since Begins moments) ∧
    (last.started = true →
      last.start = (.error (.alreadyStarted component), last) ∧ last.stop.1 = .ok ()) ∧
    (last.started = false →
      last.stop = (.error (.notStarted component), last) ∧ last.start.1 = .ok ()) := by
  have hfirst := Sound.of_fresh hfresh
  have hsound := hrun.sound hfirst hkept
  have hterms := hrun.terms hfirst hkept
  have hready := hrun.ready_iff_handedOver hfresh hkept
  have htold := hrun.told hfresh hkept
  rw [hterms] at htold
  refine ⟨?_, fun t ht => ⟨(htold t ht).shape, (htold t ht).exists_cut⟩, ?_, ?_, ?_,
    fun hsince => hready.mpr ⟨_, hsince⟩, ?_, ?_, ?_, ?_, hrun.started_iff_begun hfresh hkept, ?_, ?_⟩
  · have hstarts := hrun.starts_eq hfirst hkept
    rw [hfresh.starts, Nat.zero_add] at hstarts
    exact hstarts ▸ hsound.numbers
  · intro act next hstep
    rw [← hterms]
    exact hstep.journal
  · intro answer fields
    have hiff : first.verdict answer = .ready fields ↔ Complete first.toTerms answer fields :=
      verdict_eq_ready_iff
    refine ⟨hiff, fun hverdict name spec hmem hkey => ?_⟩
    rcases hkey with hkey | ⟨hsame, hrequired⟩
    · exact (hiff.mp hverdict).exists_mem hmem hkey
    · exact (hiff.mp hverdict).exists_mem hmem (hsame ▸ Template.mem_requirements hmem hrequired)
  · intro t ht fields hmem
    have hended := (htold t ht).ended hmem
    exact ⟨by simp [Task.observe, hsound.all_heard t ht, hended], fun next => hsound.not_call ht hended⟩
  · intro hlast
    obtain ⟨stopped, hsince⟩ := hready.mp hlast
    cases stopped with
    | false => exact .inl hsince
    | true => exact .inr hsince
  · rintro number earlier m since x later rfl hm hx hlull
    exact hrun.next_call hfirst hkept hm hx hlull
  · rintro number earlier m since rfl hm hlull t ht hnumber hgoing
    exact hrun.not_overdue hfirst hkept hm hlull ht hnumber hgoing
  · have hcuts := hrun.cuts_le hfirst hkept
    rwa [unused_of_fresh hfresh, Nat.zero_add] at hcuts
  · intro hstarted
    exact ⟨start_of_started hstarted, by rw [stop_of_started hstarted]⟩
  · intro hstarted
    exact ⟨stop_of_not_started hstarted, by rw [start_of_not_started hstarted]⟩

end

/-! ## A start with three calls -/

/-- A checkpoint that waits for a name. -/
def nameVigil : Vigil where
  template := Template.field {} "name" (FieldSpec.string "the:name").require
  required := ["the:name"]
  retry := 10

/-- The checkpoint with its task, at a time. -/
def named (now : ℕ) (store : Store) (phase : Phase) (events : List Event) : Vigil :=
  { nameVigil with now, store, started := true, starts := 1, tasks := [{ number := 0, phase, events }] }

/-- The store after a call. -/
def called (store : Store) : Store :=
  (store.readHash Store.configKey).2

/-- The store in which there is a name. -/
def northStore : Store :=
  Store.seed {} Store.configKey [("the:name", "north")]

/-- What is handed over. -/
def north : Event :=
  .ready [("name", .string "north")]

/-- The first wait begins, without a name in the store. -/
def firstWait (now : ℕ) (asked : Bool) : Vigil :=
  named now (called {}) (.waiting 10 asked) [.retry]

/-- The second wait begins. -/
def secondWait (now : ℕ) : Vigil :=
  named now (called (called {})) (.waiting 14 false) [.retry, .retry]

/-- The name is handed over. -/
def northVigil : Vigil :=
  { named 14 (called northStore) .finished [north, .retry, .retry] with ready := true }

/-- What happens from the first call to the second one: there is a request after four milliseconds. -/
def firstLull : List Moment :=
  [⟨named 0 (called {}) (.called (.ok [])) [], .conclude 0 .retry⟩,
    ⟨firstWait 0 false, .time 4⟩,
    ⟨firstWait 4 false, .requestCheck⟩,
    ⟨firstWait 4 true, .wake 0 .request⟩]

/-- What happens from the second call to the third one. -/
def secondLull : List Moment :=
  [⟨named 4 (called (called {})) (.called (.ok [])) [.retry], .conclude 0 .retry⟩,
    ⟨secondWait 4, .time 14⟩,
    ⟨secondWait 14, .wake 0 .timer⟩,
    ⟨named 14 (called (called {})) .looking [.retry, .retry], .surroundings⟩]

/-- What happens until the name is handed over. -/
def nameMoments : List Moment :=
  [⟨nameVigil, .start true⟩] ++ ⟨named 0 {} .looking [], .call 0⟩ :: (firstLull ++
    ⟨named 4 (called {}) .looking [.retry], .call 0⟩ :: (secondLull ++
      [⟨named 14 northStore .looking [.retry, .retry], .call 0⟩,
        ⟨named 14 (called northStore) (.called (.ok [("the:name", "north")])) [.retry, .retry],
          .conclude 0 north⟩]))

section

variable (now : ℕ) (store : Store) (events : List Event)

theorem step_call : Step (named now store .looking events) (.call 0)
    (named now (called store) (.called (store.readHash Store.configKey).1) events) :=
  @Step.call _ [] { number := 0, events } [] rfl rfl

theorem step_retry : Step (named now store (.called (.ok [])) events) (.conclude 0 .retry)
    (named now store (.waiting (now + 10) false) (.retry :: events)) :=
  @Step.conclude _ [] { number := 0, phase := .called (.ok []), events } [] _ rfl rfl

theorem step_request (wake : ℕ) : Step (named now store (.waiting wake true) events)
    (.wake 0 .request) (named now store .looking events) :=
  @Step.request _ [] { number := 0, phase := .waiting wake true, events } [] _ rfl rfl

end

theorem run_firstLull : Run nameVigil
    ([⟨nameVigil, .start true⟩] ++ ⟨named 0 {} .looking [], .call 0⟩ :: firstLull)
    (named 4 (called {}) .looking [.retry]) := by
  have hcall := (Run.single (.start nameVigil)).snoc (step_call 0 {} [])
  have hwait := hcall.snoc (step_retry 0 (called {}) [])
  have hasked := (hwait.snoc (@Step.time _ 4 (by decide))).snoc (.requestCheck _)
  exact hasked.snoc (step_request 4 (called {}) [.retry] 10)

theorem run_nameMoments : Run nameVigil nameMoments northVigil := by
  have hcall := run_firstLull.snoc (step_call 4 (called {}) [.retry])
  have hwait := hcall.snoc (step_retry 4 (called (called {})) [.retry])
  have hdue := hwait.snoc (@Step.time _ 14 (by decide))
  have hwoken := hdue.snoc (@Step.timer _ []
    { number := 0, phase := .waiting 14 false, events := [.retry, .retry] } [] _ _ rfl rfl
    (Nat.le_refl _))
  have hlast := (hwoken.snoc (.surroundings _ northStore)).snoc
    (step_call 14 northStore [.retry, .retry])
  exact hlast.snoc (@Step.conclude _ []
    { number := 0, phase := .called (.ok [("the:name", "north")]), events := [.retry, .retry] } []
    _ rfl rfl)

theorem prompt_firstWait : Moment.Prompt ⟨firstWait 0 false, .time 4⟩ := by
  rintro moment ⟨⟩
  refine ⟨?_, ?_⟩
  · simp [AtRest, firstWait, named, Task.rests]
  · simp [firstWait, named]

theorem lull_firstLull : Lull 0 firstLull := by
  intro x hx
  simp only [firstLull, List.mem_cons, List.not_mem_nil, or_false] at hx
  rcases hx with rfl | rfl | rfl | rfl
  · exact ⟨nofun, nofun⟩
  · exact ⟨nofun, prompt_firstWait⟩
  · exact ⟨nofun, nofun⟩
  · exact ⟨nofun, nofun⟩

/-- The name is handed over after the third call; the second one came because of the request. -/
theorem Run.event_protocol_name :
    northVigil.ready = true ∧ (∀ next, ¬ Step northVigil (.call 0) next) ∧
      Requested ⟨named 0 {} .looking [], .call 0⟩ firstLull 4 := by
  have hfresh : Fresh nameVigil := ⟨rfl, rfl, rfl, rfl, rfl⟩
  have hkept : ∀ m ∈ nameMoments, m.act.deafens = false := by decide +kernel
  obtain ⟨-, -, -, -, hclosed, hready, -, hgap, -⟩ := run_nameMoments.event_protocol hfresh hkept
  refine ⟨hready ?_, (hclosed _ (List.mem_singleton_self _) _ List.mem_cons_self).2, ?_⟩
  · refine ⟨nameMoments.dropLast, ⟨named 14 (called northStore)
      (.called (.ok [("the:name", "north")])) [.retry, .retry], .conclude 0 north⟩, [], rfl, ?_, nofun⟩
    exact ⟨_, List.mem_singleton_self _, rfl, _, rfl⟩
  · rcases hgap 0 [⟨nameVigil, .start true⟩] ⟨named 0 {} .looking [], .call 0⟩ firstLull
      ⟨named 4 (called {}) .looking [.retry], .call 0⟩ _ rfl rfl rfl lull_firstLull with
      ⟨hnow, -⟩ | ⟨-, hasked, -⟩
    · exact absurd hnow (by decide +kernel)
    · exact hasked

/-! ## What a listener cannot rely on -/

/-- A checkpoint that requires nothing, but whose template does. -/
def looseVigil : Vigil where
  template := Template.field {} "a" (FieldSpec.string "k").require

/-- The listener is told of a success without the field that the template requires; and a listener is
not told about the answer of the store to a call, for the task was stopped meanwhile. -/
theorem protocol_otherwise_looseVigil :
    (looseVigil.verdict (.ok []) = .ready [] ∧
      ∃ spec, ("a", spec) ∈ looseVigil.template.fields ∧ spec.required = true) ∧
    ∃ moments last, Run nameVigil moments last ∧ (∀ m ∈ moments, m.act.deafens = false) ∧
      AtRest last ∧ answers 0 moments = [.ok []] ∧ last.tasks.map Task.events = [[]] := by
  refine ⟨⟨rfl, _, List.mem_singleton_self _, rfl⟩, ?_⟩
  have hcall := (Run.single (.start nameVigil)).snoc (step_call 0 {} [])
  have hstop := hcall.snoc (.stop _)
  have hleft := hstop.snoc (@Step.leave _ []
    { number := 0, stopped := true, phase := .called (.ok []) } [] rfl rfl rfl)
  refine ⟨_, _, hleft, ?_, ?_, rfl, rfl⟩
  · decide +kernel
  · exact List.forall_mem_singleton.mpr rfl

end Vigil
end Checkpoint
end Uplink
