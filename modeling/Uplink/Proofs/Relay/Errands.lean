import Mathlib.Tactic.SplitIfs
import Uplink.Proofs.Relay.Run
import Uplink.Relay.Errand

/-!
# Datagrams side by side

Any number of datagrams may be under way at once, each at a part of its own, and their parts, the
calls of others to the store and the changes of the network come in any order.  A depot is a relay
with its surroundings and the datagrams under way.

`receive`, `arrive` and `sendPrimary` are runs of a depot in which all parts of one datagram follow each other.
-/

namespace Uplink
namespace Relay

/-! ## What becomes of a datagram -/

/-- What becomes of a datagram is known at once, or when a text for it is in its queue. -/
theorem judge_cases (store : Store) (relay : Relay) (data : List UInt8) :
    (∃ outcome key text relay', judge relay data = (.queueing outcome key text, relay') ∧
      interpret store relay data = (outcome, (store.push key text).2, relay')) ∨
    ∃ outcome relay', judge relay data = (.settled outcome, relay') ∧
      interpret store relay data = (outcome, store, relay') := by
  cases hdecode : Wire.Message.decode data with
  | error failure =>
      simp only [judge, interpret, hdecode]
      cases failure <;> exact .inr ⟨_, _, rfl, rfl⟩
  | ok message =>
      have hjudge : judge relay data = sort relay message := by simp only [judge, hdecode]
      have hinterpret : interpret store relay data = dispatch store relay message := by
        simp only [interpret, hdecode]
      rw [hjudge, hinterpret, sort, dispatch]
      by_cases hevent : message.type = Wire.mobileTerminatedEvent
      · rw [if_pos hevent, if_pos hevent]
        exact .inl ⟨_, _, _, _, rfl, rfl⟩
      · rw [if_neg hevent, if_neg hevent]
        by_cases hack : message.type = Wire.mobileTerminatedAck
        · rw [if_pos hack, if_pos hack]
          by_cases hhint : relay.hint = some message.sequence
          · rw [if_pos hhint, if_pos hhint]
            exact .inr ⟨_, _, rfl, rfl⟩
          · rw [if_neg hhint, if_neg hhint]
            exact .inl ⟨_, _, _, _, rfl, rfl⟩
        · rw [if_neg hack, if_neg hack]
          exact .inr ⟨_, _, rfl, rfl⟩

/-- To find out what is to become of a datagram may use the announcement up, and nothing else. -/
theorem judge_relay (relay : Relay) (data : List UInt8) :
    (judge relay data).2 = relay ∨ (judge relay data).2 = { relay with hint := none } := by
  unfold judge sort
  split
  · split_ifs
    · exact .inl rfl
    · exact .inr rfl
    · exact .inl rfl
    · exact .inl rfl
  · exact .inl rfl
  · exact .inl rfl

/-- What becomes of a datagram does not depend on the counters. -/
theorem interpret_withStats (store : Store) (relay : Relay) (stats : Stats) (data : List UInt8) :
    interpret store { relay with stats } data =
      ((interpret store relay data).1, (interpret store relay data).2.1,
        { (interpret store relay data).2.2 with stats }) := by
  unfold interpret dispatch
  split
  · split_ifs <;> rfl
  · rfl
  · rfl

theorem interpret_stats (store : Store) (relay : Relay) (data : List UInt8) :
    (interpret store relay data).2.2.stats = relay.stats := by
  have hjudge : (judge relay data).2.stats = relay.stats := by
    rcases judge_relay relay data with h | h <;> rw [h]
  rcases judge_cases store relay data with
    ⟨_, _, _, relay', heq, hinterpret⟩ | ⟨_, relay', heq, hinterpret⟩
  · rw [heq] at hjudge
    rw [hinterpret]
    exact hjudge
  · rw [heq] at hjudge
    rw [hinterpret]
    exact hjudge

/-- The scene after it was counted and told what became of a datagram. -/
def Scene.settle (scene : Scene) : Outcome × Store × Relay → Scene
  | (outcome, store, relay) =>
    { scene with
      store
      relay := { relay with stats := relay.stats.countOutcome outcome }.publish (.inbound outcome) }

/-! ## Depots -/

/-- A relay with its surroundings and the datagrams under way. -/
structure Depot where
  scene : Scene
  underway : List Errand := []

namespace Depot

/-- Begin to send a datagram over a path; nothing begins where there is no errand. -/
def begin (d : Depot) (path : Path) (data : List UInt8) : Depot :=
  { d with underway := d.underway ++ (attempt d.scene.relay path data).toOption.toList }

/-- The depot after the first part of a step.  A step that is not about a datagram has one part. -/
def take (d : Depot) : Relay.Step → Depot
  | .datagram data =>
    let (errands, relay) := accept d.scene.relay data
    { scene := { d.scene with relay }, underway := d.underway ++ errands }
  | .forward path data => d.begin path (data.take bufferSize)
  | .sendPrimary data => d.begin d.scene.relay.config.primary data
  | step => { d with scene := d.scene.next step }

/-- The depot after the next part of an errand that stands between others. -/
def advance (scene : Scene) (before : List Errand) (errand : Errand) (after : List Errand) : Depot :=
  let (rest, store, relay) := work scene.network scene.clock scene.store scene.relay errand
  { scene := { scene with store, relay }, underway := before ++ (rest.toList ++ after) }

/-- What happens to a depot: a step begins, or an errand goes on. -/
inductive Label where
  | take (step : Relay.Step)
  | work (errand : Errand)

/-- One thing that may happen to a depot. -/
inductive Step : Depot → Label → Depot → Prop where
  | take (d : Depot) (step : Relay.Step) : Step d (.take step) (d.take step)
  | work (scene : Scene) (before : List Errand) (errand : Errand) (after : List Errand) :
      Step ⟨scene, before ++ errand :: after⟩ (.work errand) (advance scene before errand after)

/-- A depot, and what happens to it next. -/
structure Moment where
  depot : Depot
  label : Label

/-- A row of things that happen to a depot. -/
inductive Run : Depot → List Moment → Depot → Prop where
  | nil (d : Depot) : Run d [] d
  | snoc {first last next : Depot} {moments : List Moment} {label : Label} :
      Run first moments last → Step last label next → Run first (moments ++ [⟨last, label⟩]) next

section

variable {first middle last next d : Depot} {moments moments' : List Moment} {label : Label}

theorem Run.single (h : Step d label next) : Run d [⟨d, label⟩] next :=
  .snoc (.nil d) h

theorem Run.trans (h : Run first moments middle) (h' : Run middle moments' last) :
    Run first (moments ++ moments') last := by
  induction h' with
  | nil => simpa using h
  | snoc _ hstep ih =>
      rw [← List.append_assoc]
      exact ih.snoc hstep

theorem Step.work_of_underway (before : List Errand) (errand : Errand) (after : List Errand)
    (h : d.underway = before ++ errand :: after) :
    Step d (.work errand) (advance d.scene before errand after) := by
  obtain ⟨scene, underway⟩ := d
  subst h
  exact .work scene before errand after

/-- The depot after the next part of the datagram that is under way for the longest time. -/
def resume (d : Depot) : Depot :=
  match d.underway with
  | [] => d
  | errand :: after => advance d.scene [] errand after

/-- What happens when a depot does what a script says: a step begins, or (`none`) the datagram that is
under way for the longest time goes on. -/
def follow (d : Depot) : List (Option Relay.Step) → List Moment × Depot
  | [] => ([], d)
  | some step :: script =>
    let (moments, last) := (d.take step).follow script
    (⟨d, .take step⟩ :: moments, last)
  | none :: script =>
    let (moments, last) := d.resume.follow script
    ((d.underway.head?.map fun errand => ⟨d, .work errand⟩).toList ++ moments, last)

/-- To do what a script says is a run. -/
theorem run_follow (d : Depot) (script : List (Option Relay.Step)) :
    Run d (d.follow script).1 (d.follow script).2 := by
  induction script generalizing d with
  | nil => exact .nil d
  | cons step script ih =>
      cases step with
      | some step => exact (Run.single (.take d step)).trans (ih (d.take step))
      | none =>
          obtain ⟨scene, underway⟩ := d
          cases underway with
          | nil => exact ih ⟨scene, []⟩
          | cons errand after =>
              exact (Run.single (.work scene [] errand after)).trans
                (ih (advance scene [] errand after))

/-! ## One datagram after the other -/

/-- The only errand goes on. -/
theorem step_work (scene : Scene) (errand : Errand) :
    Step ⟨scene, [errand]⟩ (.work errand) (advance scene [] errand []) :=
  .work scene [] errand []

/-- What becomes of a datagram is done, counted and told, part by part. -/
theorem exists_run_arrived (scene : Scene) (data : List UInt8) :
    ∃ moments, Run ⟨scene, [.arrived data]⟩ moments
      ⟨scene.settle (interpret scene.store scene.relay data), []⟩ := by
  have hfirst := Run.single (step_work scene (.arrived data))
  rcases judge_cases scene.store scene.relay data with
    ⟨outcome, key, text, relay, hjudge, hinterpret⟩ | ⟨outcome, relay, hjudge, hinterpret⟩
  · simp only [advance, work, hjudge] at hfirst
    rw [hinterpret]
    have hqueued := hfirst.snoc (step_work _ (.queueing outcome key text))
    exact ⟨_, (hqueued.snoc (step_work _ (.settled outcome))).snoc (step_work _ (.counted outcome))⟩
  · simp only [advance, work, hjudge] at hfirst
    rw [hinterpret]
    exact ⟨_, (hfirst.snoc (step_work _ (.settled outcome))).snoc (step_work _ (.counted outcome))⟩

/-- To receive a datagram is to make all of its parts. -/
theorem exists_run_receive (scene : Scene) (data : List UInt8) :
    ∃ moments, Run ⟨scene, []⟩ moments ⟨scene.next (.datagram data), []⟩ := by
  cases hstarted : scene.relay.started with
  | false =>
      have hnext : scene.next (.datagram data) = scene := by
        simp [Scene.next, receive, hstarted]
      rw [hnext]
      exact ⟨[], .nil _⟩
  | true =>
      have hfirst := Run.single (.take ⟨scene, []⟩ (.datagram data))
      have hadmitted : take ⟨scene, []⟩ (.datagram data) =
          ⟨{ scene with relay := { scene.relay with stats := scene.relay.stats.countReceived } },
            [.arrived data]⟩ := by
        simp [take, accept, hstarted]
      rw [hadmitted] at hfirst
      obtain ⟨moments, hrun⟩ := exists_run_arrived
        { scene with relay := { scene.relay with stats := scene.relay.stats.countReceived } } data
      have hnext : scene.next (.datagram data) =
          scene.settle (interpret scene.store
            { scene.relay with stats := scene.relay.stats.countReceived } data) := by
        rw [interpret_withStats]
        simp only [Scene.next, receive_of_started hstarted, Scene.settle, interpret_stats]
      rw [hnext]
      exact ⟨_, hfirst.trans hrun⟩

/-- To send a datagram over a path is to make all of its parts. -/
theorem exists_run_forward (scene : Scene) (path : Path) (data : List UInt8)
    {result : Except Failure Unit} {store : Store} {relay : Relay}
    (h : forward scene.network scene.clock scene.store scene.relay path data =
      (result, store, relay)) :
    ∃ moments, Run ((⟨scene, []⟩ : Depot).begin path data) moments
      ⟨{ scene with store, relay }, []⟩ := by
  cases hstarted : scene.relay.started with
  | false =>
      have hbegin : begin ⟨scene, []⟩ path data = ⟨scene, []⟩ := by
        simp [begin, attempt, hstarted, Except.toOption]
      rw [forward, if_neg (by simp [hstarted])] at h
      cases h
      rw [hbegin]
      exact ⟨[], .nil _⟩
  | true =>
      have hbegin : begin ⟨scene, []⟩ path data = ⟨scene, [.sending path data]⟩ := by
        simp [begin, attempt, hstarted, Except.toOption]
      rw [hbegin]
      rw [forward, if_pos hstarted] at h
      have hsend := Run.single (step_work scene (.sending path data))
      cases hsent : scene.network.send (scene.relay.config.destination path).1
          (scene.relay.config.destination path).2 data with
      | ok _ =>
          simp only [advance, work, hsent] at hsend
          have htimed := (hsend.snoc (step_work _ (.sent path))).snoc (step_work _ (.timing path))
          have hlast := (htimed.snoc (step_work _ (.noting path scene.clock))).snoc
            (step_work _ (.noted path))
          simp only [hsent] at h
          cases h
          exact ⟨_, hlast⟩
      | error failure =>
          simp only [advance, work, hsent] at hsend
          have hlast := hsend.snoc (step_work _ .unsent)
          simp only [hsent] at h
          cases h
          exact ⟨_, hlast⟩

/-- A step in one piece is a run of its parts. -/
theorem exists_run_next (scene : Scene) (step : Relay.Step) :
    ∃ moments, Run ⟨scene, []⟩ moments ⟨scene.next step, []⟩ := by
  have hfirst := Run.single (.take ⟨scene, []⟩ step)
  cases step with
  | datagram data => exact exists_run_receive scene data
  | forward path data =>
      obtain ⟨moments, hrun⟩ := exists_run_forward scene path (data.take bufferSize) rfl
      exact ⟨_, hfirst.trans hrun⟩
  | sendPrimary data =>
      obtain ⟨moments, hrun⟩ := exists_run_forward scene scene.relay.config.primary data rfl
      exact ⟨_, hfirst.trans hrun⟩
  | ignoreAck | stop | call | failure | network | clock => exact ⟨_, hfirst⟩

/-- A run in one piece is a run of the parts. -/
theorem exists_run_of_steps (scene : Scene) (steps : List Relay.Step) :
    ∃ moments, Run ⟨scene, []⟩ moments ⟨scene.run steps, []⟩ := by
  induction steps generalizing scene with
  | nil => exact ⟨[], .nil _⟩
  | cons step steps ih =>
      obtain ⟨moments, hfirst⟩ := exists_run_next scene step
      obtain ⟨moments', hrest⟩ := ih (scene.next step)
      exact ⟨_, hfirst.trans hrest⟩

end
end Depot
end Relay
end Uplink
