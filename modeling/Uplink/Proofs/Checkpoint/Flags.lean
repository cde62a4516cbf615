import Uplink.Proofs.Checkpoint.Run

/-!
# What the flags of a checkpoint say

Only a started checkpoint is ready or does something, and its listener is told of a success only if a
look has found one.  The gateway goes by this when it starts and stops its components.
-/

namespace Uplink
namespace Checkpoint

section

variable {s next : Scene} {label : Label}

theorem postpone_ready (c : Checkpoint) : c.postpone.ready = c.ready := by
  unfold postpone
  split <;> rfl

theorem look_started (store : Store) (c : Checkpoint) : (look store c).2.started = c.started := by
  unfold look
  dsimp only
  split
  · rfl
  · unfold postpone
    split <;> rfl

/-- What the flags of a checkpoint say of each other: only a started one is ready or does something,
and a started one that handed the fields over is ready. -/
structure Honest (c : Checkpoint) : Prop where
  ready : c.ready = true → c.started = true
  stage : c.stage ≠ none → c.started = true
  told : c.started = true → ∀ fields, .ready fields ∈ c.events → c.ready = true

theorem Fresh.honest {c : Checkpoint} (h : Fresh c) : Honest c where
  ready hready := absurd (h.ready.symm.trans hready) (by decide)
  stage hstage := absurd h.stage hstage
  told _ fields hfields := by
    rw [h.events] at hfields
    cases hfields

theorem fresh_ofTemplate (key : String) (template : Template) (retry : ℕ) :
    Fresh (.ofTemplate key template retry) :=
  ⟨rfl, rfl, rfl, rfl, rfl⟩

theorem honest_start {c : Checkpoint} (h : Honest c) : Honest c.start.2 := by
  cases hstarted : c.started with
  | true =>
      rw [start_of_started hstarted]
      exact h
  | false =>
      rw [start_of_not_started hstarted]
      exact ⟨fun _ => rfl, fun _ => rfl, nofun⟩

theorem honest_stop {c : Checkpoint} (h : Honest c) : Honest c.stop.2 := by
  cases hstarted : c.started with
  | true =>
      rw [stop_of_started hstarted]
      exact ⟨nofun, fun hstage => absurd rfl hstage, nofun⟩
  | false =>
      rw [stop_of_not_started hstarted]
      exact h

theorem events_stop (c : Checkpoint) : c.stop.2.events = c.events := by
  unfold stop
  split <;> rfl

theorem honest_deafen {c : Checkpoint} (h : Honest c) : Honest c.deafen :=
  ⟨h.ready, h.stage, nofun⟩

/-- A look adds at most what it has found to what the listener was told. -/
theorem ready_mem_look {s : Scene} {fields : List (String × Json)}
    (h : .ready fields ∈ (look s.store s.checkpoint).2.events) :
    .ready fields ∈ s.checkpoint.events ∨ s.yield = .ready fields := by
  rcases yield_cases s with hyield | ⟨found, hyield⟩
  · rw [look_of_retry hyield] at h
    unfold postpone at h
    split at h
    · rcases List.mem_cons.mp h with heq | h
      · cases heq
      · exact .inl h
    · exact .inl h
  · rw [look_of_ready hyield] at h
    unfold succeed at h
    cases hheard : s.checkpoint.heard with
    | false =>
        rw [hheard] at h
        exact .inl h
    | true =>
        rw [hheard] at h
        rcases List.mem_cons.mp h with heq | h
        · cases heq
          exact .inr hyield
        · exact .inl h

theorem honest_look {s : Scene} (h : Honest s.checkpoint)
    (hstage : s.checkpoint.stage = some .looking) :
    Honest (look s.store s.checkpoint).2 := by
  have hstarted : s.checkpoint.started = true := h.stage (by rw [hstage]; nofun)
  have hstarted' := (look_started s.store s.checkpoint).trans hstarted
  refine ⟨fun _ => hstarted', fun _ => hstarted', ?_⟩
  intro _ fields hfields
  rcases yield_cases s with hyield | ⟨found, hyield⟩
  · have htold := (ready_mem_look hfields).resolve_right (by rw [hyield]; nofun)
    rw [look_of_retry hyield]
    exact (postpone_ready _).trans (h.told hstarted fields htold)
  · rw [look_of_ready hyield]
    rfl

theorem Step.honest (h : Step s label next) (hhonest : Honest s.checkpoint) :
    Honest next.checkpoint := by
  cases h with
  | start => exact honest_start hhonest
  | stop => exact honest_stop hhonest
  | deafen => exact honest_deafen hhonest
  | look hstage => exact honest_look hhonest hstage
  | requestCheck =>
      unfold Checkpoint.requestCheck
      split
      · rename_i wake hstage
        have hstarted := hhonest.stage (by rw [hstage]; nofun)
        exact ⟨hhonest.ready, fun _ => hstarted, hhonest.told⟩
      · exact ⟨hhonest.ready, hhonest.stage, hhonest.told⟩
  | @wake wake _ hwake =>
      cases wake with
      | request =>
          obtain ⟨time, hstage, rfl⟩ := awake?_request hwake
          have hstarted := hhonest.stage (by rw [hstage]; nofun)
          exact ⟨hhonest.ready, fun _ => hstarted, hhonest.told⟩
      | timer =>
          obtain ⟨time, asked, hstage, -, rfl⟩ := awake?_timer hwake
          have hstarted := hhonest.stage (by rw [hstage]; nofun)
          exact ⟨hhonest.ready, fun _ => hstarted, hhonest.told⟩
  | time | surroundings => exact ⟨hhonest.ready, hhonest.stage, hhonest.told⟩

/-- What the listener was told is what was found. -/
theorem Step.ready_mem {fields : List (String × Json)} (h : Step s label next)
    (hmem : .ready fields ∈ next.checkpoint.events) :
    .ready fields ∈ s.checkpoint.events ∨ label = .look ∧ s.yield = .ready fields := by
  cases h with
  | start =>
      cases hstarted : s.checkpoint.started with
      | true =>
          rw [start_of_started hstarted] at hmem
          exact .inl hmem
      | false =>
          rw [start_of_not_started hstarted] at hmem
          cases hmem
  | stop => exact .inl (events_stop s.checkpoint ▸ hmem)
  | deafen => cases hmem
  | look _ => exact (ready_mem_look hmem).imp_right fun hyield => ⟨rfl, hyield⟩
  | requestCheck =>
      unfold Checkpoint.requestCheck at hmem
      split at hmem <;> exact .inl hmem
  | @wake wake _ hwake =>
      cases wake with
      | request =>
          obtain ⟨time, -, rfl⟩ := awake?_request hwake
          exact .inl hmem
      | timer =>
          obtain ⟨time, asked, -, -, rfl⟩ := awake?_timer hwake
          exact .inl hmem
  | time | surroundings => exact .inl hmem

/-- A checkpoint is started and stopped by its owner only. -/
theorem Step.started_eq (h : Step s label next) (hown : label.IsOwn) :
    next.checkpoint.started = s.checkpoint.started := by
  cases h with
  | requestCheck =>
      unfold Checkpoint.requestCheck
      split <;> rfl
  | look _ => exact look_started _ _
  | @wake wake _ hwake =>
      cases wake with
      | request =>
          obtain ⟨time, -, rfl⟩ := awake?_request hwake
          rfl
      | timer =>
          obtain ⟨time, asked, -, -, rfl⟩ := awake?_timer hwake
          rfl
  | time => rfl
  | start | stop | deafen | surroundings => exact hown.elim

end
end Checkpoint
end Uplink
