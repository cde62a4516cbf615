import Uplink.Proofs.History
import Uplink.Proofs.Keyed
import Uplink.Shell

/-!
# The outputs that are kept

Outputs are called for again and again, under any keys and with any commands, and the shell answers
differently at different times.  Under a key there is the output of the last run that was made for it
and succeeded, unless an attempt to make it anew has failed since.  A call runs its command if and only
if it is to make the output anew or there is none, and what it does under its key it does there alone.
-/

namespace Uplink
namespace OutputCache

/-- A cache, and the shell that runs the commands. -/
structure Scene where
  cache : OutputCache := {}
  shell : Shell := {}

/-- A call for the output of a command under a key. -/
structure Call where
  key : String
  command : String
  anew : Bool
  deriving DecidableEq

/-- What happens: a call, or the shell changes its answers or runs other commands. -/
inductive Label where
  | get (call : Call)
  | surroundings
  deriving DecidableEq

namespace Scene

/-- The output that is kept under a key. -/
def kept? (s : Scene) (key : String) : Option String :=
  s.cache.outputs.find? key

/-- What a call ends with. -/
def result (s : Scene) (call : Call) : Except Failure String :=
  (s.cache.get s.shell call.key call.command call.anew).1

/-- The scene after a call. -/
def called (s : Scene) (call : Call) : Scene where
  cache := (s.cache.get s.shell call.key call.command call.anew).2.1
  shell := (s.cache.get s.shell call.key call.command call.anew).2.2

end Scene

/-- One thing that may happen. -/
inductive Step : Scene → Label → Scene → Prop where
  | get (s : Scene) (call : Call) : Step s (.get call) (s.called call)
  | surroundings (s : Scene) (shell : Shell) : Step s .surroundings { s with shell }

/-- A scene, and what happens next. -/
structure Moment where
  scene : Scene
  label : Label

/-- A row of things that happen. -/
inductive Run : Scene → List Moment → Scene → Prop where
  | nil (s : Scene) : Run s [] s
  | snoc {first last next : Scene} {moments : List Moment} {label : Label} :
      Run first moments last → Step last label next → Run first (moments ++ [⟨last, label⟩]) next

/-- What an answer of the shell comes to: the result of the call, and the output that is kept. -/
inductive Outcome (command : String) :
    Except Failure CommandOutput → Except Failure String → Option String → Prop where
  | success (output : String) : Outcome command (.ok ⟨0, output⟩) (.ok output) (some output)
  | nonzero {code : ℤ} (output : String) : code ≠ 0 →
      Outcome command (.ok ⟨code, output⟩) (.error (.shell command code output)) none
  | unable (failure : Failure) : Outcome command (.error failure) (.error failure) none

/-- A command is run for a key, and the shell has noted it and answers. -/
def Moment.Runs (m : Moment) (key : String) (answer : Except Failure CommandOutput) : Prop :=
  ∃ call, m.label = .get call ∧ call.key = key ∧
    (m.scene.called call).shell.executed = call.command :: m.scene.shell.executed ∧
    m.scene.shell.answer call.command = answer

/-- A command that is run for a key succeeds with an output. -/
def Moment.Succeeds (m : Moment) (key output : String) : Prop :=
  m.Runs key (.ok ⟨0, output⟩)

/-- The output under a key is to be made anew, and this fails. -/
def Moment.FailsAnew (m : Moment) (key : String) : Prop :=
  ∃ call failure, m.label = .get call ∧ call.key = key ∧ call.anew = true ∧
    m.scene.result call = .error failure

/-- What a moment leaves of the output that was kept under a key before. -/
def Moment.Leaves (key : String) (m : Moment) : Prop :=
  ¬ m.FailsAnew key ∧ ∀ output, ¬ m.Succeeds key output

section

variable {s next first last : Scene} {call : Call} {label : Label} {moments : List Moment}
  {key output : String} {failure : Failure} {answer : Except Failure CommandOutput}

/-! ## A call -/

/-- How a call goes. -/
inductive Called (s : Scene) (call : Call) : Except Failure String → Scene → Prop where
  | served {output : String} : call.anew = false → s.kept? call.key = some output →
      Called s call (.ok output) s
  | ran {cache : OutputCache} : call.anew = true ∨ s.kept? call.key = none →
      cache.outputs.find? call.key = none →
      (∀ other, other ≠ call.key → cache.outputs.find? other = s.kept? other) →
        Called s call (cache.keep call.key call.command (s.shell.answer call.command)).1
          ⟨(cache.keep call.key call.command (s.shell.answer call.command)).2,
            (s.shell.exec call.command).2⟩

theorem called_get (s : Scene) (call : Call) : Called s call (s.result call) (s.called call) := by
  obtain ⟨key, command, anew⟩ := call
  unfold Scene.result Scene.called get
  cases anew with
  | true =>
      simp only [if_true, Keyed.find?_erase_self]
      exact .ran (.inl rfl) (Keyed.find?_erase_self key _)
        fun other hother => Keyed.find?_erase_of_ne hother _
  | false =>
      simp only [Bool.false_eq_true, if_false]
      cases hkept : s.cache.outputs.find? key with
      | some output => exact .served rfl hkept
      | none => exact .ran (.inr hkept) hkept fun other _ => rfl

theorem outcome_keep {cache : OutputCache} (hnone : cache.outputs.find? key = none)
    (command : String) (answer : Except Failure CommandOutput) :
    Outcome command answer (cache.keep key command answer).1
      ((cache.keep key command answer).2.outputs.find? key) := by
  cases answer with
  | error failure =>
      rw [keep, hnone]
      exact .unable failure
  | ok output =>
      obtain ⟨code, output⟩ := output
      by_cases hcode : code = 0
      · subst hcode
        simp only [keep, if_true, Keyed.find?_insert_self]
        exact .success output
      · simp only [keep, if_neg hcode, hnone]
        exact .nonzero output hcode

theorem find?_keep_of_ne {cache : OutputCache} {other : String} (hother : other ≠ key)
    (command : String) (answer : Except Failure CommandOutput) :
    (cache.keep key command answer).2.outputs.find? other = cache.outputs.find? other := by
  cases answer with
  | error failure => rfl
  | ok output =>
      unfold keep
      dsimp only
      split
      · exact Keyed.find?_insert_of_ne hother _ _
      · rfl

/-- A call runs its command just if it is to make the output anew or none is kept. -/
theorem executed_iff :
    (s.called call).shell.executed = call.command :: s.shell.executed ↔
      call.anew = true ∨ s.kept? call.key = none := by
  have hcalled := called_get s call
  generalize s.result call = result at hcalled
  generalize s.called call = next at hcalled ⊢
  cases hcalled with
  | served hanew hkept => simp [hanew, hkept]
  | ran hdue => simp [hdue, Shell.exec]

/-- A call for an output that is kept gives it, and changes nothing. -/
theorem called_of_kept (hanew : call.anew = false) (hkept : s.kept? call.key = some output) :
    s.result call = .ok output ∧ s.called call = s := by
  have hcalled := called_get s call
  generalize s.result call = result at hcalled ⊢
  generalize s.called call = next at hcalled ⊢
  cases hcalled with
  | served _ hkept' =>
      cases hkept.symm.trans hkept'
      exact ⟨rfl, rfl⟩
  | ran hdue => simp [hanew, hkept] at hdue

/-- A call that runs its command ends as the shell answers. -/
theorem outcome_called (hdue : call.anew = true ∨ s.kept? call.key = none) :
    (s.called call).shell = (s.shell.exec call.command).2 ∧
      Outcome call.command (s.shell.answer call.command) (s.result call)
        ((s.called call).kept? call.key) := by
  have hcalled := called_get s call
  generalize s.result call = result at hcalled ⊢
  generalize s.called call = next at hcalled ⊢
  cases hcalled with
  | served hanew hkept => simp [hanew, hkept] at hdue
  | ran _ hnone => exact ⟨rfl, outcome_keep hnone _ _⟩

/-- A call concerns its key alone. -/
theorem kept?_called_of_ne {other : String} (hother : other ≠ call.key) :
    (s.called call).kept? other = s.kept? other := by
  have hcalled := called_get s call
  generalize s.result call = result at hcalled
  generalize s.called call = next at hcalled ⊢
  cases hcalled with
  | served => rfl
  | ran _ _ hothers => exact (find?_keep_of_ne hother _ _).trans (hothers other hother)

/-! ## What is kept -/

theorem runs_get_iff :
    Moment.Runs ⟨s, .get call⟩ key answer ↔
      call.key = key ∧ (call.anew = true ∨ s.kept? call.key = none) ∧
        s.shell.answer call.command = answer := by
  constructor
  · rintro ⟨_, ⟨⟩, hkey, hexecuted, hanswer⟩
    exact ⟨hkey, executed_iff.mp hexecuted, hanswer⟩
  · rintro ⟨hkey, hdue, hanswer⟩
    exact ⟨call, rfl, hkey, executed_iff.mpr hdue, hanswer⟩

theorem failsAnew_get_iff :
    Moment.FailsAnew ⟨s, .get call⟩ key ↔
      call.key = key ∧ call.anew = true ∧ ∃ failure, s.result call = .error failure := by
  constructor
  · rintro ⟨_, failure, ⟨⟩, hkey, hanew, hfailure⟩
    exact ⟨hkey, hanew, failure, hfailure⟩
  · rintro ⟨hkey, hanew, failure, hfailure⟩
    exact ⟨call, failure, rfl, hkey, hanew, hfailure⟩

/-- The surroundings leave what is kept. -/
theorem leaves_surroundings (s : Scene) (key : String) :
    Moment.Leaves key ⟨s, .surroundings⟩ := by
  constructor
  · rintro ⟨_, _, ⟨⟩, -⟩
  · rintro output ⟨_, ⟨⟩, -⟩

/-- The output that is kept is the one of a run that has just succeeded, or it was kept before and was
left. -/
theorem Step.kept?_eq_some_iff (h : Step s label next) :
    next.kept? key = some output ↔
      Moment.Succeeds ⟨s, label⟩ key output ∨
        Moment.Leaves key ⟨s, label⟩ ∧ s.kept? key = some output := by
  cases h with
  | surroundings shell =>
      have hleaves := leaves_surroundings s key
      simp [hleaves, hleaves.2 output, Scene.kept?]
  | get call =>
      simp only [Moment.Succeeds, Moment.Leaves, runs_get_iff, failsAnew_get_iff]
      by_cases hkey : call.key = key
      · subst hkey
        by_cases hdue : call.anew = true ∨ s.kept? call.key = none
        · obtain ⟨-, houtcome⟩ := outcome_called hdue
          generalize s.shell.answer call.command = answer at houtcome ⊢
          generalize s.result call = result at houtcome ⊢
          generalize (s.called call).kept? call.key = kept at houtcome ⊢
          cases houtcome with
          | success output' => simp [hdue]
          | nonzero _ hcode => rcases hdue with hanew | hnone <;> simp [*]
          | unable => rcases hdue with hanew | hnone <;> simp [*]
        · obtain ⟨hanew, hkept⟩ := not_or.mp hdue
          obtain ⟨kept, hkept⟩ := Option.ne_none_iff_exists'.mp hkept
          rw [Bool.not_eq_true] at hanew
          rw [(called_of_kept hanew hkept).2]
          simp [hanew, hkept]
      · rw [kept?_called_of_ne (Ne.symm hkey)]
        simp [hkey]

/-- The output that is kept under a key is the one of the last run for it that succeeded, if no attempt
to make it anew has failed since. -/
theorem Run.kept?_eq_some_iff (h : Run first moments last) (hfresh : first.cache = {}) :
    last.kept? key = some output ↔
      Stands (fun m => m.Succeeds key output) (Moment.Leaves key) moments := by
  induction h with
  | nil => simp [Scene.kept?, hfresh, not_stands_nil]
  | snoc _ hstep ih => rw [hstep.kept?_eq_some_iff, stands_concat, ih]

/-- Of a cache that is empty at first, whatever is called for under whatever keys, and whatever the
shell answers from time to time: under a key the output of the last run for it that succeeded is kept,
unless an attempt to make it anew has failed since.  The next call runs its command, once, if and only
if it is to make the output anew or none is kept.  Otherwise it gives the output that is kept, and
changes nothing.  If it runs its command, its result and what is kept are as the shell answers: after a
code other than zero the result is the failure with the command, the code and the output, and after a
command that cannot be run it is the failure of the shell, and in both cases nothing is kept.  What is
kept under other keys stays. -/
theorem Run.cached (hrun : Run first moments last) (hfresh : first.cache = {}) :
    (∀ key output, last.kept? key = some output ↔
      ∃ earlier m later, moments = earlier ++ m :: later ∧ m.Succeeds key output ∧
        ∀ m' ∈ later, ¬ m'.FailsAnew key ∧ ∀ output', ¬ m'.Succeeds key output') ∧
    ∀ call next, Step last (.get call) next →
      (next.shell.executed = call.command :: last.shell.executed ↔
        call.anew = true ∨ last.kept? call.key = none) ∧
      (call.anew = false → ∀ output, last.kept? call.key = some output →
        last.result call = .ok output ∧ next = last) ∧
      (call.anew = true ∨ last.kept? call.key = none →
        next.shell = (last.shell.exec call.command).2 ∧
          Outcome call.command (last.shell.answer call.command) (last.result call)
            (next.kept? call.key)) ∧
      ∀ other, other ≠ call.key → next.kept? other = last.kept? other := by
  refine ⟨fun key output => hrun.kept?_eq_some_iff hfresh, ?_⟩
  rintro call _ ⟨⟩
  exact ⟨executed_iff, fun hanew _ hkept => called_of_kept hanew hkept, outcome_called,
    fun _ hother => kept?_called_of_ne hother⟩

end

/-! ## A shell that changes its mind -/

/-- A shell that answers every command alike. -/
def answering (output : CommandOutput) : Shell where
  answer _ := .ok output

/-- An output was kept, and now every command fails. -/
def failingScene : Scene where
  cache := (Scene.called { shell := answering ⟨0, "one"⟩ } ⟨"key", "first", false⟩).cache
  shell := answering ⟨1, "two"⟩

theorem run_failingScene :
    Run {} [⟨{}, .surroundings⟩, ⟨{ shell := answering ⟨0, "one"⟩ }, .get ⟨"key", "first", false⟩⟩,
      ⟨Scene.called { shell := answering ⟨0, "one"⟩ } ⟨"key", "first", false⟩, .surroundings⟩]
      failingScene :=
  (((Run.nil {}).snoc (.surroundings _ _)).snoc (.get _ _)).snoc (.surroundings _ _)

/-- Another command under the same key is not run, and to make the output anew fails and leaves
nothing. -/
theorem Run.cached_failingScene :
    failingScene.result ⟨"key", "second", false⟩ = .ok "one" ∧
      failingScene.result ⟨"key", "second", true⟩ = .error (.shell "second" 1 "two") ∧
      (failingScene.called ⟨"key", "second", true⟩).kept? "key" = none := by
  obtain ⟨hkept, hcalls⟩ := run_failingScene.cached rfl
  have hone : failingScene.kept? "key" = some "one" := by
    refine (hkept "key" "one").mpr ⟨[_], _, [_], rfl, ?_, ?_⟩
    · exact runs_get_iff.mpr ⟨rfl, .inr rfl, rfl⟩
    · intro m hm
      rw [List.mem_singleton.mp hm]
      exact leaves_surroundings _ "key"
  obtain ⟨-, hserved, -⟩ := hcalls ⟨"key", "second", false⟩ _ (.get _ _)
  obtain ⟨-, -, hran, -⟩ := hcalls ⟨"key", "second", true⟩ _ (.get _ _)
  obtain ⟨-, houtcome⟩ := hran (.inl rfl)
  have hanswer : failingScene.shell.answer "second" = .ok ⟨1, "two"⟩ := rfl
  refine ⟨(hserved rfl "one" hone).1, ?_⟩
  dsimp only at houtcome
  rw [hanswer] at houtcome
  generalize failingScene.result ⟨"key", "second", true⟩ = result at houtcome ⊢
  generalize (failingScene.called ⟨"key", "second", true⟩).kept? "key" = kept at houtcome ⊢
  cases houtcome with
  | nonzero => exact ⟨rfl, rfl⟩

end OutputCache
end Uplink
