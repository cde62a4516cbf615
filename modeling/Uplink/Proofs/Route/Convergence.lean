import Uplink.Proofs.Route.Refinement
import Uplink.Proofs.Text.Blank

/-!
# What a cycle does

A cycle makes every output anew that it looks at, so what was kept of earlier commands plays no part in
it.  What it finds and what it runs are functions of what the shell answers to two commands.  The
commands by which it mends something are run for what they bring about, and how they end plays no part
in it either.  No command is run twice in a cycle, so one answer to each is all that a cycle meets.
-/

namespace Uplink
namespace Route

/-- The interface is missing: its traffic cannot be shown, and the command tells so. -/
def Missing (answer : String → Answer) : Prop :=
  ∃ stats, answer statsCommand = .ok stats ∧ stats.code ≠ 0 ∧
    missingMark.toList <:+: stats.output.toList

/-- The interface is up: its traffic is shown, under its heading. -/
def Up (answer : String → Answer) : Prop :=
  ∃ stats, answer statsCommand = .ok stats ∧ stats.code = 0 ∧ statsMark.toList <:+: stats.output.toList

/-- The route table is shown. -/
def Shown (answer : String → Answer) (table : String) : Prop :=
  answer tableCommand = .ok ⟨0, table⟩

/-- A line of the route table has the network for its first column. -/
def Lists (table network : String) : Prop :=
  ∃ line ∈ table.toList.splitOn '\n', Text.StartsWith line network.toList

/-- The courses that a cycle may take, by the answers of the shell: the status that it finds, and the
commands that it runs. -/
inductive Course (answer : String → Answer) (config : Config) : Status → List String → Prop where
  | dials : Missing answer → Course answer config .dialing [statsCommand, dialCommand]
  | fails : ¬ Missing answer → ¬ Up answer → Course answer config .error [statsCommand]
  | tableFails : Up answer → (∀ table, ¬ Shown answer table) →
      Course answer config .error [statsCommand, tableCommand]
  | finds {table : String} : Up answer → Shown answer table → Lists table config.subnet →
      Course answer config .ready [statsCommand, tableCommand]
  | adds {table : String} : Up answer → Shown answer table → ¬ Lists table config.subnet →
      Course answer config .routeAdded [statsCommand, tableCommand, config.addCommand]

section

variable {answer answer' : String → Answer} {config : Config} {status status' : Status}
  {commands commands' : List String} {table network command : String} {checker : Checker}

theorem lists_iff : Lists table network ↔ hasRoute table network = true := by
  simp only [Lists, Watch.hasRoute_iff, Text.firstColumn?_eq_some_iff]

/-! ## Answers -/

theorem missing_iff {stats : CommandOutput} (h : answer statsCommand = .ok stats) :
    Missing answer ↔ stats.code ≠ 0 ∧ Text.contains stats.output missingMark = true := by
  simp [Missing, h, Text.contains_iff]

theorem up_iff {stats : CommandOutput} (h : answer statsCommand = .ok stats) :
    Up answer ↔ stats.code = 0 ∧ Text.contains stats.output statsMark = true := by
  simp [Up, h, Text.contains_iff]

theorem not_missing_and_not_up {failure : Failure} (h : answer statsCommand = .error failure) :
    ¬ Missing answer ∧ ¬ Up answer := by
  simp [Missing, Up, h]

theorem not_up_of_missing (h : Missing answer) : ¬ Up answer := by
  rintro ⟨stats, hanswer, hcode, -⟩
  obtain ⟨stats', hanswer', hcode', -⟩ := h
  cases hanswer.symm.trans hanswer'
  exact hcode' hcode

theorem Shown.unique {table' : String} (h : Shown answer table) (h' : Shown answer table') :
    table = table' := by
  cases h.symm.trans h'
  rfl

theorem missing_congr (h : answer' statsCommand = answer statsCommand) :
    Missing answer' ↔ Missing answer := by
  rw [Missing, Missing, h]

theorem up_congr (h : answer' statsCommand = answer statsCommand) : Up answer' ↔ Up answer := by
  rw [Up, Up, h]

theorem shown_congr (h : answer' tableCommand = answer tableCommand) :
    Shown answer' table ↔ Shown answer table := by
  rw [Shown, Shown, h]

/-! ## Courses -/

/-- The answers to two commands determine the course. -/
theorem Course.unique (h : Course answer config status commands)
    (h' : Course answer config status' commands') : status = status' ∧ commands = commands' := by
  cases h with
  | dials hmissing =>
      cases h' with
      | dials => exact ⟨rfl, rfl⟩
      | fails hmissing' => exact absurd hmissing hmissing'
      | tableFails hup | finds hup | adds hup => exact absurd hup (not_up_of_missing hmissing)
  | fails hmissing hup =>
      cases h' with
      | dials hmissing' => exact absurd hmissing' hmissing
      | fails => exact ⟨rfl, rfl⟩
      | tableFails hup' | finds hup' | adds hup' => exact absurd hup' hup
  | tableFails hup hshown =>
      cases h' with
      | dials hmissing => exact absurd hup (not_up_of_missing hmissing)
      | fails _ hup' => exact absurd hup hup'
      | tableFails => exact ⟨rfl, rfl⟩
      | finds _ hshown' | adds _ hshown' => exact absurd hshown' (hshown _)
  | finds hup hshown hlists =>
      cases h' with
      | dials hmissing => exact absurd hup (not_up_of_missing hmissing)
      | fails _ hup' => exact absurd hup hup'
      | tableFails _ hshown' => exact absurd hshown (hshown' _)
      | finds => exact ⟨rfl, rfl⟩
      | adds _ hshown' hlists' => exact absurd (hshown.unique hshown' ▸ hlists) hlists'
  | adds hup hshown hlists =>
      cases h' with
      | dials hmissing => exact absurd hup (not_up_of_missing hmissing)
      | fails _ hup' => exact absurd hup hup'
      | tableFails _ hshown' => exact absurd hshown (hshown' _)
      | finds _ hshown' hlists' => exact absurd (hshown'.unique hshown ▸ hlists') hlists
      | adds => exact ⟨rfl, rfl⟩

theorem Course.congr (h : Course answer config status commands)
    (hstats : answer' statsCommand = answer statsCommand)
    (htable : answer' tableCommand = answer tableCommand) :
    Course answer' config status commands := by
  cases h with
  | dials hmissing => exact .dials ((missing_congr hstats).mpr hmissing)
  | fails hmissing hup =>
      exact .fails (mt (missing_congr hstats).mp hmissing) (mt (up_congr hstats).mp hup)
  | tableFails hup hshown =>
      exact .tableFails ((up_congr hstats).mpr hup) fun table => mt (shown_congr htable).mp (hshown table)
  | finds hup hshown hlists =>
      exact .finds ((up_congr hstats).mpr hup) ((shown_congr htable).mpr hshown) hlists
  | adds hup hshown hlists =>
      exact .adds ((up_congr hstats).mpr hup) ((shown_congr htable).mpr hshown) hlists

theorem addCommand_ne (config : Config) : config.addCommand ≠ statsCommand ∧
    config.addCommand ≠ dialCommand ∧ config.addCommand ≠ tableCommand := by
  -- The front stands for any text here: `simp` would compute with a literal one.
  have hfront : ∀ front a b c d e : String,
      front.toList <+: (front ++ a ++ b ++ c ++ d ++ e).toList := by
    simp only [String.toList_append, List.append_assoc, List.prefix_append, implies_true]
  have hne : ∀ other : String, ¬ "route add -net ".toList <+: other.toList →
      config.addCommand ≠ other := by
    intro other hother heq
    exact hother (heq ▸ hfront ..)
  exact ⟨hne _ (by decide +kernel), hne _ (by decide +kernel), hne _ (by decide +kernel)⟩

/-- Which commands are run and which status is found, by the answers of the shell. -/
structure Account (answer : String → Answer) (config : Config) (status : Status)
    (commands : List String) : Prop where
  /-- The interface is looked at first.  After it there is one launch of the dialer, or one look at the
  route table with or without one addition of the route, or nothing. -/
  row : commands = [statsCommand] ∨ commands = [statsCommand, dialCommand] ∨
    commands = [statsCommand, tableCommand] ∨
      commands = [statsCommand, tableCommand, config.addCommand]
  /-- The dialer is launched for a missing interface only. -/
  dials : dialCommand ∈ commands ↔ Missing answer
  /-- The route table is looked at for an interface that is up. -/
  looks : tableCommand ∈ commands ↔ Up answer
  /-- The route is added when it is missing from a table that is shown. -/
  adds : config.addCommand ∈ commands ↔
    Up answer ∧ ∃ table, Shown answer table ∧ ¬ Lists table config.subnet
  dialing : status = .dialing ↔ dialCommand ∈ commands
  routeAdded : status = .routeAdded ↔ config.addCommand ∈ commands
  ready : status = .ready ↔ Up answer ∧ ∃ table, Shown answer table ∧ Lists table config.subnet
  error : status = .error ↔ ¬ Missing answer ∧ ¬ (Up answer ∧ ∃ table, Shown answer table)

theorem Course.account (h : Course answer config status commands) :
    Account answer config status commands := by
  obtain ⟨hstats, hdial, htable⟩ := addCommand_ne config
  have hshown : ∀ {table : String}, Shown answer table → ∀ table', Shown answer table' ↔ table' = table :=
    fun hshown table' => ⟨fun h => h.unique hshown, fun h => h ▸ hshown⟩
  have hcommands : dialCommand ≠ statsCommand ∧ tableCommand ≠ statsCommand ∧
      tableCommand ≠ dialCommand := by decide +kernel
  obtain ⟨hdials, hlooks, hother⟩ := hcommands
  cases h with
  | dials hmissing =>
      have hup := not_up_of_missing hmissing
      constructor <;> simp [*]
  | fails hmissing hup => constructor <;> simp [*]
  | tableFails hup hnone =>
      have hmissing := mt not_up_of_missing (not_not.mpr hup)
      constructor <;> simp [*, Ne.symm hother]
  | finds hup hshows hlists =>
      have hmissing := mt not_up_of_missing (not_not.mpr hup)
      have htables := hshown hshows
      constructor <;> simp [*, Ne.symm hother]
  | adds hup hshows hlists =>
      have hmissing := mt not_up_of_missing (not_not.mpr hup)
      have htables := hshown hshows
      constructor <;> simp [*, Ne.symm hother, Ne.symm hdial, Ne.symm htable]

/-! ## The course of a cycle -/

theorem told_of_nonzero {output : CommandOutput} (h : output.code ≠ 0) :
    told command (.ok output) = .error (.shell command output.code output.output) := by
  simp [told, OutputCache.keep, h]

/-- The part of a cycle that is about the route table. -/
theorem Checker.course_table (checker : Checker) (config : Config) (hup : Up checker.shell.answer) :
    ∃ commands, Course checker.shell.answer config (checker.checkTable config).1
        (statsCommand :: commands) ∧
      (checker.checkTable config).2.shell.executed = commands.reverse ++ checker.shell.executed := by
  rw [checkTable, output_anew]
  cases htold : told tableCommand (checker.shell.answer tableCommand) with
  | error failure =>
      refine ⟨[tableCommand], .tableFails hup ?_, rfl⟩
      intro table hshown
      rw [hshown] at htold
      cases htold
  | ok table =>
      obtain ⟨⟨code, table⟩, hanswer, rfl, rfl⟩ := Watch.told_eq_ok_iff.mp htold
      have hshown : Shown checker.shell.answer table := hanswer
      by_cases hroute : hasRoute table config.subnet = true
      · simp only [hroute, if_true]
        exact ⟨[tableCommand], .finds hup hshown (lists_iff.mpr hroute), rfl⟩
      · simp only [hroute]
        exact ⟨[tableCommand, config.addCommand], .adds hup hshown (mt lists_iff.mp hroute), rfl⟩

/-- A cycle takes the course that the answers call for, if a command that cannot be run fails for want
of input or output. -/
theorem Checker.course_check (checker : Checker) (config : Config)
    (hio : ∀ failure, checker.shell.answer statsCommand = .error failure →
      ∃ context cause, failure = .io context cause) :
    ∃ commands, Course checker.shell.answer config (checker.check config).1 commands ∧
      (checker.check config).2.shell.executed = commands.reverse ++ checker.shell.executed := by
  rw [check, output_anew]
  cases hanswer : checker.shell.answer statsCommand with
  | error failure =>
      obtain ⟨context, cause, rfl⟩ := hio failure hanswer
      obtain ⟨hmissing, hup⟩ := not_missing_and_not_up hanswer
      exact ⟨[statsCommand], .fails hmissing hup, rfl⟩
  | ok stats =>
      have hmissing := missing_iff hanswer
      have hup := up_iff hanswer
      by_cases hcode : stats.code = 0
      · rw [Watch.told_eq_ok_iff.mpr ⟨stats, rfl, hcode, rfl⟩]
        by_cases hmark : Text.contains stats.output statsMark = true
        · obtain ⟨commands, hcourse, hexecuted⟩ :=
            course_table (checker.looked "pppstats" statsCommand) config (hup.mpr ⟨hcode, hmark⟩)
          refine ⟨statsCommand :: commands, ?_, ?_⟩
          · simp only [hmark, if_true]
            exact hcourse
          · simp only [hmark, if_true, hexecuted, List.reverse_cons, List.append_assoc]
            rfl
        · simp only [hmark]
          exact ⟨[statsCommand], .fails (by simp [hmissing, hcode]) (by simp [hup, hmark]), rfl⟩
      · rw [told_of_nonzero hcode]
        by_cases hmark : Text.contains stats.output missingMark = true
        · simp only [hmark, if_true]
          exact ⟨[statsCommand, dialCommand], .dials (hmissing.mpr ⟨hcode, hmark⟩), rfl⟩
        · simp only [hmark]
          exact ⟨[statsCommand], .fails (by simp [hmissing, hmark]) (by simp [hup, hcode]), rfl⟩

/-- Two cycles over shells that answer alike to the two commands find the same and run the same, whatever
outputs are kept and however the other commands end. -/
theorem Checker.check_converges (checker other : Checker) (config : Config)
    (hio : ∀ failure, checker.shell.answer statsCommand = .error failure →
      ∃ context cause, failure = .io context cause)
    (hstats : other.shell.answer statsCommand = checker.shell.answer statsCommand)
    (htable : other.shell.answer tableCommand = checker.shell.answer tableCommand) :
    (other.check config).1 = (checker.check config).1 ∧
      ∃ commands,
        (checker.check config).2.shell.executed = commands.reverse ++ checker.shell.executed ∧
        (other.check config).2.shell.executed = commands.reverse ++ other.shell.executed ∧
        Account checker.shell.answer config (checker.check config).1 commands := by
  obtain ⟨commands, hcourse, hexecuted⟩ := checker.course_check config hio
  obtain ⟨commands', hcourse', hexecuted'⟩ := other.course_check config (hstats ▸ hio)
  obtain ⟨hstatus, rfl⟩ := hcourse'.unique (hcourse.congr hstats htable)
  exact ⟨hstatus, commands', hexecuted, hexecuted', hcourse.account⟩

end

/-! ## A checker with stale outputs -/

/-- A shell that shows the traffic of the interface and a route table without the network. -/
def upShell (others : Answer) : Shell where
  answer command :=
    if command = statsCommand then .ok ⟨0, "PACK VJCOMP  VJUNC"⟩
    else if command = tableCommand then .ok ⟨0, "default 10.0.0.1"⟩
    else others

/-- A fresh checker adds the route, and so does one that still holds a table with the route, and whose
commands fail otherwise. -/
theorem Checker.check_converges_stale :
    let config : Config := { subnet := "10.0.0.0" }
    let fresh : Checker := { shell := upShell (.ok ⟨0, ""⟩) }
    let stale : Checker :=
      { shell := upShell (.error (.io "exec" none)), cache := ⟨[("route", "10.0.0.0 dev ppp0")]⟩ }
    (fresh.check config).1 = .routeAdded ∧ (stale.check config).1 = .routeAdded ∧
      (stale.check config).2.shell.executed = [config.addCommand, tableCommand, statsCommand] := by
  intro config fresh stale
  have hup : Up fresh.shell.answer := ⟨⟨0, statsMark⟩, rfl, rfl, List.infix_rfl⟩
  have hlists : ¬ Lists "default 10.0.0.1" config.subnet := by
    rw [lists_iff]
    decide +kernel
  obtain ⟨hstatus, commands, -, hexecuted, haccount⟩ := fresh.check_converges stale config
    (by simp [fresh, upShell]) (by simp [fresh, stale, upShell])
    (by simp [fresh, stale, upShell, statsCommand, tableCommand])
  have hadds : config.addCommand ∈ commands := haccount.adds.mpr ⟨hup, _, rfl, hlists⟩
  have hadded := haccount.routeAdded.mpr hadds
  obtain ⟨hne_stats, hne_dial, hne_table⟩ := addCommand_ne config
  have hrow : commands = [statsCommand, tableCommand, config.addCommand] := by
    rcases haccount.row with rfl | rfl | rfl | hrow
    · simp [hne_stats] at hadds
    · simp [hne_stats, hne_dial] at hadds
    · simp [hne_stats, hne_table] at hadds
    · exact hrow
  refine ⟨hadded, hstatus.trans hadded, ?_⟩
  rw [hexecuted, hrow]
  rfl

end Route
end Uplink
