import Uplink.Proofs.Keyed
import Uplink.Proofs.Route.Intervals

/-!
# Checks in one piece

`Keeper` makes a cycle at once, and `Watched.check` and `Watched.output` make a call at once, over a
shell that answers from its table.  What happens to such a route is a run of the parts, in which the
shell answers each command as soon as it is sent.  So all that is proved of every shell holds of such a
route: `settle` and `advance` lead from one moment of rest to the next, and time passes in between.
-/

namespace Uplink

namespace OutputCache

variable {key command : String} {answer : Except Failure CommandOutput}

/-- What comes of a command does not depend on what is kept. -/
theorem keep_fst (cache : OutputCache) :
    (cache.keep key command answer).1 = Route.told command answer := by
  cases answer with
  | error failure => rfl
  | ok output =>
      unfold Route.told keep
      dsimp only
      split <;> rfl

end OutputCache

namespace Route

/-- The command that comes next. -/
def Next.command? {ρ : Type} : Next ρ → Option String
  | look _ command | mend command => some command
  | done _ => none

namespace Station

variable {ρ : Type}

/-- Every command is answered at once, and the use of the checker comes to its end. -/
inductive Served (reply : String → Answer) (user : User) (next : OutputCache → List Answer → Next ρ) :
    Station → List Answer → ρ → Station → Prop where
  | last {s s' : Station} {answers : List Answer} {command : String} {result : ρ} :
      (next s.cache answers).command? = some command →
      s.hear user next answers (reply command) = (some result, s') →
        Served reply user next s answers result s'
  | more {s s' final : Station} {answers : List Answer} {command : String} {result : ρ} :
      (next s.cache answers).command? = some command →
      s.hear user next answers (reply command) = (none, s') →
      Served reply user next s' (answers ++ [reply command]) result final →
        Served reply user next s answers result final

/-- A command for its output ends a use, or is followed by the next command. -/
theorem hear_of_look (user : User) (s : Station) {next : List Answer → Next ρ}
    {answers : List Answer} {key command : String} (hlook : next answers = .look key command)
    (answer : Answer) :
    s.hear user (fun _ => next) answers answer =
      proceed { s with cache := (s.cache.keep key command answer).2 } user (fun _ => next)
        (answers ++ [answer]) := by
  rw [Station.hear, hlook]
  rfl

/-- What is brought about by a command ends the use. -/
theorem served_mending {user : User} {next : List Answer → Next Status} {s : Station}
    {answers : List Answer} {status : Status} (reply : String → Answer) (command : String)
    (hnext : ∀ rest, next (answers ++ rest) = mending command status rest) :
    Served reply user (fun _ => next) s answers status s.leave := by
  have hmend : next answers = .mend command := by simpa [mending] using hnext []
  have hdone : next (answers ++ [reply command]) = .done status := hnext _
  have hcommand : (next answers).command? = some command := by
    rw [hmend]
    rfl
  refine .last hcommand ?_
  rw [hear, hmend, proceed, hdone]
  rfl

end Station

namespace Checker

variable {checker : Checker} {config : Config} {key command : String}

/-- The checker after a command was run for its output. -/
def looked (checker : Checker) (key command : String) : Checker where
  shell := (checker.shell.exec command).2
  cache := ((⟨checker.cache.outputs.erase key⟩ : OutputCache).keep key command
    (checker.shell.answer command)).2

theorem output_anew (checker : Checker) (key command : String) :
    checker.output key command true =
      (told command (checker.shell.answer command), checker.looked key command) := by
  simp only [output, OutputCache.get, if_pos, Keyed.find?_erase_self, Shell.exec]
  rw [← OutputCache.keep_fst ⟨checker.cache.outputs.erase key⟩]
  rfl

/-- The look at the route table, part by part. -/
theorem served_table (checker : Checker) {user : User} {next : List Answer → Next Status}
    {s : Station} {answers : List Answer} (hcache : s.cache = ⟨checker.cache.outputs.erase "route"⟩)
    (hnext : ∀ rest, next (answers ++ rest) = tableNext config rest) :
    Station.Served checker.shell.answer user (fun _ => next) s answers (checker.checkTable config).1
      { s with cache := (checker.checkTable config).2.cache, use := none } := by
  have hlook : next answers = .look "route" tableCommand := by simpa [tableNext] using hnext []
  have hcommand : (next answers).command? = some tableCommand := by
    rw [hlook]
    rfl
  have hheard := Station.hear_of_look user s hlook (checker.shell.answer tableCommand)
  rw [Station.proceed, hcache] at hheard
  dsimp only at hheard
  rw [hnext, tableNext] at hheard
  rw [checkTable, output_anew]
  cases htold : told tableCommand (checker.shell.answer tableCommand) with
  | error failure =>
      rw [htold] at hheard
      exact .last hcommand hheard
  | ok table =>
      rw [htold] at hheard
      dsimp only at hheard ⊢
      by_cases hroute : hasRoute table config.subnet = true
      · rw [if_pos hroute] at hheard ⊢
        exact .last hcommand hheard
      · rw [if_neg hroute] at hheard ⊢
        refine .more hcommand hheard
          (Station.served_mending _ config.addCommand fun rest => ?_)
        rw [List.append_assoc, hnext, List.singleton_append, tableNext, htold]
        dsimp only
        rw [if_neg hroute]

/-- A check, part by part. -/
theorem served_check (checker : Checker) (config : Config) (user : User) {s : Station}
    (hcache : s.cache = ⟨checker.cache.outputs.erase "pppstats"⟩) :
    Station.Served checker.shell.answer user (fun _ => checkNext config) s [] (checker.check config).1
      { s with cache := (checker.check config).2.cache, use := none } := by
  have hlook : checkNext config [] = .look "pppstats" statsCommand := rfl
  have hheard := Station.hear_of_look user s hlook (checker.shell.answer statsCommand)
  rw [Station.proceed, hcache] at hheard
  dsimp only at hheard
  rw [List.nil_append, checkNext] at hheard
  rw [check, output_anew]
  cases htold : told statsCommand (checker.shell.answer statsCommand) with
  | ok stats =>
      rw [htold] at hheard
      dsimp only at hheard ⊢
      by_cases hmark : Text.contains stats statsMark = true
      · rw [if_pos hmark] at hheard ⊢
        refine .more rfl hheard
          (served_table (checker.looked "pppstats" statsCommand) rfl fun rest => ?_)
        rw [List.nil_append, List.singleton_append, checkNext, htold]
        exact if_pos hmark
      · rw [if_neg hmark] at hheard ⊢
        exact .last rfl hheard
  | error failure =>
      rw [htold] at hheard
      cases failure with
      | shell _ _ text =>
          dsimp only at hheard ⊢
          by_cases hmissing : Text.contains text missingMark = true
          · rw [if_pos hmissing] at hheard ⊢
            refine .more rfl hheard (Station.served_mending _ dialCommand fun rest => ?_)
            rw [List.nil_append, List.singleton_append, checkNext, htold]
            exact if_pos hmissing
          · rw [if_neg hmissing] at hheard ⊢
            exact .last rfl hheard
      | _ => exact .last rfl hheard

theorem outputNext_of_not_kept {anew : Bool} {cache : OutputCache}
    (h : (if anew then none else cache.outputs.find? key) = none) :
    outputNext key command anew cache [] = .look key command := by
  rw [outputNext, h]

/-- A command for an output that is not kept. -/
theorem served_output (reply : String → Answer) (user : User) (key command : String)
    (anew : Bool) {s : Station} (hnone : s.cache.outputs.find? key = none) :
    Station.Served reply user (outputNext key command anew) s [] (told command (reply command))
      { s with cache := (s.cache.keep key command (reply command)).2, use := none } := by
  have hlook : outputNext key command anew s.cache [] = .look key command :=
    outputNext_of_not_kept (by simp [hnone])
  refine .last (congrArg Next.command? hlook) ?_
  rw [Station.hear, hlook]
  rfl

end Checker

/-! ## A use that is served, as a run -/

namespace Station

variable {ρ : Type}

/-- Who looks at an answer does not ask where it came from. -/
theorem hear_answered (s : Station) (use : Use) (came : Answer) (user : User)
    (next : OutputCache → List Answer → Next ρ) (answers : List Answer) (answer : Answer) :
    (s.answered use came).hear user next answers answer = s.hear user next answers answer := by
  have hkeep : ∀ step : Next ρ,
      ((s.answered use came).keep step answer).cache = (s.keep step answer).cache ∧
        ((s.answered use came).keep step answer).nextCheck = (s.keep step answer).nextCheck := by
    intro step
    cases step <;> exact ⟨rfl, rfl⟩
  obtain ⟨hcache, hcheck⟩ := hkeep (next s.cache answers)
  unfold hear proceed
  rw [show (s.answered use came).cache = s.cache from rfl, hcache, hcheck]

end Station

namespace Watch

/-- No stop comes in between, and time passes only at rest. -/
def Moment.Undisturbed (m : Moment) : Prop :=
  m.label ≠ .stop true ∧ m.Prompt

section

variable {w : Watch} {label : Label} {first last middle : Watch} {moments moments' : List Moment}

theorem undisturbed_of_ne (hstop : label ≠ .stop true) (htime : ∀ moment, label ≠ .time moment) :
    Moment.Undisturbed ⟨w, label⟩ :=
  ⟨hstop, fun moment hlabel => absurd hlabel (htime moment)⟩

theorem Run.trans (h : Run first moments middle) (h' : Run middle moments' last) :
    Run first (moments ++ moments') last := by
  induction h' with
  | nil => rwa [List.append_nil]
  | snoc _ hstep ih =>
      rw [← List.append_assoc]
      exact .snoc ih hstep

/-- Without a stop, and with rest before time passes, one watch comes after another. -/
def Leads (w next : Watch) : Prop :=
  ∃ moments, Run w moments next ∧ ∀ m ∈ moments, m.Undisturbed

theorem Leads.refl (w : Watch) : Leads w w :=
  ⟨[], .nil w, by simp⟩

theorem Leads.trans (h : Leads first middle) (h' : Leads middle last) : Leads first last := by
  obtain ⟨moments, hrun, hmoments⟩ := h
  obtain ⟨moments', hrun', hmoments'⟩ := h'
  refine ⟨_, hrun.trans hrun', ?_⟩
  intro m hm
  rcases List.mem_append.mp hm with hm | hm
  · exact hmoments m hm
  · exact hmoments' m hm

theorem Leads.single {next : Watch} (h : Step w label next)
    (hundisturbed : Moment.Undisturbed ⟨w, label⟩) : Leads w next := by
  refine ⟨_, .snoc (.nil w) h, ?_⟩
  intro m hm
  rw [List.mem_singleton.mp hm]
  exact hundisturbed

end

/-- A use that is served goes through its parts, one after another. -/
theorem leads_of_served {ρ : Type} (w : Watch) (go : Option ρ × Station → Watch)
    {reply : String → Answer} {user : User} {next : OutputCache → List Answer → Next ρ}
    (hnone : ∀ s, go (none, s) = w.withResource s)
    (hgo : ∀ s answers answer, s.use = some ⟨user, answers, some answer⟩ →
      Leads (w.withResource s) (go (s.hear user next answers answer)))
    {s final : Station} {answers : List Answer} {result : ρ}
    (hserved : Station.Served reply user next s answers result final)
    (huse : s.use = some { user, answers }) : Leads (w.withResource s) (go (some result, final)) := by
  have hpart : ∀ {s : Station} {answers : List Answer} (answer : Answer),
      s.use = some { user, answers } →
        Leads (w.withResource s) (go (s.hear user next answers answer)) := by
    intro s answers answer huse
    have hanswered : Step (w.withResource s) (.answered answer) _ := .answered answer huse rfl
    refine (Leads.single hanswered (undisturbed_of_ne nofun nofun)).trans ?_
    rw [← Station.hear_answered s { user, answers } answer]
    exact hgo _ answers answer rfl
  induction hserved with
  | @last s _ _ command _ _ hheard => exact hheard ▸ hpart (reply command) huse
  | @more s s' _ answers command _ _ hheard _ ih =>
      have hfirst := hpart (reply command) huse
      have hproceeded := Station.proceeded_hear s user next answers (reply command)
      rw [hheard] at hfirst hproceeded
      rw [hnone] at hfirst
      cases hproceeded with
      | goesOn _ huse' _ => exact hfirst.trans (ih huse')

/-- A call that takes the checker goes through its parts, one after another. -/
theorem leads_of_taken {ρ : Type} {w : Watch} {call : Call} {reply : String → Answer}
    {next : OutputCache → List Answer → Next ρ} {s final : Station} {result : ρ} (ends : ρ → Reply)
    (hfree : w.resource.use = none) (htake : w.resource.take call = (none, s))
    (huse : s.use = some { user := .outside call })
    (hresume : ∀ (s : Station) answers answer, s.resume answers answer call =
      (s.hear (.outside call) next answers answer).map (Option.map ends) id)
    (hserved : Station.Served reply (.outside call) next s [] result final) :
    Leads w (w.reply (some (ends result), final)) := by
  have htaken : Step w (.take call) _ := .take call hfree
  rw [htake] at htaken
  refine (Leads.single htaken (undisturbed_of_ne nofun nofun)).trans ?_
  refine leads_of_served w (fun outcome => w.reply (outcome.map (Option.map ends) id))
    (fun _ => rfl) ?_ hserved huse
  intro s answers answer huse
  have hresumed : Step (w.withResource s) .resume _ := .resume huse
  rw [hresume] at hresumed
  exact Leads.single hresumed (undisturbed_of_ne nofun nofun)

theorem display_nothing (w : Watch) (run : ℕ) : w.display run {} = w := by
  simp [Watcher.display, Feed.publishAll]

/-- The run that drives works as its resource does. -/
theorem step_work {w : Watch} {run : ℕ} {config : Config} {s : Station} {deed : Watcher.Deed}
    (hholder : w.holder = some ⟨run, config, .driving⟩) (hlive : w.isCancelled run = false)
    (hdrive : w.resource.drive config w.now = .work s deed) :
    Step w (.move (.worked run)) ((w.withResource s).display run deed) := by
  refine .move (.holder hholder ?_)
  have hact : Station.resource.act .drive config w.now w.permit w.resource = .work s deed := hdrive
  rw [Watcher.holderMove?]
  dsimp only
  rw [if_neg (by simp [hlive]), Watcher.pursue, hact]

/-- What a part of a cycle comes to for a watch. -/
def heard (w : Watch) (run : ℕ) (config : Config) : Option Status × Station → Watch
  | (none, s) => w.withResource s
  | (some status, s) =>
    (w.withResource { s with nextCheck := w.now + max 1 config.interval.toNat }).display run
      { notes := [status.note], ready := some (status = .ready) }

end Watch

/-! ## A route in one piece, as a watch -/

/-- A checker that nobody uses, with the time of the next cycle. -/
def Keeper.station (keeper : Keeper) : Station where
  cache := keeper.checker.cache
  nextCheck := keeper.nextCheck

namespace Watched

open Watcher (Event Holder)

/-- A route in one piece, as a watch with nobody at the checker. -/
def watch (w : Watched) : Watch where
  name := w.name
  retry := w.retry
  resource := w.resource.station
  now := w.now
  state := w.state
  changed := w.changed
  starts := w.starts
  live := w.live
  holder := w.holder
  waiting := w.waiting
  permit := w.permit
  notes := w.notes

section

variable {w next : Watched} {event : Event} {holder : Holder Config} {run : ℕ} {config : Config}

theorem watch_setState (w : Watched) (run : ℕ) (state : Watcher.State) :
    watch (w.setState run state) = w.watch.setState run state := by
  unfold Watcher.setState
  split
  · rename_i hsame
    exact (if_pos hsame).symm
  · rename_i hother
    exact (if_neg hother).symm

theorem watch_display (w : Watched) (run : ℕ) (deed : Watcher.Deed) :
    watch (w.display run deed) = w.watch.display run deed := by
  unfold Watcher.display
  dsimp only
  split
  · exact watch_setState _ _ _
  · rfl

/-- A check from outside, part by part. -/
theorem leads_check (w : Watched) (config : Config) :
    Watch.Leads w.watch (w.check config).2.watch := by
  have hserved := Checker.served_check w.resource.checker config (.outside (.check config))
    (s := (w.watch.resource.proceed (.outside (.check config)) (fun _ => checkNext config) []).2) rfl
  exact Watch.leads_of_taken .checked rfl rfl rfl (fun _ _ _ => rfl) hserved

/-- A call for an output that is not kept, part by part. -/
theorem leads_look (w : Watched) (key command : String) (anew : Bool)
    (hnone : (if anew then none else w.resource.checker.cache.outputs.find? key) = none) :
    Watch.Leads w.watch (w.withChecker (w.resource.checker.looked key command)).watch := by
  have hlook : outputNext key command anew w.watch.resource.cache [] = .look key command :=
    Checker.outputNext_of_not_kept hnone
  have hserved := Checker.served_output w.resource.checker.shell.answer
    (.outside (.output key command anew)) key command anew
    (s := { w.watch.resource with
      cache := ⟨w.resource.checker.cache.outputs.erase key⟩
      use := some { user := .outside (.output key command anew) } })
    (Keyed.find?_erase_self key _)
  refine Watch.leads_of_taken .fetched rfl ?_ rfl (fun _ _ _ => rfl) hserved
  rw [Station.take, Station.proceed, hlook]
  rfl

/-- A call for an output, part by part. -/
theorem leads_output (w : Watched) (key command : String) (anew : Bool) :
    Watch.Leads w.watch (w.output key command anew).2.watch := by
  cases hfound : if anew then none else w.resource.checker.cache.outputs.find? key with
  | none =>
      have hlooked : (w.resource.checker.output key command anew).2 =
          w.resource.checker.looked key command := by
        cases anew with
        | true => rw [Checker.output_anew]
        | false =>
            have hnone : w.resource.checker.cache.outputs.find? key = none := hfound
            rw [Checker.looked, Keyed.erase_eq_self hnone, Checker.output, OutputCache.get]
            dsimp only
            rw [if_neg Bool.false_ne_true, hnone]
            rfl
      have hwatch := w.leads_look key command anew hfound
      rw [← hlooked] at hwatch
      exact hwatch
  | some output =>
      -- the output is kept, and the call is over as soon as it has the checker
      cases anew with
      | true => cases hfound
      | false =>
          have hsome : w.resource.checker.cache.outputs.find? key = some output := hfound
          have hsame : (w.output key command false).2 = w := by
            rw [Watched.output, Checker.output, OutputCache.get]
            dsimp only
            rw [if_neg Bool.false_ne_true, hsome]
            rfl
          rw [hsame]
          exact .refl _

/-- The route after a cycle in one piece. -/
def cycled (w : Watched) (run : ℕ) (config : Config) : Watched :=
  let (status, checker) := w.resource.checker.check config
  (w.withResource { checker, nextCheck := w.now + max 1 config.interval.toNat }).display run
    { notes := [status.note], ready := some (status = .ready) }

/-- A cycle, part by part. -/
theorem leads_cycled (w : Watched) (hholder : w.holder = some ⟨run, config, .driving⟩)
    (hlive : w.isCancelled run = false) (hdue : w.resource.nextCheck ≤ w.now) :
    Watch.Leads w.watch (w.cycled run config).watch := by
  have hserved := Checker.served_check w.resource.checker config .cycle
    (s := (w.watch.resource.proceed .cycle (fun _ => checkNext config) []).2) rfl
  have hdrive : w.watch.resource.drive config w.watch.now =
      .work (w.watch.resource.proceed .cycle (fun _ => checkNext config) []).2 {} :=
    if_neg (Nat.not_lt.mpr hdue)
  have hbegins := Watch.step_work (w := w.watch) hholder hlive hdrive
  rw [Watch.display_nothing] at hbegins
  refine (Watch.Leads.single hbegins (Watch.undisturbed_of_ne nofun nofun)).trans ?_
  rw [cycled, watch_display]
  refine Watch.leads_of_served w.watch (w.watch.heard run config) (fun _ => rfl) ?_ hserved rfl
  intro s answers answer huse
  have hgoesOn : (w.watch.withResource s).resource.drive config w.watch.now =
      Station.outcome config w.now (s.hear .cycle (fun _ => checkNext config) answers answer) := by
    change s.drive config w.now = _
    rw [Station.drive, huse]
  generalize s.hear .cycle (fun _ => checkNext config) answers answer = heard at hgoesOn ⊢
  obtain ⟨_ | status, s'⟩ := heard
  · have hstep := Watch.step_work (w := w.watch.withResource s) hholder hlive hgoesOn
    rw [Watch.display_nothing] at hstep
    exact Watch.Leads.single hstep (Watch.undisturbed_of_ne nofun nofun)
  · have hstep := Watch.step_work (w := w.watch.withResource s) hholder hlive hgoesOn
    exact Watch.Leads.single hstep (Watch.undisturbed_of_ne nofun nofun)

theorem watch_afterRelease (w : Watched) (holder : Holder Config) (ending : Watcher.Ending) :
    Watcher.afterRelease holder ending w.watch =
      (Watcher.afterRelease holder ending w).map id watch := by
  cases ending with
  | interrupted => rfl
  | finished =>
      have hset := watch_setState w holder.run .retrying
      exact congrArg (fun v : Watch => (Event.released holder.run .finished,
        v.toStage holder (.pausing w.wakeTime))) hset.symm
  | failed =>
      have hset := watch_setState (w.note .error) holder.run .retrying
      exact congrArg (fun v : Watch => (Event.released holder.run .failed,
        v.toStage holder (.pausing w.wakeTime))) hset.symm

/-- But for a cycle, the run whose turn it is moves in the same way. -/
theorem holderMove?_watch (w : Watched) (holder : Holder Config)
    (hwait : holder.stage = .driving → w.isCancelled holder.run = false →
      w.now < w.resource.nextCheck) :
    Watcher.holderMove? Station.resource w.watch holder =
      (Watcher.holderMove? Keeper.resource w holder).map (Prod.map id watch) := by
  have hcancelled : w.watch.isCancelled holder.run = w.isCancelled holder.run := rfl
  rw [Watcher.holderMove?, Watcher.holderMove?, hcancelled]
  split
  · split <;> rfl
  · rename_i hstage
    split
    · rfl
    · rename_i hlive
      have hlt := hwait hstage (eq_false_of_ne_true hlive)
      have hstation : Station.resource.act .drive holder.args w.watch.now w.watch.permit
          w.watch.resource = .wait (some w.resource.nextCheck) := if_pos hlt
      have hkeeper : Keeper.resource.act .drive holder.args w.now w.permit w.resource =
          .wait (some w.resource.nextCheck) := if_pos hlt
      rw [Watcher.pursue, Watcher.pursue, hstation, hkeeper]
      rfl
  · exact congrArg some (watch_afterRelease w holder _)
  · split
    · rfl
    · rw [show w.watch.now = w.now from rfl]
      split <;> rfl

/-- A run that drives makes a cycle when it is due. -/
theorem holderMove?_of_due (w : Watched) (hlive : w.isCancelled run = false)
    (hdue : w.resource.nextCheck ≤ w.now) :
    Watcher.holderMove? Keeper.resource w ⟨run, config, .driving⟩ =
      some (.worked run, w.cycled run config) := by
  have hact : Keeper.resource.act .drive config w.now w.permit w.resource =
      .work { checker := (w.resource.checker.check config).2,
              nextCheck := w.now + max 1 config.interval.toNat }
        { notes := [(w.resource.checker.check config).1.note],
          ready := some ((w.resource.checker.check config).1 = .ready) } :=
    if_neg (Nat.not_lt.mpr hdue)
  rw [Watcher.holderMove?]
  dsimp only
  rw [if_neg (by simp [hlive]), Watcher.pursue, hact]
  rfl

/-- A move of the run whose turn it is, part by part. -/
theorem leads_holderMove? (hholder : w.holder = some holder)
    (h : Watcher.holderMove? Keeper.resource w holder = some (event, next)) :
    Watch.Leads w.watch next.watch := by
  by_cases hcycle : holder.stage = .driving ∧ w.isCancelled holder.run = false ∧
      w.resource.nextCheck ≤ w.now
  · obtain ⟨run, config, stage⟩ := holder
    obtain ⟨rfl, hlive, hdue⟩ := hcycle
    rw [holderMove?_of_due w hlive hdue] at h
    cases h
    exact leads_cycled w hholder hlive hdue
  · have hsame := holderMove?_watch w holder fun hstage hlive =>
      Nat.lt_of_not_le fun hdue => hcycle ⟨hstage, hlive, hdue⟩
    rw [h] at hsame
    have hstep : Watch.Step w.watch (.move event) next.watch := .move (.holder hholder hsame)
    exact Watch.Leads.single hstep (Watch.undisturbed_of_ne nofun nofun)

/-- A move, part by part. -/
theorem leads_move? (h : w.move? Keeper.resource = some (event, next)) :
    Watch.Leads w.watch next.watch := by
  cases Watcher.step_of_move? h with
  | giveUp hwaiting hcancelled =>
      have hstep : Watch.Step w.watch (.move _) _ := .move (.giveUp hwaiting hcancelled)
      exact Watch.Leads.single hstep (Watch.undisturbed_of_ne nofun nofun)
  | turn hwaiting hlive hholder =>
      have hstep : Watch.Step w.watch (.move _) _ := .move (.turn hwaiting hlive hholder)
      exact Watch.Leads.single hstep (Watch.undisturbed_of_ne nofun nofun)
  | holder hholder hmove => exact leads_holderMove? hholder hmove

/-- All moves of a moment, part by part. -/
theorem leads_settle (w : Watched) : Watch.Leads w.watch (watch (w.settle Keeper.resource)) := by
  fun_induction Watcher.settle Keeper.resource w with
  | case1 w move h _ _ ih => exact (leads_move? h).trans ih
  | case2 w move h _ => exact leads_move? h
  | case3 w h => exact .refl _

/-- At rest the run whose turn it is waits for a time to come. -/
theorem waits_of_rest (hrest : w.move? Keeper.resource = none) (hholder : w.holder = some holder) :
    (∃ wake, holder.stage = .pausing wake ∧ w.now < wake) ∨
      holder.stage = .driving ∧ w.isCancelled holder.run = false ∧
        w.now < w.resource.nextCheck := by
  have hmove := Watcher.holderMove?_of_rest hrest hholder
  obtain ⟨run, config, stage⟩ := holder
  cases stage with
  | acquiring =>
      rw [Watcher.holderMove?] at hmove
      dsimp only at hmove
      split at hmove <;> cases hmove
  | releasing ending => cases hmove
  | pausing wake =>
      rw [Watcher.holderMove?] at hmove
      dsimp only at hmove
      split at hmove
      · cases hmove
      · split at hmove
        · cases hmove
        · rename_i hwake
          exact .inl ⟨wake, rfl, Nat.lt_of_not_le hwake⟩
  | driving =>
      by_cases hlive : w.isCancelled run = false
      · refine .inr ⟨rfl, hlive, Nat.lt_of_not_le fun hdue => ?_⟩
        rw [holderMove?_of_due w hlive hdue] at hmove
        cases hmove
      · rw [Watcher.holderMove?] at hmove
        dsimp only at hmove
        rw [if_pos (by simpa using hlive)] at hmove
        cases hmove

/-- The route is only let go by a run that was stopped. -/
def Tranquil (w : Watched) : Prop :=
  ∀ holder ending, w.holder = some holder → holder.stage = .releasing ending →
    ending = .interrupted

theorem tranquil_of_rest (hrest : w.move? Keeper.resource = none) : w.Tranquil := by
  intro holder ending hholder hstage
  rcases waits_of_rest hrest hholder with ⟨wake, hpausing, -⟩ | ⟨hdriving, -, -⟩
  · cases hstage.symm.trans hpausing
  · cases hstage.symm.trans hdriving

/-- A route is always acquired, and its drive has no end, so no pause ever begins. -/
theorem Tranquil.move? (h : w.Tranquil) (hmove : w.move? Keeper.resource = some (event, next)) :
    Tranquil next ∧ (event.beginsPause = true → 0 < w.retry) := by
  cases Watcher.step_of_move? hmove with
  | giveUp => exact ⟨h, nofun⟩
  | turn => exact ⟨by rintro _ _ ⟨⟩ ⟨⟩, nofun⟩
  | @holder _ holder _ hholder hmove =>
      cases Watcher.holderStep_of_holderMove? hmove with
      | leave => exact ⟨nofun, nofun⟩
      | work =>
          refine ⟨?_, nofun⟩
          rw [Tranquil, Watcher.display_holder]
          exact h
      | acquire =>
          refine ⟨?_, nofun⟩
          rintro _ _ ⟨⟩ ⟨⟩
      | refuse _ _ hact => cases hact
      | interrupt =>
          refine ⟨?_, nofun⟩
          rintro _ _ ⟨⟩ ⟨⟩
          rfl
      | finish _ _ hact =>
          change Keeper.drive _ _ _ = _ at hact
          unfold Keeper.drive at hact
          split at hact <;> cases hact
      | @release ending _ _ hstage _ =>
          obtain rfl := h holder ending hholder hstage
          exact ⟨nofun, nofun⟩
      | retry =>
          refine ⟨?_, nofun⟩
          rintro _ _ ⟨⟩ ⟨⟩

/-- A route at rest is at rest again after the moves of a later moment. -/
theorem move?_passTo (hrest : w.move? Keeper.resource = none) (moment : ℕ) :
    (w.passTo Keeper.resource moment).move? Keeper.resource = none := by
  have htranquil : w.Tranquil := tranquil_of_rest hrest
  have hlater : Tranquil { w with now := moment } := htranquil
  exact Watcher.move?_settle_of _ (fun _ _ _ h hmove => h.move? hmove) hlater

/-- A route at rest is a watch at rest. -/
theorem atRest_watch (hrest : w.move? Keeper.resource = none) : w.watch.AtRest := by
  refine ⟨?_, rfl⟩
  have hholder : ∀ holder, w.holder = some holder →
      Watcher.holderMove? Station.resource w.watch holder = none := by
    intro holder hholder
    have hwait := waits_of_rest hrest hholder
    rw [holderMove?_watch w holder, Watcher.holderMove?_of_rest hrest hholder, Option.map_none]
    intro hstage _
    rcases hwait with ⟨wake, hpausing, -⟩ | ⟨-, -, hlt⟩
    · cases hstage.symm.trans hpausing
    · exact hlt
  unfold Watcher.move? at hrest
  rw [Watcher.move?, show w.watch.waiting = w.waiting from rfl,
    show w.watch.holder = w.holder from rfl]
  split at hrest
  · split at hrest
    · cases hrest
    · rename_i hlive
      split at hrest
      · cases hrest
      · rename_i hsome
        exact (if_neg hlive).trans (hholder _ hsome)
  · split at hrest
    · rfl
    · rename_i hsome
      exact hholder _ hsome

/-- At rest the next moment with a move is the same, and lies ahead. -/
theorem due?_watch (hrest : w.move? Keeper.resource = none) :
    w.watch.due? Station.resource = w.due? Keeper.resource ∧
      ∀ due, w.due? Keeper.resource = some due → w.now < due := by
  rw [Watcher.due?, Watcher.due?, show w.watch.holder = w.holder from rfl]
  cases hholder : w.holder with
  | none =>
      refine ⟨rfl, ?_⟩
      rintro _ ⟨⟩
  | some holder =>
      obtain ⟨run, config, stage⟩ := holder
      rcases waits_of_rest hrest hholder with ⟨wake, rfl, hwake⟩ | ⟨rfl, -, hlt⟩
      · refine ⟨rfl, ?_⟩
        rintro _ ⟨⟩
        exact hwake
      · have hstation : Station.resource.act .drive config w.watch.now w.watch.permit
            w.watch.resource = .wait (some w.resource.nextCheck) := if_pos hlt
        have hkeeper : Keeper.resource.act .drive config w.now w.permit w.resource =
            .wait (some w.resource.nextCheck) := if_pos hlt
        dsimp only
        rw [hstation, hkeeper]
        refine ⟨rfl, ?_⟩
        rintro _ ⟨⟩
        exact hlt

/-- Time that passes from rest, up to the next moment with a move. -/
theorem leads_time (hrest : w.move? Keeper.resource = none) {moment : ℕ} (hle : w.now ≤ moment)
    (hdue : ∀ due, w.due? Keeper.resource = some due → moment ≤ due) :
    Watch.Leads w.watch (watch { w with now := moment }) := by
  have hstep : Watch.Step w.watch (.time moment) _ := .time hle
  refine Watch.Leads.single hstep ⟨nofun, ?_⟩
  rintro _ ⟨⟩
  refine ⟨atRest_watch hrest, fun due hwatch => hdue due ?_⟩
  exact (due?_watch hrest).1.symm.trans hwatch

/-- Letting time pass from rest, part by part. -/
theorem leads_advanceUntil (found : Watched → Bool) (limit : ℕ) (w : Watched)
    (hrest : w.move? Keeper.resource = none) :
    Watch.Leads w.watch (watch (w.advanceUntil Keeper.resource found limit).2) := by
  fun_induction Watcher.advanceUntil Keeper.resource found limit w with
  | case1 w hfound => exact .refl _
  | case2 w hfound moment hmoment _ ih =>
      have hahead := (due?_watch hrest).2
      have hbounds := Watcher.nextMoment?_bounds hmoment
      obtain ⟨due, hdue, hmax⟩ := Option.bind_eq_some_iff.mp hmoment
      have hlt := hahead due hdue
      have heq : moment = due := by
        dsimp only at hmax
        split at hmax
        · cases hmax
          omega
        · cases hmax
      have htime := leads_time hrest (Nat.le_of_lt hbounds.1) fun later hlater =>
        Nat.le_of_eq (heq.trans (Option.some.inj (hdue.symm.trans hlater)))
      exact (htime.trans (leads_settle _)).trans (ih (move?_passTo hrest moment))
  | case3 w hfound hmoment =>
      refine leads_time hrest (Nat.le_max_left _ _) fun due hdue => ?_
      have hlt := (due?_watch hrest).2 due hdue
      simp only [Watcher.nextMoment?, hdue, Option.bind_some] at hmoment
      split at hmoment
      · cases hmoment
      · omega

end

/-! ## What is done to a route in one piece -/

/-- One thing that is done to a route in one piece. -/
inductive Piece (w : Watched) : Watched → Prop where
  | start (config : Config) : Piece w (w.start config).2
  | stop : Piece w w.stop.2
  | check (config : Config) : Piece w (w.check config).2
  | output (key command : String) (anew : Bool) : Piece w (w.output key command anew).2
  | shell (shell : Shell) : Piece w (w.withShell shell)
  | settle : Piece w (w.settle Keeper.resource)
  | advance (found : Watched → Bool) (limit : ℕ) : w.move? Keeper.resource = none →
      Piece w (w.advanceUntil Keeper.resource found limit).2

/-- A row of such things. -/
inductive Row : Watched → Watched → Prop where
  | nil (w : Watched) : Row w w
  | snoc {first last next : Watched} : Row first last → Piece last next → Row first next

theorem watch_start (w : Watched) (config : Config) :
    w.watch.start config = (w.start config).map id watch := by
  rw [Watcher.start, Watcher.start, show w.watch.started = w.started from rfl]
  split <;> rfl

theorem watch_stop (w : Watched) : w.watch.stop = w.stop.map id watch := by
  rw [Watcher.stop, Watcher.stop, show w.watch.started = w.started from rfl]
  split <;> rfl

theorem step_start (w : Watched) (config : Config) :
    Watch.Step w.watch (.start config (w.start config).1.isOk) (watch (w.start config).2) := by
  have hstep := Watch.Step.start w.watch config
  rw [watch_start] at hstep
  exact hstep

theorem step_stop (w : Watched) : Watch.Step w.watch (.stop w.stop.1.isOk) (watch w.stop.2) := by
  have hstep := Watch.Step.stop w.watch
  rw [watch_stop] at hstep
  exact hstep

theorem exists_run_of_leads {w next : Watch} (h : w.Leads next) :
    ∃ moments, Watch.Run w moments next ∧ ∀ m ∈ moments, m.Prompt := by
  obtain ⟨moments, hrun, hmoments⟩ := h
  exact ⟨moments, hrun, fun m hm => (hmoments m hm).2⟩

theorem exists_run_single {w next : Watch} {label : Watch.Label} (h : Watch.Step w label next)
    (htime : ∀ moment, label ≠ .time moment) :
    ∃ moments, Watch.Run w moments next ∧ ∀ m ∈ moments, m.Prompt := by
  refine ⟨_, .snoc (.nil w) h, ?_⟩
  intro m hm
  rw [List.mem_singleton.mp hm]
  exact fun moment hlabel => absurd hlabel (htime moment)

theorem Piece.exists_run {w next : Watched} (h : Piece w next) :
    ∃ moments, Watch.Run w.watch moments next.watch ∧ ∀ m ∈ moments, m.Prompt := by
  cases h with
  | start config => exact exists_run_single (w.step_start config) nofun
  | stop => exact exists_run_single w.step_stop nofun
  | check config => exact exists_run_of_leads (w.leads_check config)
  | output key command anew => exact exists_run_of_leads (w.leads_output key command anew)
  | shell shell => exact ⟨[], .nil _, by simp⟩
  | settle => exact exists_run_of_leads w.leads_settle
  | advance found limit hrest => exact exists_run_of_leads (leads_advanceUntil found limit w hrest)

/-- Whatever is done to a route in one piece, it is what happens to a watch, promptly. -/
theorem Row.exists_run {first last : Watched} (h : Row first last) :
    ∃ moments, Watch.Run first.watch moments last.watch ∧ ∀ m ∈ moments, m.Prompt := by
  induction h with
  | nil => exact ⟨[], .nil _, by simp⟩
  | snoc _ hpiece ih =>
      obtain ⟨moments, hrun, hprompt⟩ := ih
      obtain ⟨moments', hrun', hprompt'⟩ := hpiece.exists_run
      refine ⟨_, hrun.trans hrun', ?_⟩
      intro m hm
      rcases List.mem_append.mp hm with hm | hm
      · exact hprompt m hm
      · exact hprompt' m hm

/-- A route that was never started is a watch that was never started. -/
theorem fresh_of (shell : Shell) (retry : ℕ) : Watch.Fresh (of shell retry).watch :=
  ⟨⟨rfl, rfl, rfl, rfl⟩, rfl⟩

end Watched
end Route
end Uplink
