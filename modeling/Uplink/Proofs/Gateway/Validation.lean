import Uplink.Proofs.Gateway.BringUp

/-!
# Nothing before the configuration

A start waits until its checkpoint has found a complete hash, and goes on only if the configurations
of all components can be built.  Until then a gateway reads the hash of its configuration and does
nothing else to the world: the modem is not called, no command is run and no socket is bound.  Only
what an earlier start has left behind may still close the stream to its modem.
-/

namespace Uplink
namespace Gateway

/-- Changes that are not made by the gateway. -/
def Label.IsOutside : Label → Prop
  | .store | .network | .shell | .line => True
  | _ => False

/-- Nothing is done to the world but, at most, that a stream is closed and the hash of the
configuration is read. -/
structure Untouched (before after : Gateway) : Prop where
  line : after.line = before.line ∨ after.line = before.line.disconnect
  shell : after.route.resource.checker.shell = before.route.resource.checker.shell
  network : after.network = before.network
  store : after.store = before.store ∨ after.store =
    { before.store with journal := .readHash before.settings.configKey :: before.store.journal }

/-- The checkpoint finds these fields: every required key is there, and the hash can be converted. -/
def Moment.Finds (m : Moment) (fields : List (String × Json)) : Prop :=
  m.label = .gate .look ∧
    ∃ hash, (m.scene.gateway.store.readHash m.scene.gateway.settings.configKey).1 = .ok hash ∧
      (∀ key ∈ Relay.Config.template.requirements, hash.has key = true) ∧
      Relay.Config.template.toConfig hash = .ok fields

/-- The start goes on with these fields, and all configurations can be built. -/
def Moment.Validates (m : Moment) (fields : List (String × Json)) : Prop :=
  m.label = .conclude ∧
    (∃ earlier, m.scene.gateway.checkpoint.events = .ready fields :: earlier) ∧
    ∃ plan, m.scene.gateway.Plans fields plan

/-! ## What the checkpoint looks for -/

/-- The checkpoint looks for the configuration of the relay. -/
structure Configured (g : Gateway) : Prop where
  key : g.checkpoint.key = g.settings.configKey
  template : g.checkpoint.template = Relay.Config.template
  required : g.checkpoint.required = Relay.Config.template.requirements

/-- The settings stay as they are, and the checkpoint does so too or makes one step. -/
structure Follows (label : Label) (g g' : Gateway) : Prop where
  settings : g'.settings = g.settings
  checkpoint : g'.checkpoint = g.checkpoint ∨
    ∃ label' after, Checkpoint.Step ⟨g.store, g.checkpoint⟩ label' after ∧
      after.checkpoint = g'.checkpoint ∧ (label' = .look → label = .gate .look)

section

variable {s s' first last next : Scene} {g g' : Gateway} {label : Label} {m : Moment}
  {before moments earlier later : List Moment} {fields : List (String × Json)} {failure : Failure}

theorem Follows.of_eq (hsettings : g'.settings = g.settings)
    (hcheckpoint : g'.checkpoint = g.checkpoint) : Follows label g g' :=
  ⟨hsettings, .inl hcheckpoint⟩

theorem Follows.of_start (hsettings : g'.settings = g.settings)
    (hcheckpoint : g'.checkpoint = g.checkpoint.start.2) : Follows label g g' :=
  ⟨hsettings, .inr ⟨_, _, .start ⟨g.store, g.checkpoint⟩, hcheckpoint.symm, nofun⟩⟩

theorem Follows.of_stop (hsettings : g'.settings = g.settings)
    (hcheckpoint : g'.checkpoint = g.checkpoint.stop.2) : Follows label g g' :=
  ⟨hsettings, .inr ⟨_, _, .stop ⟨g.store, g.checkpoint⟩, hcheckpoint.symm, nofun⟩⟩

theorem follows_start (g : Gateway) : Follows label g g.start := by
  unfold Gateway.start
  split
  · exact .of_eq rfl rfl
  · split <;> rename_i hstart <;> exact .of_start rfl (congrArg Prod.snd hstart.symm)

theorem follows_conclude (hidle : g.Idle) : Follows label g (g.conclude fields) := by
  by_cases hlaunches : g.Launches fields
  · obtain ⟨plan, relay, network, hplan, hstart⟩ := hlaunches
    rw [conclude_of_start hidle hplan hstart]
    exact .of_eq rfl rfl
  · obtain ⟨failure, g', hconclude, hg'⟩ := conclude_of_not_launches hidle hlaunches
    have hsame : g'.settings = g.settings ∧ g'.checkpoint = g.checkpoint := by
      rcases hg' with rfl | rfl | ⟨plan, -, rfl⟩ <;> exact ⟨rfl, rfl⟩
    rw [hconclude]
    apply Follows.of_stop
    · exact (settings_stopAll g').trans hsame.1
    · rw [← hsame.2]
      exact checkpoint_stopAll g'

theorem Step.follows (hstep : Step s label next) (h : Sound s) :
    Follows label s.gateway next.gateway := by
  cases hstep with
  | start => exact follows_start s.gateway
  | abandon => exact ⟨rfl, .inr ⟨_, _, .deafen ⟨s.gateway.store, s.gateway.checkpoint⟩, rfl, nofun⟩⟩
  | conclude hawaiting _ => exact follows_conclude (h.idle (.inr hawaiting))
  | shutdown =>
      unfold Scene.withGateway Gateway.shutdown
      split
      · exact .of_stop (settings_stopAll s.gateway) (checkpoint_stopAll s.gateway)
      · exact .of_eq rfl rfl
  | gate hgate _ => exact ⟨rfl, .inr ⟨_, _, hgate, rfl, congrArg Label.gate⟩⟩
  | line =>
      unfold Scene.withGateway Gateway.withLine
      split <;> exact .of_eq rfl rfl
  | time | modem | route | relay | store | network | shell => exact .of_eq rfl rfl

theorem Follows.configured (h : Follows label g g') (hg : Configured g) : Configured g' := by
  have hterms : g.checkpoint.SameTerms g'.checkpoint := by
    rcases h.checkpoint with hsame | ⟨label', after, hstep, hafter, -⟩
    · exact hsame ▸ .refl g.checkpoint
    · exact hafter ▸ hstep.sameTerms
  constructor
  · rw [hterms.key, h.settings, hg.key]
  · exact hterms.template.trans hg.template
  · exact hterms.required.trans hg.required

theorem Fresh.configured (h : Fresh s) : Configured s.gateway := by
  cases h with
  | of => exact ⟨rfl, rfl, rfl⟩

theorem Run.configured (hrun : Run first moments last) (hfresh : Fresh first) :
    Configured last.gateway := by
  induction hrun with
  | nil => exact hfresh.configured
  | snoc hrun hstep ih => exact (hstep.follows (hrun.sound hfresh)).configured ih

/-- What the checkpoint has told it has found, now or before. -/
theorem Step.found (hstep : Step s label next) (h : Sound s) (hconfigured : Configured s.gateway)
    (hmem : .ready fields ∈ next.gateway.checkpoint.events) :
    .ready fields ∈ s.gateway.checkpoint.events ∨ Moment.Finds ⟨s, label, next⟩ fields := by
  rcases (hstep.follows h).checkpoint with hsame | ⟨label', after, hgate, hafter, hlook⟩
  · exact .inl (hsame ▸ hmem)
  · rw [← hafter] at hmem
    rcases hgate.ready_mem hmem with hbefore | ⟨hlabel, hyield⟩
    · exact .inl hbefore
    · obtain ⟨hash, hanswer, hrequired, hfields⟩ := Checkpoint.verdict_eq_ready_iff.mp hyield
      rw [Checkpoint.Scene.answer, hconfigured.key] at hanswer
      rw [hconfigured.required] at hrequired
      rw [hconfigured.template] at hfields
      exact .inr ⟨hlook hlabel, hash, hanswer, hrequired, hfields⟩

/-! ## What is not touched -/

theorem Untouched.refl (g : Gateway) : Untouched g g :=
  ⟨.inl rfl, rfl, rfl, .inl rfl⟩

theorem untouched_reread (g : Gateway) : Untouched g g.reread :=
  ⟨.inl rfl, rfl, rfl, .inr (g.store.readHash_store _)⟩

theorem line_stopAll (g : Gateway) : g.stopAll.line = g.line := by
  rw [line, line, modem_stopAll, transport_stopAll]
  cases g.modem with
  | none => rfl
  | some modem => exact congrArg Modem.Session.transport (Watcher.resource_stop modem)

/-- To stop a gateway without a relay touches nothing. -/
theorem Untouched.stopAll (h : Untouched g g') (hrelay : g'.relay = none) :
    Untouched g g'.stopAll := by
  have hroute : g'.stopAll.route.resource = g'.route.resource := by
    rw [route_stopAll, Watcher.resource_stop]
  constructor
  · rw [line_stopAll]
    exact h.line
  · rw [hroute]
    exact h.shell
  · rw [network_stopAll hrelay]
    exact h.network
  · rw [store_stopAll]
    exact h.store

theorem Untouched.withdrawn (h : Untouched g g') (hrelay : g'.relay = none) :
    Untouched g (g'.withdrawn failure) := by
  have hstop := h.stopAll hrelay
  exact ⟨hstop.line, hstop.shell, hstop.network, hstop.store⟩

theorem untouched_start (g : Gateway) : Untouched g g.start := by
  unfold Gateway.start
  split
  · exact ⟨.inl rfl, rfl, rfl, .inl rfl⟩
  · split <;> exact ⟨.inl rfl, rfl, rfl, .inl rfl⟩

/-- Where no configurations can be built, the end of a start touches nothing, and nothing works
afterwards. -/
theorem conclude_untouched (hidle : g.Idle) (h : ∀ plan, ¬ g.Plans fields plan) :
    Untouched g (g.conclude fields) ∧ (g.conclude fields).Idle := by
  obtain ⟨failure, hbring | hbring⟩ := bringUp_of_not_plans h
  · rw [conclude_of_error hbring]
    exact ⟨(Untouched.refl g).withdrawn hidle.relay, (idle_stopAll g).of_same rfl rfl rfl⟩
  · rw [conclude_of_error hbring]
    exact ⟨(untouched_reread g).withdrawn hidle.relay, (idle_stopAll g.reread).of_same rfl rfl rfl⟩

/-- The checkpoint reads the hash of the configuration when it looks, and nothing else. -/
theorem untouched_gate {label : Checkpoint.Label} {next : Checkpoint.Scene}
    (h : Checkpoint.Step ⟨g.store, g.checkpoint⟩ label next) (hown : label.IsOwn)
    (hkey : g.checkpoint.key = g.settings.configKey) :
    Untouched g { g with store := next.store, checkpoint := next.checkpoint } := by
  refine ⟨.inl rfl, rfl, rfl, ?_⟩
  cases h with
  | look =>
      right
      rw [← hkey]
      exact (congrArg Prod.fst (Checkpoint.look_eq ⟨g.store, g.checkpoint⟩)).trans
        (g.store.readHash_store g.checkpoint.key)
  | requestCheck | wake | time => exact .inl rfl
  | start | stop | deafen | surroundings => exact hown.elim

/-- The modem that was left behind closes its stream, at most. -/
theorem transport_of_letGo {session next : Modem.Session}
    (h : Watcher.LetGo Modem.Session.resource session next) :
    next.transport = session.transport ∨ next.transport = session.transport.disconnect := by
  cases h with
  | nothing | enter => exact .inl rfl
  | work hact => cases hact
  | finish hact =>
      cases hact
      exact .inr rfl

/-- The route that was left behind runs no command. -/
theorem eq_of_letGo {keeper next : Route.Keeper}
    (h : Watcher.LetGo Route.Keeper.resource keeper next) : next = keeper := by
  cases h with
  | nothing | enter => rfl
  | work hact => cases hact
  | finish hact =>
      cases hact
      rfl

/-! ## Until the configuration is validated -/

/-- As long as nothing is validated, nothing starts to work and nothing is touched but by others. -/
theorem Step.untouched (hstep : Step s label next) (hsound : Sound s)
    (hconfigured : Configured s.gateway) (hidle : s.gateway.Idle)
    (hnot : ∀ fields, ¬ Moment.Validates ⟨s, label, next⟩ fields) :
    next.gateway.Idle ∧ (label.IsOutside ∨ Untouched s.gateway next.gateway) := by
  cases hstep with
  | start =>
      refine ⟨?_, .inr (untouched_start s.gateway)⟩
      unfold Scene.withGateway Gateway.start
      split
      · exact hidle.of_same rfl rfl rfl
      · split <;> exact hidle.of_same rfl rfl rfl
  | abandon => exact ⟨hidle.of_same rfl rfl rfl, .inr ⟨.inl rfl, rfl, rfl, .inl rfl⟩⟩
  | @conclude fields _ hawaiting hevents =>
      have hplans : ∀ plan, ¬ s.gateway.Plans fields plan :=
        fun plan hplan => hnot fields ⟨rfl, ⟨_, hevents⟩, plan, hplan⟩
      obtain ⟨huntouched, hafter⟩ := conclude_untouched hidle hplans
      exact ⟨hafter, .inr huntouched⟩
  | shutdown =>
      unfold Scene.withGateway Gateway.shutdown
      split
      · exact ⟨idle_stopAll s.gateway, .inr ((Untouched.refl s.gateway).stopAll hidle.relay)⟩
      · exact ⟨hidle, .inr (.refl s.gateway)⟩
  | time => exact ⟨hidle.of_same rfl rfl rfl, .inr ⟨.inl rfl, rfl, rfl, .inl rfl⟩⟩
  | gate hgate hown =>
      exact ⟨hidle.of_same rfl rfl rfl, .inr (untouched_gate hgate hown hconfigured.key)⟩
  | @modem _ modem next hsome hmodem hown =>
      -- the modem is that of an earlier start, and was stopped with it
      have htied := hsound.modem modem hsome
      have hstopped := hidle.modem modem hsome
      constructor
      · refine ⟨?_, hidle.route, hidle.relay⟩
        rintro _ ⟨⟩
        exact (hmodem.started_eq hown htied).2.trans hstopped
      · have hline : s.gateway.line = modem.resource.transport := by
          rw [Gateway.line, hsome]
        have htransport := transport_of_letGo (hmodem.letGo hown htied hstopped)
        rw [← hline] at htransport
        exact .inr ⟨htransport, rfl, rfl, .inl rfl⟩
  | route hroute hown =>
      constructor
      · exact ⟨hidle.modem, (hroute.started_eq hown hsound.route).2.trans hidle.route, hidle.relay⟩
      · have hkeeper := eq_of_letGo (hroute.letGo hown hsound.route hidle.route)
        exact .inr ⟨.inl rfl, by rw [Scene.withGateway, hkeeper], rfl, .inl rfl⟩
  | relay _ hsome _ => cases hidle.relay.symm.trans hsome
  | store | network => exact ⟨hidle.of_same rfl rfl rfl, .inl trivial⟩
  | shell => exact ⟨⟨hidle.modem, hidle.route, hidle.relay⟩, .inl trivial⟩
  | line =>
      refine ⟨?_, .inl trivial⟩
      unfold Scene.withGateway Gateway.withLine
      split
      · rename_i modem hsome
        refine ⟨?_, hidle.route, hidle.relay⟩
        rintro _ ⟨⟩
        exact hidle.modem modem hsome
      · exact hidle.of_same rfl rfl rfl

/-- What is so as long as nothing was validated since the start. -/
structure Waiting (moments : List Moment) (s : Scene) : Prop where
  sound : Sound s
  configured : Configured s.gateway
  idle : s.gateway.Idle
  found : ∀ fields, .ready fields ∈ s.gateway.checkpoint.events → ∃ m ∈ moments, m.Finds fields

theorem Waiting.of_start (hsound : Sound s) (hconfigured : Configured s.gateway)
    (hstopped : s.gateway.started = false) (hstep : Step s .start s') : Waiting [] s' := by
  have hidle := hsound.idle (.inl hstopped)
  obtain ⟨hafter, -⟩ := hstep.untouched hsound hconfigured hidle nofun
  refine ⟨hstep.sound hsound, (hstep.follows hsound).configured hconfigured, hafter, ?_⟩
  intro fields hmem
  cases hstep with
  | start =>
      have hevents : s.gateway.start.checkpoint.events = [] := by
        rw [Gateway.start, hstopped, Checkpoint.start_of_not_started hstopped]
        rfl
      rw [Scene.withGateway, hevents] at hmem
      cases hmem

theorem Waiting.step (h : Waiting moments s) (hstep : Step s label next)
    (hnot : ∀ fields, ¬ Moment.Validates ⟨s, label, next⟩ fields) :
    Waiting (moments ++ [⟨s, label, next⟩]) next where
  sound := hstep.sound h.sound
  configured := (hstep.follows h.sound).configured h.configured
  idle := (hstep.untouched h.sound h.configured h.idle hnot).1
  found fields hmem := by
    rcases hstep.found h.sound h.configured hmem with hbefore | hfinds
    · obtain ⟨m, hm, hfinds⟩ := h.found fields hbefore
      exact ⟨m, List.mem_append_left _ hm, hfinds⟩
    · exact ⟨_, List.mem_append_right _ List.mem_cons_self, hfinds⟩

theorem Waiting.run (h : Waiting [] s) (hrun : Run s moments last)
    (hnot : ∀ m ∈ moments, ∀ fields, ¬ m.Validates fields) : Waiting moments last := by
  induction hrun with
  | nil => exact h
  | snoc _ hstep ih =>
      have hbefore := ih fun m hm => hnot m (List.mem_append_left _ hm)
      exact hbefore.step hstep (hnot _ (List.mem_append_right _ List.mem_cons_self))

/-- Whatever came before a start, and whatever the store holds while it waits: until it goes on with
fields of which all configurations can be built, nothing is touched but by others.  The fields are
those that the checkpoint has found since the start in a hash with all required keys. -/
theorem Run.touches_nothing (hfresh : Fresh first) (hbefore : Run first before s)
    (hstopped : s.gateway.started = false) (hstart : Step s .start s')
    (hrun : Run s' moments last) :
    Untouched s.gateway s'.gateway ∧
    ∀ earlier m later, moments = earlier ++ m :: later →
      (∀ m' ∈ earlier, ∀ fields, ¬ m'.Validates fields) →
        m.label.IsOutside ∨ Untouched m.scene.gateway m.next.gateway ∨
          ∃ fields, m.Validates fields ∧ ∃ look ∈ earlier, look.Finds fields := by
  have hsound := hbefore.sound hfresh
  have hconfigured := hbefore.configured hfresh
  have hwaiting := Waiting.of_start hsound hconfigured hstopped hstart
  constructor
  · cases hstart with
    | start => exact untouched_start s.gateway
  · rintro earlier m later rfl hnot
    obtain ⟨hearlier, hstep⟩ := hrun.split
    have hstill := hwaiting.run hearlier hnot
    -- what was told so far was found so far, so only the moment itself is left to look at
    by_cases hvalidates : ∃ fields, m.Validates fields
    · obtain ⟨fields, hvalidates⟩ := hvalidates
      obtain ⟨events, hevents⟩ := hvalidates.2.1
      have htold : .ready fields ∈ m.scene.gateway.checkpoint.events := by
        rw [hevents]
        exact List.mem_cons_self
      exact .inr (.inr ⟨fields, hvalidates, hstill.found fields htold⟩)
    · have hnone : ∀ fields, ¬ Moment.Validates ⟨m.scene, m.label, m.next⟩ fields :=
        fun fields hfields => hvalidates ⟨fields, hfields⟩
      have htouch := (hstep.untouched hstill.sound hstill.configured hstill.idle hnone).2
      exact htouch.imp_right .inl

end

/-! ## A start that fails -/

/-- A gateway without a configuration. -/
def bareScene : Scene :=
  ⟨.of {} {} {} .isolated none, []⟩

/-- The checkpoint is to look for the first time. -/
def bareStart : Scene :=
  bareScene.withGateway bareScene.gateway.start

/-- Somebody has written an identity, and nothing else. -/
def identityScene : Scene :=
  bareStart.looked.withGateway
    { bareStart.looked.gateway with
      store := bareStart.looked.gateway.store.seed Store.configKey
        [("gateway:imei", "490154203237518")] }

/-- The checkpoint was asked to look at once. -/
def askedScene : Scene :=
  identityScene.withGateway
    { identityScene.gateway with checkpoint := identityScene.gateway.checkpoint.requestCheck }

/-- The checkpoint is to look again. -/
def wokenScene : Scene :=
  askedScene.withGateway
    { askedScene.gateway with
      checkpoint :=
        (askedScene.gateway.checkpoint.awake? .request).getD askedScene.gateway.checkpoint }

/-- The start goes on with the identity alone. -/
def identityFields : List (String × Json) :=
  ((Relay.Config.template.toConfig
    (Keyed.ofList [("gateway:imei", "490154203237518")])).toOption).getD []

/-- What happens until the checkpoint has found the identity. -/
def bareMoments : List Moment :=
  [⟨bareStart, .gate .look, bareStart.looked⟩, ⟨bareStart.looked, .store, identityScene⟩,
    ⟨identityScene, .gate .requestCheck, askedScene⟩,
    ⟨askedScene, .gate (.wake .request), wokenScene⟩,
    ⟨wokenScene, .gate .look, wokenScene.looked⟩]

theorem run_bareMoments : Run bareStart bareMoments wokenScene.looked := by
  have hlook : Step bareStart (.gate .look) bareStart.looked := .looked rfl
  have hask : Step identityScene (.gate .requestCheck) askedScene :=
    .gate (.requestCheck ⟨identityScene.gateway.store, identityScene.gateway.checkpoint⟩) trivial
  have hwake : Step askedScene (.gate (.wake .request)) wokenScene := .gate (.wake rfl) trivial
  have hidentity : Step bareStart.looked .store identityScene := .store bareStart.looked _
  exact ((((Run.single hlook).snoc hidentity).snoc hask).snoc hwake).snoc (.looked rfl)

/-- The second look finds all that is required; the hosts are missing, and nothing is touched. -/
theorem Run.touches_nothing_bareScene :
    Untouched wokenScene.looked.gateway (wokenScene.looked.gateway.conclude identityFields) := by
  have hfresh : Fresh bareScene := .of _ _ _ _ _
  have hstart : Step bareScene .start bareStart := .start rfl
  have hend := run_bareMoments.snoc (.conclude (s := wokenScene.looked) rfl rfl)
  have hnot : ∀ m ∈ bareMoments, ∀ fields, ¬ m.Validates fields := by
    intro m hm fields hvalidates
    have hlabel := hvalidates.1
    simp only [bareMoments, List.mem_cons, List.not_mem_nil, or_false] at hm
    rcases hm with rfl | rfl | rfl | rfl | rfl <;> cases hlabel
  obtain ⟨-, htouch⟩ := Run.touches_nothing hfresh (.nil bareScene) rfl hstart hend
  rcases htouch bareMoments _ [] rfl hnot with houtside | huntouched | ⟨fields, hvalidates, -⟩
  · exact houtside.elim
  · exact huntouched
  · obtain ⟨-, ⟨_, hevents⟩, plan, hplan⟩ := hvalidates
    have hfields : wokenScene.looked.gateway.checkpoint.events =
        [.ready identityFields, .retry] := rfl
    cases hfields.symm.trans hevents
    have hnone : Relay.Config.ofJson? (.object identityFields) = none := rfl
    cases hnone.symm.trans hplan.relay

end Gateway
end Uplink
