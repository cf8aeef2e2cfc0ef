import FirewallManager.Agent.SnapshotDrift
import FirewallManager.Ufw.ForwardRules

/-!
# Drift of the default policies

The agent compares three things: the hash of the live rule lines with the recorded one, the defaults
of the answer with the cached ones, and the manager's hash of the ruleset with its own. The live
defaults are in none of them. A change of them that leaves the rule lines alone is therefore never
seen as drift, and it lasts until the next new ruleset is applied.

`recorded_of_applyStep` says what an apply writes down, `ufwFirewall_defaults` which defaults it
leaves, and `changed_defaults_restored_iff` when a cycle restores changed defaults.
-/

namespace FirewallManager

/-- The firewall has these defaults. -/
def UfwState.HasDefaults (state : UfwState) (input output : FirewallDefaultPolicy) : Prop :=
  state.incoming = input ∧ state.outgoing = output

instance (state : UfwState) (input output : FirewallDefaultPolicy) :
    Decidable (state.HasDefaults input output) :=
  inferInstanceAs (Decidable (_ ∧ _))

/-- The default policies of a policy set that names both, as an answer carries them. -/
def explicitDefaults (input output : FirewallDefaultPolicy) : LastDefaults :=
  ⟨some input.asStr, some output.asStr⟩

/-- The recorded hash is that of the status text of the firewall. -/
def RecordedAt (sha256 : List UInt8 → List UInt8) (render : UfwState → String)
    (files : AgentFiles) (state : UfwState) : Prop :=
  files.expectedHash = some (snapshotHash sha256 (ufwStatusLines (render state)))

/-- The context in which a plan is applied toward a manager endpoint. -/
def ApplyPlan.context (plan : ApplyPlan) (endpoint : String × UInt16) : ApplyContext :=
  ⟨endpoint.1, endpoint.2, plan.defaults.defaultInputPolicy, plan.defaults.defaultOutputPolicy⟩

section Defaults

variable (text : AddressText)

theorem replayLines_of_runLines {lines : List String} {state final : UfwState}
    (h : runLines text lines state = some final) : replayLines text lines state = final := by
  induction lines generalizing state with
  | nil => exact Option.some.inj h
  | cons line rest ih =>
    rw [runLines_cons] at h
    obtain ⟨command, hcommand, hrest⟩ := Option.bind_eq_some_iff.mp h
    rw [← ih hrest, replayLines, List.filterMap_cons, hcommand]
    rfl

theorem ufwFirewall_defaults {ctx : ApplyContext} {input output : FirewallDefaultPolicy}
    (hinput : ctx.defaultInputPolicy = some input.asStr)
    (houtput : ctx.defaultOutputPolicy = some output.asStr) (rules : List FirewallRule)
    (state : UfwState) : (ufwFirewall text rules ctx state).HasDefaults input output := by
  have hruns (start : UfwState) : runLines text (defaultCommands ctx) start =
      some { start with
        incoming := (some input).getD start.incoming
        outgoing := (some output).getD start.outgoing } :=
    runLines_defaults hinput houtput start
  have hdefaults (start : UfwState) : replayLines text (defaultCommands ctx) start =
      { start with incoming := input, outgoing := output } :=
    replayLines_of_runLines text (hruns start)
  have happend := ufwFirewall_append text [] rules ctx state
  rw [List.nil_append] at happend
  rw [happend, ufwFirewall, ufwCompile_nil, replayLines_append, hdefaults]
  exact ⟨rfl, rfl⟩

theorem InstalledBy.hasDefaults {plan : ApplyPlan} {endpoint : String × UInt16}
    {state : UfwState} {input output : FirewallDefaultPolicy}
    (hplan : plan.defaults = explicitDefaults input output)
    (h : InstalledBy text (plan.commands endpoint) state) : state.HasDefaults input output := by
  obtain ⟨fresh, hfresh, hrun⟩ := h
  have hempty : { fresh with rules := [] } = fresh := by
    rw [← hfresh]
  have hstate : ufwFirewall text plan.rules (plan.context endpoint) fresh = state := by
    rw [ufwFirewall, hempty]
    exact replayLines_of_runLines text hrun
  rw [← hstate]
  exact ufwFirewall_defaults text (congrArg LastDefaults.defaultInputPolicy hplan)
    (congrArg LastDefaults.defaultOutputPolicy hplan) _ _

end Defaults

section Host

variable (text : AddressText) (parseUrl : String → Except String ParsedUrl)
  (sha256 : List UInt8 → List UInt8) (render : UfwState → String) (hostId : Uuid)

theorem ufwSnapshot_render (world : World UfwHost) :
    (ufwSnapshot sha256 (ufwMachine text noFaults render) world).1 =
      .ok ⟨ufwStatusLines (render world.os.state),
        snapshotHash sha256 (ufwStatusLines (render world.os.state))⟩ :=
  ufwSnapshot_of_success sha256 (ufwMachine text noFaults render) rfl

theorem probe_render (world : World UfwHost) :
    (probe (ufwEnv text parseUrl sha256 render hostId) world).1 =
      .ok (snapshotHash sha256 (ufwStatusLines (render world.os.state))) := by
  have hsnapshot := ufwSnapshot_render text sha256 render world
  rcases hpair : ufwSnapshot sha256 (ufwMachine text noFaults render) world with ⟨result, after⟩
  rw [hpair] at hsnapshot
  obtain rfl : result = _ := hsnapshot
  simp only [probe, ufwEnv, ufwBackend, hpair, ufwStatus]

theorem ufwApply_hash_render {commands : List String} {world after : World UfwHost}
    {result : ApplyResult}
    (h : ufwApply sha256 (ufwMachine text noFaults render) ⟨commands⟩ world =
      (.ok result, after)) :
    result.snapshotHash = snapshotHash sha256 (ufwStatusLines (render after.os.state)) := by
  have henableParse : parseUfw text ["--force", "enable"] = some .keep := rfl
  have hstatusParse : parseUfw text ["status", "numbered"] = some .keep := rfl
  obtain ⟨happly, -⟩ := ufwApply_of_enabled sha256 (ufwMachine text noFaults render) ⟨commands⟩
    (ufwForceReset_sound text render world).1 (runCmd_sound text render henableParse
      (ufwForceReset (ufwMachine text noFaults render) world).2).1
  rw [happly, ufwReplay] at h
  dsimp only at h
  obtain ⟨snapshot, hsnapshot⟩ := ufwSnapshot_eq sha256 (ufwMachine text noFaults render)
    (runCmd (ufwMachine text noFaults render) "ufw" ["reload"] (runCommands
      (ufwMachine text noFaults render) commands ⟨0, 0, []⟩
      (enabledWorld (ufwMachine text noFaults render) world)).2).2
  have hrender := (congrArg Prod.fst hsnapshot).symm.trans (ufwSnapshot_render text sha256 render _)
  rw [hsnapshot] at h
  obtain ⟨hresult, hafter⟩ := Prod.mk.inj h
  rw [← Except.ok.inj hresult, ← hafter, (runCmd_sound text render hstatusParse _).2,
    Except.ok.inj hrender]
  rfl

theorem recorded_of_applyStep {drift : Bool} {response : CheckInResponse} {agent : Agent UfwHost}
    {hash : String}
    (h : (applyStep (ufwEnv text parseUrl sha256 render hostId) drift response agent).1 =
      some (.ok hash)) :
    RecordedAt sha256 render
      (applyStep (ufwEnv text parseUrl sha256 render hostId) drift response agent).2.files
      (applyStep (ufwEnv text parseUrl sha256 render hostId) drift response
        agent).2.world.os.state := by
  obtain ⟨plan, hplan, happly, hfiles⟩ := applyStep_ok h
  rw [applyStep_world hplan, hfiles]
  obtain ⟨result, after, hufw⟩ : ∃ result after, ufwApply sha256
      (ufwMachine text noFaults render) (ufwCompile plan.rules (plan.context
        (applyEndpoint (ufwEnv text parseUrl sha256 render hostId) agent.config.managerAgentUrl)))
      agent.world = (.ok result, after) := by
    obtain ⟨-, result, after, -, hufw, -, -⟩ := ufwApply_loop text render sha256 (plan.commands
      (applyEndpoint (ufwEnv text parseUrl sha256 render hostId) agent.config.managerAgentUrl))
      agent.world
    exact ⟨result, after, hufw⟩
  -- An apply that a gate refuses does not succeed.
  have hgates : GatesPass text (ufwMachine text noFaults render) plan.rules
      agent.config.protectedCidrs (plan.context (applyEndpoint
        (ufwEnv text parseUrl sha256 render hostId) agent.config.managerAgentUrl)) agent.world :=
    Classical.byContradiction fun hrefused => by
      obtain ⟨⟨message, herror⟩, -⟩ := applyRules_of_not_gatesPass hrefused
      exact absurd (herror.symm.trans happly) (by simp)
  have hok : (applyRules text (ufwMachine text noFaults render)
      (ufwBackend sha256 (ufwMachine text noFaults render)) plan.rules
      agent.config.protectedCidrs (plan.context (applyEndpoint
        (ufwEnv text parseUrl sha256 render hostId) agent.config.managerAgentUrl))
      agent.toAgentState).1 = .ok hash := happly
  show RecordedAt sha256 render (agent.files.applied plan hash) (applyRules text
    (ufwMachine text noFaults render) (ufwBackend sha256 (ufwMachine text noFaults render))
    plan.rules agent.config.protectedCidrs (plan.context (applyEndpoint
      (ufwEnv text parseUrl sha256 render hostId) agent.config.managerAgentUrl))
    agent.toAgentState).2.world.os.state
  have hlocked : lockedWorld (ufwMachine text noFaults render) agent.world = agent.world := rfl
  rw [applyRules_of_gatesPass hgates, hlocked, applyLocked_ufw hufw] at hok ⊢
  split at hok
  next => cases hok
  next hnone =>
    rw [if_neg hnone, RecordedAt, ← ufwApply_hash_render text sha256 render hufw]
    exact congrArg some (Except.ok.inj hok).symm

end Host

theorem localDrift_of_same {files : AgentFiles} {bytes : List UInt8}
    (h : files.expectedHash = some (Text.hexEncode bytes)) :
    localDrift files (Text.hexEncode bytes) = false := by
  cases bytes with
  | nil =>
    have hload : loadExpectedHash files = none := by
      rw [loadExpectedHash, h]
      rfl
    rw [localDrift, hload]
  | cons byte rest =>
    exact eq_false_of_ne_true fun hdrift =>
      (localDrift_of_recorded files _ (List.cons_ne_nil byte rest) h).mp hdrift rfl

theorem planApply_of_no_drift (files : AgentFiles) (response : CheckInResponse) :
    (NewPolicy files response ∧ planApply files false response = some response.plan) ∨
      (¬ NewPolicy files response ∧ planApply files false response = none) := by
  by_cases hnew : NewPolicy files response
  · exact Or.inl ⟨hnew, if_pos hnew⟩
  · refine Or.inr ⟨hnew, ?_⟩
    unfold NewPolicy at hnew
    rw [planApply, if_neg hnew, if_neg Bool.false_ne_true]

/-- **When changed defaults are restored.** Let an agent with UFW have recorded the firewall of an
apply, and let the live one have the same rule lines, with any defaults. The check-in succeeds, the
answer carries the assigned defaults, the manager endpoint can be read, and the commands of the
planned apply succeed. The cycle sees no drift. At its end the firewall has the assigned defaults if
and only if it had them before, or the answer brings a new policy that passes the protected-CIDR
check. -/
theorem changed_defaults_restored_iff {μ : Type} (text : AddressText)
    (parseUrl : String → Except String ParsedUrl) (sha256 : List UInt8 → List UInt8)
    (render : UfwState → String) (hostId : Uuid) (link : ManagerLink μ) (cycle : CycleInput)
    (linked : Linked UfwHost μ) (applied : UfwState) (input output : FirewallDefaultPolicy)
    (liveHash : String) (response : CheckInResponse) (manager : μ) (endpoint : String × UInt16)
    (hrecorded : RecordedAt sha256 render linked.agent.files applied)
    (hlines : ruleLines (render linked.agent.world.os.state) = ruleLines (render applied))
    (hprobe : (probe (ufwEnv text parseUrl sha256 render hostId) linked.agent.world).1 =
      .ok liveHash)
    (hresponse : link.checkIn (checkInRequest (ufwEnv text parseUrl sha256 render hostId) cycle
      linked.agent (localDrift linked.agent.files liveHash)) linked.manager =
        (some response, manager))
    (hassigned : response.defaults = explicitDefaults input output)
    (hendpoint : managerEndpoint (ufwEnv text parseUrl sha256 render hostId)
      linked.agent.config.managerAgentUrl = .ok endpoint)
    (hcommands : ∀ plan, planApply linked.agent.files (localDrift linked.agent.files liveHash)
      response = some plan → ∀ fresh : UfwState, fresh.rules = [] →
        ∃ final, runLines text (plan.commands endpoint) fresh = some final) :
    (runPullCycle (ufwEnv text parseUrl sha256 render hostId) link cycle linked).1 = .ok false ∧
      ((runPullCycle (ufwEnv text parseUrl sha256 render hostId) link cycle
          linked).2.agent.world.os.state.HasDefaults input output ↔
        linked.agent.world.os.state.HasDefaults input output ∨
          (NewPolicy linked.agent.files response ∧ ∀ rule ∈ response.rules.map dtoToRule,
            ¬ Refused text linked.agent.config.protectedCidrs rule)) := by
  have hdrift : localDrift linked.agent.files liveHash = false := by
    have hlive := Except.ok.inj (hprobe.symm.trans (probe_render _ _ _ _ _ _))
    have hsame := (ufwStatusLines_eq_iff (render linked.agent.world.os.state)
      (render applied)).mpr (by rw [hlines])
    rw [hlive, hsame]
    exact localDrift_of_same hrecorded
  refine ⟨by rw [runPullCycle_of_response hprobe hresponse, hdrift], ?_⟩
  rw [hdrift] at hresponse hcommands
  -- A rollback empties the rules and leaves the defaults.
  have hfinal : (runPullCycle (ufwEnv text parseUrl sha256 render hostId) link cycle
      linked).2.agent.world.os.state.HasDefaults input output ↔
      (applyStep (ufwEnv text parseUrl sha256 render hostId) false response
        ((linked.agent.probed (ufwEnv text parseUrl sha256 render hostId)).settled cycle.now
          response)).2.world.os.state.HasDefaults input output := by
    rw [runPullCycle_state hprobe hdrift hresponse]
    split <;> rfl
  rw [hfinal]
  rcases planApply_of_no_drift linked.agent.files response with ⟨hnew, hplan⟩ | ⟨hquiet, hplan⟩
  · obtain ⟨hinstalled, hkept⟩ := applyStep_cycle_state cycle.now hplan hendpoint
      (hcommands _ hplan)
    by_cases haccepted : ∀ rule ∈ response.rules.map dtoToRule,
        ¬ Refused text linked.agent.config.protectedCidrs rule
    · exact iff_of_true ((hinstalled haccepted).hasDefaults text hassigned)
        (Or.inr ⟨hnew, haccepted⟩)
    · rw [hkept haccepted, or_iff_left fun hall => haccepted hall.2]
  · obtain ⟨hfiles, hstate⟩ := settled_probed_frame text parseUrl sha256 render hostId
      linked.agent cycle.now response
    rw [← hfiles] at hplan
    rw [applyStep_of_no_plan hplan, hstate, or_iff_left fun hall => hquiet hall.1]

/-- A policy set that blocks everything inbound, by a rule and by default. -/
def strictAnswer (changed : Bool) : CheckInResponse where
  rulesChanged := changed
  rules := [wireRule "deny" none]
  config := none
  pendingActions := []
  defaultInputPolicy := some "deny"
  defaultOutputPolicy := some "allow"

/-- The first apply of that set. -/
def strictApply : Option (Except String String) × Agent UfwHost :=
  applyStep countingEnv false (strictAnswer true)
    (soundAgent ⟨[], .allow, .allow⟩ ⟨none, none, none, []⟩ [])

/-- The firewall that it leaves. -/
def strictState : UfwState where
  rules := [umbilicalRule lockdownManager 8443, blankRule .deny]
  incoming := .deny
  outgoing := .allow

/-- The state files that it leaves. -/
def strictFiles : AgentFiles :=
  ⟨some savedRules, some (explicitDefaults .deny .allow), some (snapshotHash id ["rr"]), []⟩

theorem strictApply_eq :
    (strictApply.1, strictApply.2.files, strictApply.2.world.os.state) =
      (some (.ok (snapshotHash id ["rr"])), strictFiles, strictState) := by
  decide +kernel

/-- Afterwards somebody accepts everything inbound by default. -/
def openedAgent : Linked UfwHost Unit where
  agent := soundAgent { strictState with incoming := .allow } strictFiles []
  manager := ()

/-- The next cycle, with the same set or with a changed one. -/
def afterOpening (changed : Bool) : Except String Bool × Linked UfwHost Unit :=
  runPullCycle countingEnv (fixedLink (some (strictAnswer changed)))
    ⟨1000, "0.1.0", "", 1000, none⟩ openedAgent

/-- The set was applied with its defaults, one of them is changed, and the cycle with the same set
neither sees drift nor changes it back. -/
theorem opened_default_stays :
    strictApply.1 = some (.ok (snapshotHash id ["rr"])) ∧
      strictApply.2.world.os.state.HasDefaults .deny .allow ∧
      openedAgent.agent.files = strictApply.2.files ∧
      openedAgent.agent.world.os.state =
        { strictApply.2.world.os.state with incoming := .allow } ∧
      (strictAnswer false).defaults = explicitDefaults .deny .allow ∧
      (afterOpening false).1 = .ok false ∧
      ¬ (afterOpening false).2.agent.world.os.state.HasDefaults .deny .allow := by
  obtain ⟨hok, hrest⟩ := Prod.mk.inj strictApply_eq
  obtain ⟨hfiles, hstate⟩ := Prod.mk.inj hrest
  rw [hok, hfiles, hstate]
  exact ⟨rfl, ⟨rfl, rfl⟩, rfl, rfl, rfl, by decide +kernel, by decide +kernel⟩

/-- The characterisation at a changed ruleset, whose apply restores the default. -/
theorem opened_default_restored :
    (afterOpening true).2.agent.world.os.state.HasDefaults .deny .allow := by
  have hrecorded : RecordedAt id (fun state => "\n\n" ++ String.ofList
      (List.replicate state.rules.length 'r')) strictFiles strictState := by
    obtain ⟨hok, hrest⟩ := Prod.mk.inj strictApply_eq
    obtain ⟨hfiles, hstate⟩ := Prod.mk.inj hrest
    unfold strictApply countingEnv at hok hfiles hstate
    rw [← hfiles, ← hstate]
    exact recorded_of_applyStep dottedText soundEnv.parseUrl id _ ⟨1⟩ hok
  have hprobe : (probe countingEnv openedAgent.agent.world).1 =
      .ok (snapshotHash id ["rr"]) := by
    decide +kernel
  have hlines : (((strictAnswer true).plan.commands ("10.0.0.1", 8443)).mapM
      (commandOfLine dottedText)).isSome = true := by
    decide +kernel
  obtain ⟨commands, hcommands⟩ := Option.isSome_iff_exists.mp hlines
  have hpolicy : ∀ rule ∈ (strictAnswer true).rules.map dtoToRule,
      ¬ Refused dottedText [] rule :=
    checkRules_ok_iff.mp (by decide +kernel)
  have hplan (drift : Bool) : planApply openedAgent.agent.files drift (strictAnswer true) =
      some (strictAnswer true).plan := if_pos ⟨List.cons_ne_nil _ _, rfl⟩
  unfold afterOpening countingEnv
  refine (changed_defaults_restored_iff dottedText soundEnv.parseUrl id _ ⟨1⟩
    (fixedLink (some (strictAnswer true))) ⟨1000, "0.1.0", "", 1000, none⟩ openedAgent
    strictState .deny .allow (snapshotHash id ["rr"]) (strictAnswer true) ()
    ("10.0.0.1", 8443) hrecorded rfl hprobe rfl rfl (by decide +kernel) ?_).2.mpr
    (Or.inr ⟨⟨List.cons_ne_nil _ _, rfl⟩, hpolicy⟩)
  intro plan hplanned fresh _
  obtain rfl := Option.some.inj ((hplan _).symm.trans hplanned)
  exact ⟨commands.foldl UfwState.step fresh, by rw [runLines, hcommands]; rfl⟩

end FirewallManager
