import FirewallManager.Agent.ReplayCache
import FirewallManager.Agent.SafeMode

/-!
# Self-healing

A cycle that finds a local drift applies something: the ruleset of the answer if that is new, and
the saved one otherwise. If the new ruleset is refused, nothing else is tried. A pending rollback
comes after the apply and resets the firewall.

The host is UFW on an arbitrary firewall state, and no process fails. `ufwApply_sound` is the effect
of an apply there, `handleActions_state` that of the pending actions, and `drift_healed_iff` says
when a cycle with drift ends with a compiled ruleset.
-/

namespace FirewallManager

/-- No process fails. -/
def noFaults : Faults where
  fails := fun _ _ => false
  stderr := fun _ => ""
  removes := fun _ => true

/-- An agent with UFW on a host where no process fails. The status text is arbitrary. -/
def ufwEnv (text : AddressText) (parseUrl : String → Except String ParsedUrl)
    (sha256 : List UInt8 → List UInt8) (render : UfwState → String) (hostId : Uuid) :
    AgentEnv UfwHost where
  text := text
  parseUrl := parseUrl
  sha256 := sha256
  machine := ufwMachine text noFaults render
  backend := ufwBackend sha256 (ufwMachine text noFaults render)
  hostId := hostId

/-- The firewall is what the commands leave of one without rules. -/
def InstalledBy (text : AddressText) (commands : List String) (state : UfwState) : Prop :=
  ∃ fresh : UfwState, fresh.rules = [] ∧ runLines text commands fresh = some state

section Host

variable (text : AddressText) (render : UfwState → String) (sha256 : List UInt8 → List UInt8)

/-- A process that UFW understands succeeds and does what it says. -/
theorem runCmd_sound {args : List String} {command : UfwCommand}
    (h : parseUfw text args = some command) (world : World UfwHost) :
    (runCmd (ufwMachine text noFaults render) "ufw" args world).1.success = true ∧
      (runCmd (ufwMachine text noFaults render) "ufw" args world).2.os.state =
        world.os.state.step command := by
  have hcommand : noFaults.command text "ufw" args world.os = some command := by
    rw [Faults.command, if_pos ⟨rfl, rfl⟩, h]
  simp only [runCmd, ufwMachine, hcommand, and_self]

/-- Lines that all run are counted as applied, and the firewall follows them. -/
theorem runCommands_sound {commands : List String} {world : World UfwHost} {final : UfwState}
    (h : runLines text commands world.os.state = some final) (tally : Tally) :
    (runCommands (ufwMachine text noFaults render) commands tally world).1.failed =
        tally.failed ∧
      (runCommands (ufwMachine text noFaults render) commands tally world).2.os.state = final := by
  induction commands generalizing tally world with
  | nil => exact ⟨rfl, Option.some.inj h⟩
  | cons line rest ih =>
    rw [runLines_cons] at h
    obtain ⟨command, hcommand, hrest⟩ := Option.bind_eq_some_iff.mp h
    obtain ⟨args, hsplit, hparse⟩ := split_of_commandOfLine text hcommand
    obtain ⟨hsuccess, hstate⟩ := runCmd_sound text render hparse world
    have hrun : runCommand (ufwMachine text noFaults render) line world =
        (none, (runCmd (ufwMachine text noFaults render) "ufw" args world).2) := by
      simp only [runCommand, hsplit, hsuccess, if_true]
    rw [runCommands_cons, hrun]
    rw [← hstate] at hrest
    exact ih hrest (tally.note none)

theorem ufwForceReset_sound (world : World UfwHost) :
    (ufwForceReset (ufwMachine text noFaults render) world).1.success = true ∧
      (ufwForceReset (ufwMachine text noFaults render) world).2.os.state =
        { world.os.state with rules := [] } := by
  have hparse : parseUfw text ["--force", "reset"] = some .reset := rfl
  have hreset := runCmd_sound text render hparse world
  rw [ufwForceReset_of_success _ hreset.1]
  exact hreset

/-- An apply is the loop over the commands on the emptied firewall. -/
theorem ufwApply_loop (commands : List String) (world : World UfwHost) :
    ∃ start result after, start.os.state = { world.os.state with rules := [] } ∧
      ufwApply sha256 (ufwMachine text noFaults render) ⟨commands⟩ world = (.ok result, after) ∧
      result.failed = (runCommands (ufwMachine text noFaults render) commands ⟨0, 0, []⟩
        start).1.failed ∧
      after.os.state = (runCommands (ufwMachine text noFaults render) commands ⟨0, 0, []⟩
        start).2.os.state := by
  have henableParse : parseUfw text ["--force", "enable"] = some .keep := rfl
  have hreloadParse : parseUfw text ["reload"] = some .keep := rfl
  have hstatusParse : parseUfw text ["status", "numbered"] = some .keep := rfl
  obtain ⟨hreset, hempty⟩ := ufwForceReset_sound text render world
  obtain ⟨henable, hkept⟩ := runCmd_sound text render henableParse
    (ufwForceReset (ufwMachine text noFaults render) world).2
  obtain ⟨happly, -⟩ := ufwApply_of_enabled sha256 (ufwMachine text noFaults render) ⟨commands⟩
    hreset henable
  obtain ⟨hash, hreplay⟩ := ufwReplay_eq sha256 (ufwMachine text noFaults render) ⟨commands⟩
    (enabledWorld (ufwMachine text noFaults render) world)
  refine ⟨enabledWorld (ufwMachine text noFaults render) world, _, _, hkept.trans hempty,
    happly.trans hreplay, rfl, ?_⟩
  rw [replayedWorld, (runCmd_sound text render hstatusParse _).2, UfwState.step,
    (runCmd_sound text render hreloadParse _).2, UfwState.step]

theorem ufwApply_sound {commands : List String} {world : World UfwHost} {final : UfwState}
    (h : runLines text commands { world.os.state with rules := [] } = some final) :
    ∃ result after, ufwApply sha256 (ufwMachine text noFaults render) ⟨commands⟩ world =
      (.ok result, after) ∧ result.failed = 0 ∧ after.os.state = final := by
  obtain ⟨start, result, after, hstart, happly, hfailed, hafter⟩ :=
    ufwApply_loop text render sha256 commands world
  rw [← hstart] at h
  obtain ⟨hnone, hfinal⟩ := runCommands_sound text render h ⟨0, 0, []⟩
  exact ⟨result, after, happly, hfailed.trans hnone, hafter.trans hfinal⟩

/-- A probe answers and leaves the firewall as it is. -/
theorem probe_sound (parseUrl : String → Except String ParsedUrl) (hostId : Uuid)
    (world : World UfwHost) :
    ∃ liveHash, (probe (ufwEnv text parseUrl sha256 render hostId) world).1 = .ok liveHash ∧
      (probedWorld (ufwEnv text parseUrl sha256 render hostId) world).os.state =
        world.os.state := by
  have hnumbered : parseUfw text ["status", "numbered"] = some .keep := rfl
  have hverbose : parseUfw text ["status", "verbose"] = some .keep := rfl
  obtain ⟨snapshot, hsnapshot⟩ :=
    ufwSnapshot_eq sha256 (ufwMachine text noFaults render) world
  have hprobe : probe (ufwEnv text parseUrl sha256 render hostId) world =
      (.ok snapshot.hash, (runCmd (ufwMachine text noFaults render) "ufw" ["status", "verbose"]
        (runCmd (ufwMachine text noFaults render) "ufw" ["status", "numbered"] world).2).2) := by
    simp only [probe, ufwEnv, ufwBackend, hsnapshot, ufwStatus]
  refine ⟨snapshot.hash, by rw [hprobe], ?_⟩
  rw [probedWorld, hprobe, (runCmd_sound text render hverbose _).2, UfwState.step,
    (runCmd_sound text render hnumbered _).2, UfwState.step]

end Host

/-- The agent can run the action. -/
def knownAction (actionType : String) : Bool :=
  ["rollback", "safe_mode_on", "safe_mode_off", "reload_config", "agent_upgrade",
    "apply_rules"].contains actionType

/-- One of the actions is a rollback that is run: it is not in the replay cache when its turn
comes. -/
def runsRollback : AgentFiles → List PendingActionDto → Bool
  | _, [] => false
  | files, action :: rest =>
    if alreadyExecuted files action.id then runsRollback files rest
    else
      action.actionType == "rollback" ||
        runsRollback
          (if knownAction action.actionType then recordExecuted files action.id else files) rest

/-- An action other than a rollback succeeds if it is known, and leaves the host as it is. -/
theorem executePendingAction_of_other {σ : Type} {env : AgentEnv σ} {action : PendingActionDto}
    (h : action.actionType ≠ "rollback") (world : World σ) :
    (executePendingAction env action world).1.1 = knownAction action.actionType ∧
      (executePendingAction env action world).2 = world := by
  unfold executePendingAction
  split
  next hrollback => exact absurd hrollback h
  next htype => simp [htype, knownAction]
  next htype => simp [htype, knownAction]
  next htype => simp [htype, knownAction]
  next htype => simp [htype, knownAction]
  next htype => simp [htype, knownAction]
  next other hrollback hon hoff hreload hupgrade hrules =>
    have hunknown : knownAction action.actionType = false := by
      simpa [knownAction] using ⟨hrollback, hon, hoff, hreload, hupgrade, hrules⟩
    exact ⟨hunknown.symm, rfl⟩

section Actions

variable {μ : Type} (text : AddressText) (parseUrl : String → Except String ParsedUrl)
  (sha256 : List UInt8 → List UInt8) (render : UfwState → String) (hostId : Uuid)

theorem executePendingAction_sound (action : PendingActionDto) (world : World UfwHost) :
    (executePendingAction (ufwEnv text parseUrl sha256 render hostId) action world).1.1 =
        knownAction action.actionType ∧
      (executePendingAction (ufwEnv text parseUrl sha256 render hostId) action world).2.os.state =
        if action.actionType == "rollback" then { world.os.state with rules := [] }
        else world.os.state := by
  obtain ⟨hsuccess, hstate⟩ := ufwForceReset_sound text render world
  have hreset : (ufwEnv text parseUrl sha256 render hostId).backend.reset world =
      (.ok (), (ufwForceReset (ufwMachine text noFaults render) world).2) := by
    simp only [ufwEnv, ufwBackend, ufwReset, hsuccess, if_true]
  by_cases hrollback : action.actionType = "rollback"
  · simp only [executePendingAction, hrollback, hreset]
    exact ⟨rfl, hstate⟩
  · obtain ⟨hknown, hworld⟩ := executePendingAction_of_other
      hrollback world
    rw [hknown, hworld, if_neg (by simpa using hrollback)]
    exact ⟨rfl, rfl⟩

theorem handleAction_sound (link : ManagerLink μ) (liveHash : String) (linked : Linked UfwHost μ)
    {action : PendingActionDto} (h : ¬ alreadyExecuted linked.agent.files action.id = true) :
    (handleAction (ufwEnv text parseUrl sha256 render hostId) link liveHash linked
        action).agent.files =
        (if knownAction action.actionType then recordExecuted linked.agent.files action.id
        else linked.agent.files) ∧
      (handleAction (ufwEnv text parseUrl sha256 render hostId) link liveHash linked
        action).agent.world.os.state =
        if action.actionType == "rollback" then { linked.agent.world.os.state with rules := [] }
        else linked.agent.world.os.state := by
  obtain ⟨hsuccess, hstate⟩ := executePendingAction_sound text parseUrl sha256 render hostId
    action linked.agent.world
  rw [handleAction, if_neg h, ← hsuccess, ← hstate]
  exact ⟨rfl, rfl⟩

theorem handleActions_state (link : ManagerLink μ) (liveHash : String)
    (actions : List PendingActionDto) (linked : Linked UfwHost μ) :
    (actions.foldl (handleAction (ufwEnv text parseUrl sha256 render hostId) link liveHash)
        linked).agent.world.os.state =
      if runsRollback linked.agent.files actions then
        { linked.agent.world.os.state with rules := [] }
      else linked.agent.world.os.state := by
  induction actions generalizing linked with
  | nil => rfl
  | cons action rest ih =>
    rw [List.foldl_cons, ih, runsRollback]
    by_cases hexecuted : alreadyExecuted linked.agent.files action.id = true
    · rw [if_pos hexecuted, handleAction, if_pos hexecuted]
    · obtain ⟨hfiles, hstate⟩ := handleAction_sound text parseUrl sha256 render hostId link
        liveHash linked hexecuted
      rw [if_neg hexecuted, hfiles, hstate]
      -- Whether it is emptied once or twice, the firewall is empty in the end.
      cases action.actionType == "rollback" <;> simp

end Actions

theorem runsRollback_congr {files other : AgentFiles}
    (h : files.executedActions = other.executedActions) (actions : List PendingActionDto) :
    runsRollback files actions = runsRollback other actions := by
  induction actions generalizing files other with
  | nil => rfl
  | cons action rest ih =>
    have hexecuted : alreadyExecuted files action.id = alreadyExecuted other action.id := by
      rw [alreadyExecuted, h, alreadyExecuted]
    have hrecorded : (recordExecuted files action.id).executedActions =
        (recordExecuted other action.id).executedActions := by
      rw [recordExecuted, recordExecuted, h]
    rw [runsRollback, runsRollback, hexecuted]
    cases knownAction action.actionType with
    | true => simp only [if_true, ih h, ih hrecorded]
    | false => simp only [Bool.false_eq_true, if_false, ih h]

/-- The command lines of a plan toward a manager endpoint. -/
def ApplyPlan.commands (plan : ApplyPlan) (endpoint : String × UInt16) : List String :=
  (ufwCompile plan.rules ⟨endpoint.1, endpoint.2, plan.defaults.defaultInputPolicy,
    plan.defaults.defaultOutputPolicy⟩).commands

/-- The ruleset of an answer, under its defaults. -/
def CheckInResponse.plan (response : CheckInResponse) : ApplyPlan :=
  ⟨response.rules.map dtoToRule, response.defaults⟩

/-- The answer brings a policy to apply. -/
def NewPolicy (files : AgentFiles) (response : CheckInResponse) : Prop :=
  response.rules ≠ [] ∧ (response.rulesChanged || defaultsChanged files response) = true

/-- The firewall is the compilation of the ruleset of the answer, or of the saved one. -/
def Healed (text : AddressText) (endpoint : String × UInt16) (files : AgentFiles)
    (saved : List FirewallRule) (response : CheckInResponse) (state : UfwState) : Prop :=
  InstalledBy text (response.plan.commands endpoint) state ∨
    InstalledBy text (ApplyPlan.commands ⟨saved, cachedDefaults files⟩ endpoint) state

theorem planApply_of_drift {files : AgentFiles} {saved : List FirewallRule}
    (hsaved : files.lastGood = some saved) (hne : saved ≠ []) (response : CheckInResponse) :
    (NewPolicy files response ∧ planApply files true response = some response.plan) ∨
      (¬ NewPolicy files response ∧
        planApply files true response = some ⟨saved, cachedDefaults files⟩) := by
  by_cases hnew : NewPolicy files response
  · exact Or.inl ⟨hnew, if_pos hnew⟩
  · refine Or.inr ⟨hnew, ?_⟩
    cases saved with
    | nil => exact absurd rfl hne
    | cons rule rules =>
      unfold NewPolicy at hnew
      rw [planApply, if_neg hnew, if_pos rfl, hsaved]

section Heal

variable {text : AddressText} {parseUrl : String → Except String ParsedUrl}
  {sha256 : List UInt8 → List UInt8} {render : UfwState → String} {hostId : Uuid}

variable {endpoint : String × UInt16}

theorem InstalledBy.rules_ne_nil {plan : ApplyPlan} {state : UfwState}
    (hspecific : managerIpSpecific text endpoint.1 = true)
    (h : InstalledBy text (plan.commands endpoint) state) : state.rules ≠ [] := by
  obtain ⟨fresh, hfresh, hrun⟩ := h
  obtain ⟨ip, hip, -⟩ := managerIpSpecific_iff.mp hspecific
  obtain ⟨without, -, rfl⟩ := runLines_ufwCompile hip hfresh hrun
  exact List.cons_ne_nil _ _

variable {response : CheckInResponse}

theorem applyStep_state {drift : Bool} {agent : Agent UfwHost} {plan : ApplyPlan}
    (hplan : planApply agent.files drift response = some plan)
    (hendpoint : managerEndpoint (ufwEnv text parseUrl sha256 render hostId)
      agent.config.managerAgentUrl = .ok endpoint)
    (hcommands : ∀ fresh : UfwState, fresh.rules = [] →
      ∃ final, runLines text (plan.commands endpoint) fresh = some final) :
    ((∀ rule ∈ plan.rules, ¬ Refused text agent.config.protectedCidrs rule) →
        InstalledBy text (plan.commands endpoint) (applyStep
          (ufwEnv text parseUrl sha256 render hostId) drift response agent).2.world.os.state) ∧
      ((¬ ∀ rule ∈ plan.rules, ¬ Refused text agent.config.protectedCidrs rule) →
        (applyStep (ufwEnv text parseUrl sha256 render hostId) drift response
          agent).2.world.os.state = agent.world.os.state) := by
  have happlyEndpoint : applyEndpoint (ufwEnv text parseUrl sha256 render hostId)
      agent.config.managerAgentUrl = endpoint := by
    rw [applyEndpoint, hendpoint]
  have hworld : (applyStep (ufwEnv text parseUrl sha256 render hostId) drift response
      agent).2.world = (agent.apply (ufwEnv text parseUrl sha256 render hostId) endpoint
        plan).2.world := by
    rw [applyStep_world hplan, happlyEndpoint]
  rw [hworld]
  constructor
  · intro haccepted
    obtain ⟨final, hrun⟩ := hcommands { agent.world.os.state with rules := [] } rfl
    have hgates : GatesPass text (ufwMachine text noFaults render) plan.rules
        agent.config.protectedCidrs ⟨endpoint.1, endpoint.2, plan.defaults.defaultInputPolicy,
          plan.defaults.defaultOutputPolicy⟩ agent.world :=
      ⟨haccepted, managerIpSpecific_of_endpoint hendpoint, rfl⟩
    have hlocked : lockedWorld (ufwMachine text noFaults render) agent.world = agent.world := rfl
    obtain ⟨result, after, happly, hfailed, hfinal⟩ :=
      ufwApply_sound text render sha256 hrun
    refine ⟨{ agent.world.os.state with rules := [] }, rfl, ?_⟩
    rw [hrun, Option.some.injEq, ← hfinal]
    show after.os.state = (applyRules text (ufwMachine text noFaults render)
      (ufwBackend sha256 (ufwMachine text noFaults render)) plan.rules _ _
      agent.toAgentState).2.world.os.state
    rw [applyRules_of_gatesPass hgates, hlocked, applyLocked_ufw happly, hfailed]
    rfl
  · intro hrefused
    show (applyRules text (ufwMachine text noFaults render)
      (ufwBackend sha256 (ufwMachine text noFaults render)) plan.rules _ _
      agent.toAgentState).2.world.os.state = _
    cases hcheck : checkRulesAgainstProtected text plan.rules agent.config.protectedCidrs with
    | ok _ => exact absurd (checkRules_ok_iff.mp hcheck) hrefused
    | error violations => rw [applyRules, hcheck]

theorem runPullCycle_state {μ : Type} {link : ManagerLink μ} {input : CycleInput}
    {linked : Linked UfwHost μ} {liveHash : String} {drift : Bool} {manager : μ}
    (hprobe : (probe (ufwEnv text parseUrl sha256 render hostId) linked.agent.world).1 =
      .ok liveHash) (hdrift : localDrift linked.agent.files liveHash = drift)
    (hresponse : link.checkIn (checkInRequest (ufwEnv text parseUrl sha256 render hostId) input
      linked.agent drift) linked.manager = (some response, manager)) :
    (runPullCycle (ufwEnv text parseUrl sha256 render hostId) link input
        linked).2.agent.world.os.state =
      if runsRollback linked.agent.files response.pendingActions then
        { (applyStep (ufwEnv text parseUrl sha256 render hostId) drift response
            ((linked.agent.probed (ufwEnv text parseUrl sha256 render hostId)).settled input.now
              response)).2.world.os.state with rules := [] }
      else
        (applyStep (ufwEnv text parseUrl sha256 render hostId) drift response
          ((linked.agent.probed (ufwEnv text parseUrl sha256 render hostId)).settled input.now
            response)).2.world.os.state := by
  rw [← hdrift] at hresponse
  rw [runPullCycle_of_response hprobe hresponse, hdrift]
  have hcache : (applyStep (ufwEnv text parseUrl sha256 render hostId) drift response
      ((linked.agent.probed (ufwEnv text parseUrl sha256 render hostId)).settled input.now
        response)).2.files.executedActions = linked.agent.files.executedActions := by
    rw [executedActions_applyStep, (Agent.settled_frame _ input.now response).1]
    rfl
  unfold afterCheckIn
  dsimp only
  rw [handleActions_state, runsRollback_congr hcache]

/-- The agent that starts the apply of a cycle has the files and the firewall of the cycle's
start. -/
theorem settled_probed_frame (text : AddressText) (parseUrl : String → Except String ParsedUrl)
    (sha256 : List UInt8 → List UInt8) (render : UfwState → String) (hostId : Uuid)
    (agent : Agent UfwHost) (now : Nat) (response : CheckInResponse) :
    ((agent.probed (ufwEnv text parseUrl sha256 render hostId)).settled now response).files =
        agent.files ∧
      ((agent.probed (ufwEnv text parseUrl sha256 render hostId)).settled now
        response).world.os.state = agent.world.os.state := by
  obtain ⟨hstate, -, -⟩ := Agent.settled_frame
    (agent.probed (ufwEnv text parseUrl sha256 render hostId)) now response
  obtain ⟨-, -, hkept⟩ := probe_sound text render sha256 parseUrl hostId agent.world
  rw [hstate]
  exact ⟨rfl, hkept⟩

theorem applyStep_cycle_state {μ : Type} {linked : Linked UfwHost μ} {drift : Bool}
    {plan : ApplyPlan} (now : Nat) (hplan : planApply linked.agent.files drift response = some plan)
    (hendpoint : managerEndpoint (ufwEnv text parseUrl sha256 render hostId)
      linked.agent.config.managerAgentUrl = .ok endpoint)
    (hcommands : ∀ fresh : UfwState, fresh.rules = [] →
      ∃ final, runLines text (plan.commands endpoint) fresh = some final) :
    ((∀ rule ∈ plan.rules, ¬ Refused text linked.agent.config.protectedCidrs rule) →
        InstalledBy text (plan.commands endpoint) (applyStep
          (ufwEnv text parseUrl sha256 render hostId) drift response
          ((linked.agent.probed (ufwEnv text parseUrl sha256 render hostId)).settled now
            response)).2.world.os.state) ∧
      ((¬ ∀ rule ∈ plan.rules, ¬ Refused text linked.agent.config.protectedCidrs rule) →
        (applyStep (ufwEnv text parseUrl sha256 render hostId) drift response
          ((linked.agent.probed (ufwEnv text parseUrl sha256 render hostId)).settled now
            response)).2.world.os.state = linked.agent.world.os.state) := by
  obtain ⟨-, hurl, hcidrs⟩ := Agent.settled_frame
    (linked.agent.probed (ufwEnv text parseUrl sha256 render hostId)) now response
  obtain ⟨hfiles, hsame⟩ := settled_probed_frame text parseUrl sha256 render hostId linked.agent
    now response
  rw [← hfiles] at hplan
  have hendpoint' : managerEndpoint (ufwEnv text parseUrl sha256 render hostId)
      ((linked.agent.probed (ufwEnv text parseUrl sha256 render hostId)).settled now
        response).config.managerAgentUrl = .ok endpoint := by
    rw [hurl]
    exact hendpoint
  have hprotected : ((linked.agent.probed (ufwEnv text parseUrl sha256 render hostId)).settled now
      response).config.protectedCidrs = linked.agent.config.protectedCidrs := hcidrs
  have happly := applyStep_state hplan hendpoint' hcommands
  rw [hprotected, hsame] at happly
  exact happly

end Heal

/-- **When drift is healed.** Let a cycle of an agent with UFW start with local drift. The saved
ruleset is not empty and passes the protected-CIDR check, the check-in succeeds, the manager
endpoint can be read, and the commands of the planned apply succeed. At the end the firewall is the
compilation of the ruleset of the answer or of the saved one if and only if no pending rollback is
run, and a new policy of the answer passes the check, unless there was nothing to heal. -/
theorem drift_healed_iff {μ : Type} (text : AddressText)
    (parseUrl : String → Except String ParsedUrl) (sha256 : List UInt8 → List UInt8)
    (render : UfwState → String) (hostId : Uuid) (link : ManagerLink μ) (input : CycleInput)
    (linked : Linked UfwHost μ) (saved : List FirewallRule) (liveHash : String)
    (response : CheckInResponse) (manager : μ) (endpoint : String × UInt16)
    (hsaved : linked.agent.files.lastGood = some saved) (hne : saved ≠ [])
    (hpasses : ∀ rule ∈ saved, ¬ Refused text linked.agent.config.protectedCidrs rule)
    (hprobe : (probe (ufwEnv text parseUrl sha256 render hostId) linked.agent.world).1 =
      .ok liveHash)
    (hdrift : localDrift linked.agent.files liveHash = true)
    (hresponse : link.checkIn (checkInRequest (ufwEnv text parseUrl sha256 render hostId) input
      linked.agent true) linked.manager = (some response, manager))
    (hendpoint : managerEndpoint (ufwEnv text parseUrl sha256 render hostId)
      linked.agent.config.managerAgentUrl = .ok endpoint)
    (hcommands : ∀ plan, planApply linked.agent.files true response = some plan →
      ∀ fresh : UfwState, fresh.rules = [] →
        ∃ final, runLines text (plan.commands endpoint) fresh = some final) :
    Healed text endpoint linked.agent.files saved response (runPullCycle
        (ufwEnv text parseUrl sha256 render hostId) link input linked).2.agent.world.os.state ↔
      runsRollback linked.agent.files response.pendingActions = false ∧
        ((NewPolicy linked.agent.files response → ∀ rule ∈ response.rules.map dtoToRule,
            ¬ Refused text linked.agent.config.protectedCidrs rule) ∨
          Healed text endpoint linked.agent.files saved response linked.agent.world.os.state) := by
  have hspecific : managerIpSpecific text endpoint.1 = true :=
    managerIpSpecific_of_endpoint hendpoint
  rw [runPullCycle_state hprobe hdrift hresponse]
  cases hrollback : runsRollback linked.agent.files response.pendingActions with
  | true =>
    rw [if_pos rfl]
    refine iff_of_false ?_ ?_
    · rintro (hnew | hold)
      · exact hnew.rules_ne_nil hspecific rfl
      · exact hold.rules_ne_nil hspecific rfl
    · rintro ⟨hnone, -⟩
      cases hnone
  | false =>
    rw [if_neg Bool.false_ne_true, and_iff_right rfl]
    rcases planApply_of_drift hsaved hne response with ⟨hnew, hplan⟩ | ⟨hquiet, hplan⟩
    · obtain ⟨hinstalled, hkept⟩ := applyStep_cycle_state input.now hplan hendpoint
        (hcommands _ hplan)
      by_cases haccepted : ∀ rule ∈ response.rules.map dtoToRule,
          ¬ Refused text linked.agent.config.protectedCidrs rule
      · exact iff_of_true (Or.inl (hinstalled haccepted)) (Or.inl fun _ => haccepted)
      · rw [hkept haccepted, or_iff_right fun hall => haccepted (hall hnew)]
    · obtain ⟨hinstalled, -⟩ := applyStep_cycle_state input.now hplan hendpoint
        (hcommands _ hplan)
      exact iff_of_true (Or.inr (hinstalled hpasses)) (Or.inl fun hnew => absurd hnew hquiet)

/-- An agent with UFW whose status text tells the number of rules. -/
def countingEnv : AgentEnv UfwHost :=
  ufwEnv dottedText soundEnv.parseUrl id
    (fun state => "\n\n" ++ String.ofList (List.replicate state.rules.length 'r')) ⟨1⟩

/-- The saved ruleset, which blocks everything inbound. -/
def savedRules : List FirewallRule :=
  [dtoToRule (wireRule "deny" none)]

/-- The firewall with the saved ruleset, in front of which somebody has put a rule that accepts all
inbound traffic. -/
def driftedState : UfwState where
  rules := [blankRule .allow, umbilicalRule lockdownManager 8443, blankRule .deny]
  incoming := .deny
  outgoing := .allow

/-- The agent on that firewall. It expects two rules, and 10.0.0.0/8 is protected. -/
def driftedAgent : Linked UfwHost Unit where
  agent := soundAgent driftedState
    ⟨some savedRules, none, some (snapshotHash id ["rr"]), []⟩ ["10.0.0.0/8"]
  manager := ()

/-- An answer with one new rule, which blocks a network. -/
def blockingAnswer (cidr : String) : CheckInResponse :=
  newRules [wireRule "deny" (some cidr)] []

/-- The firewall after a cycle with that answer. -/
def stateAfter (cidr : String) : UfwState :=
  (runPullCycle countingEnv (fixedLink (some (blockingAnswer cidr)))
    ⟨100, "0.1.0", "", 100, none⟩ driftedAgent).2.agent.world.os.state

theorem savedRules_pass : ∀ rule ∈ savedRules, ¬ Refused dottedText ["10.0.0.0/8"] rule :=
  checkRules_ok_iff.mp (by decide +kernel)

/-- A new policy that blocks another network is applied, and the drift is gone. -/
theorem drift_healed_by_policy :
    Healed dottedText ("10.0.0.1", 8443) driftedAgent.agent.files savedRules
      (blockingAnswer "192.168.0.0/16") (stateAfter "192.168.0.0/16") := by
  have hprobe : (probe countingEnv driftedAgent.agent.world).1 =
      .ok (snapshotHash id ["rrr"]) := by
    decide +kernel
  have hdrift : localDrift driftedAgent.agent.files (snapshotHash id ["rrr"]) = true := by
    decide +kernel
  have hplan : planApply driftedAgent.agent.files true (blockingAnswer "192.168.0.0/16") =
      some (blockingAnswer "192.168.0.0/16").plan := rfl
  have hlines : (((blockingAnswer "192.168.0.0/16").plan.commands ("10.0.0.1", 8443)).mapM
      (commandOfLine dottedText)).isSome = true := by
    decide +kernel
  obtain ⟨commands, hcommands⟩ := Option.isSome_iff_exists.mp hlines
  have hpolicy : ∀ rule ∈ (blockingAnswer "192.168.0.0/16").rules.map dtoToRule,
      ¬ Refused dottedText ["10.0.0.0/8"] rule :=
    checkRules_ok_iff.mp (by decide +kernel)
  unfold stateAfter countingEnv
  refine (drift_healed_iff dottedText soundEnv.parseUrl id _ ⟨1⟩
    (fixedLink (some (blockingAnswer "192.168.0.0/16"))) ⟨100, "0.1.0", "", 100, none⟩ driftedAgent
    savedRules (snapshotHash id ["rrr"]) (blockingAnswer "192.168.0.0/16") () ("10.0.0.1", 8443)
    rfl (by decide) savedRules_pass hprobe hdrift rfl (by decide +kernel) ?_).mpr
    ⟨rfl, Or.inl fun _ => hpolicy⟩
  intro plan hplanned fresh _
  obtain rfl := Option.some.inj (hplan.symm.trans hplanned)
  exact ⟨commands.foldl UfwState.step fresh, by rw [runLines, hcommands]; rfl⟩

/-- A new policy that blocks the protected network is refused, and the rule that accepts all stays
in front. -/
theorem refused_policy_keeps_drift :
    localDrift driftedAgent.agent.files (snapshotHash id ["rrr"]) = true ∧
      (probe countingEnv driftedAgent.agent.world).1 = .ok (snapshotHash id ["rrr"]) ∧
      (∀ rule ∈ savedRules, ¬ Refused dottedText ["10.0.0.0/8"] rule) ∧
      stateAfter "10.0.0.0/8" = driftedState ∧
      ¬ Healed dottedText ("10.0.0.1", 8443) driftedAgent.agent.files savedRules
        (blockingAnswer "10.0.0.0/8") (stateAfter "10.0.0.0/8") := by
  have hstate : stateAfter "10.0.0.0/8" = driftedState := by decide +kernel
  refine ⟨by decide +kernel, by decide +kernel, savedRules_pass, hstate, ?_⟩
  rw [hstate]
  -- Every compiled ruleset starts with the umbilical.
  have hfirst (plan : ApplyPlan) :
      ¬ InstalledBy dottedText (plan.commands ("10.0.0.1", 8443)) driftedState := by
    rintro ⟨fresh, hfresh, hrun⟩
    have hip : dottedText.parseAddr "10.0.0.1" = some lockdownManager := by decide +kernel
    obtain ⟨without, -, hrules⟩ := runLines_ufwCompile hip hfresh hrun
    have hhead : some (blankRule .allow) = some (umbilicalRule lockdownManager 8443) :=
      congrArg (fun state => state.rules.head?) hrules
    exact absurd (Option.some.inj hhead) (by decide)
  rintro (hnew | hold)
  · exact hfirst _ hnew
  · exact hfirst _ hold

end FirewallManager
