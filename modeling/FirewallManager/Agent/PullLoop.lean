import FirewallManager.Agent.Apply
import FirewallManager.Core.CheckIn

/-!
# The pull cycle of the agent

A cycle probes the live firewall, checks in with the manager, applies what the answer or a local
drift asks for, and runs the pending actions. An unreachable manager can make it fall back to the
last-known-good ruleset.

The manager is behind a `ManagerLink` over an arbitrary state, so the cycle can be composed with
the model of the manager. `planApply` is the choice between the new ruleset, the cached one and
nothing. `ApplyReady.applyStep` says what a clean apply leaves in the state files, and
`runPullCycle_of_response` reduces a cycle whose check-in succeeds to it.
-/

namespace FirewallManager

/-- The parts of a URL that the agent reads. -/
structure ParsedUrl where
  hostStr : Option String
  portOrKnownDefault : Option UInt16
  deriving DecidableEq, Repr

/-- What the agent is built on: the text conversions, the URL parser, SHA-256, its operating
system and firewall backend, and the host it was enrolled as. -/
structure AgentEnv (σ : Type) where
  text : AddressText
  parseUrl : String → Except String ParsedUrl
  sha256 : List UInt8 → List UInt8
  machine : Machine σ
  backend : FirewallBackend σ
  hostId : Uuid

/-- The configuration of the agent, as far as the pull cycle uses it. -/
structure AgentConfig where
  managerAgentUrl : String
  checkInIntervalSecs : Nat
  configVersion : Int
  safeModeEnabled : Bool
  protectedCidrs : List String
  deriving DecidableEq, Repr

/-- The safe-mode clock, in seconds. -/
structure SafeModeState where
  lastManagerContact : Option Nat
  safeModeActive : Bool
  timeoutSecs : Nat
  deriving DecidableEq, Repr

/-- The agent: its host and state files, its configuration and the variables of the pull loop. -/
structure Agent (σ : Type) extends AgentState σ where
  config : AgentConfig
  safeMode : SafeModeState
  intervalSecs : Nat
  configVersion : Int

/-- What a cycle reads from its surroundings. -/
structure CycleInput where
  now : Nat
  agentVersion : String
  osInfo : String
  uptimeSeconds : Int
  agentBinaryHash : Option String
  deriving DecidableEq, Repr

/-- The calls of the agent to the manager. A check-in that fails has no answer, and the outcome
of a result report is not looked at. -/
structure ManagerLink (μ : Type) where
  checkIn : CheckInRequest → μ → Option CheckInResponse × μ
  reportResult : CheckInResultRequest → μ → μ

/-- An agent and its manager. -/
structure Linked (σ μ : Type) where
  agent : Agent σ
  manager : μ

/-- Safe mode hears from the manager. -/
def SafeModeState.recordManagerContact (state : SafeModeState) (now : Nat) : SafeModeState :=
  { state with lastManagerContact := some now, safeModeActive := false }

/-- The time since the last contact. -/
def SafeModeState.elapsed (state : SafeModeState) (now : Nat) : Nat :=
  match state.lastManagerContact with
  | some contact => now - contact
  | none => 0

/-- Whether the manager has been silent for longer than the timeout. -/
def SafeModeState.check (state : SafeModeState) (now : Nat) : Bool × SafeModeState :=
  if state.elapsed now > state.timeoutSecs then (true, { state with safeModeActive := true })
  else (false, state)

/-- The expected hash, as its reader sees it. -/
def loadExpectedHash (files : AgentFiles) : Option String :=
  (files.expectedHash.map Text.trim).filter (· ≠ "")

/-- The live firewall differs from what was last applied. -/
def localDrift (files : AgentFiles) (liveHash : String) : Bool :=
  match loadExpectedHash files with
  | some expected => expected != liveHash
  | none => false

/-- The cached defaults. Without a readable file they are the system's. -/
def cachedDefaults (files : AgentFiles) : LastDefaults :=
  files.lastDefaults.getD ⟨none, none⟩

/-- The default policies of a check-in answer. -/
def CheckInResponse.defaults (response : CheckInResponse) : LastDefaults :=
  ⟨response.defaultInputPolicy, response.defaultOutputPolicy⟩

/-- The defaults of the answer are not the cached ones. -/
def defaultsChanged (files : AgentFiles) (response : CheckInResponse) : Bool :=
  (cachedDefaults files).defaultInputPolicy != response.defaultInputPolicy ||
    (cachedDefaults files).defaultOutputPolicy != response.defaultOutputPolicy

variable {files : AgentFiles} {response : CheckInResponse}

theorem defaultsChanged_eq_false_iff :
    defaultsChanged files response = false ↔ cachedDefaults files = response.defaults := by
  rcases hcached : cachedDefaults files with ⟨input, output⟩
  simp [defaultsChanged, hcached, CheckInResponse.defaults]

/-- A ruleset with the default policies to apply it under. -/
structure ApplyPlan where
  rules : List FirewallRule
  defaults : LastDefaults
  deriving DecidableEq, Repr

/-- What a cycle applies. A new policy or new defaults lead to the ruleset of the answer, unless
it is empty. Otherwise a local drift leads to the cached ruleset, unless that is empty. -/
def planApply (files : AgentFiles) (drift : Bool) (response : CheckInResponse) :
    Option ApplyPlan :=
  -- The emptiness test comes first: a policy that was emptied is never applied as such.
  if response.rules ≠ [] ∧ (response.rulesChanged || defaultsChanged files response) then
    some ⟨response.rules.map dtoToRule, response.defaults⟩
  else if drift then
    match files.lastGood with
    | some (rule :: rules) => some ⟨rule :: rules, cachedDefaults files⟩
    | _ => none
  else none

/-- A non-empty ruleset that is new, or whose defaults are, is applied. -/
theorem planApply_of_changed {drift : Bool} (hrules : response.rules ≠ [])
    (hchanged : response.rulesChanged = true ∨ cachedDefaults files ≠ response.defaults) :
    planApply files drift response =
      some ⟨response.rules.map dtoToRule, response.defaults⟩ := by
  refine if_pos ⟨hrules, ?_⟩
  rw [Bool.or_eq_true]
  exact hchanged.imp_right fun hne => by
    rw [← Bool.not_eq_false, defaultsChanged_eq_false_iff]
    exact hne

theorem planApply_cached {drift : Bool} {plan : ApplyPlan} (hquiet : response.rules = [] ∨
      response.rulesChanged = false ∧ cachedDefaults files = response.defaults)
    (hplan : planApply files drift response = some plan) :
    files.lastGood = some plan.rules ∧ plan.defaults = cachedDefaults files := by
  have hskip : ¬ (response.rules ≠ [] ∧
      (response.rulesChanged || defaultsChanged files response) = true) := by
    rintro ⟨hrules, hchanged⟩
    rcases hquiet with hnil | ⟨hsame, hdefaults⟩
    · exact hrules hnil
    · rw [hsame, defaultsChanged_eq_false_iff.mpr hdefaults] at hchanged
      cases hchanged
  rw [planApply, if_neg hskip] at hplan
  split at hplan
  next =>
    split at hplan
    next rule rules hlast =>
      obtain rfl := Option.some.inj hplan
      exact ⟨hlast, rfl⟩
    next => cases hplan
  next => cases hplan

theorem planApply_of_quiet (hrules : response.rulesChanged = false)
    (hdefaults : cachedDefaults files = response.defaults) :
    planApply files false response = none := by
  rw [planApply, hrules, defaultsChanged_eq_false_iff.mpr hdefaults]
  simp

section Cycle

variable {σ μ : Type} (env : AgentEnv σ) (link : ManagerLink μ)

/-- The manager address and port of the configured URL. The host has to be a specific address. -/
def managerEndpoint (managerUrl : String) : Except String (String × UInt16) :=
  match env.parseUrl managerUrl with
  | .error e => .error ("invalid manager_agent_url: " ++ e)
  | .ok parsed =>
    match parsed.hostStr with
    | none => .error "manager_agent_url has no host"
    | some host =>
      match parsed.portOrKnownDefault with
      | none => .error "manager_agent_url has no port"
      | some port =>
        match env.text.parseAddr host with
        | none =>
          .error ("manager_agent_url host is not an IP (got " ++ host ++
            "); re-enroll with an IP manager address")
        | some ip =>
          if ip.isUnspecified then
            .error ("manager_agent_url is an unspecified address (" ++
              env.text.displayAddr ip ++ "); re-enroll with a specific IP")
          else .ok (env.text.displayAddr ip, port)

/-- The endpoint an apply is given. A URL that cannot be read gives an empty address, which
`applyRules` refuses. -/
def applyEndpoint (managerUrl : String) : String × UInt16 :=
  match managerEndpoint env managerUrl with
  | .ok endpoint => endpoint
  | .error _ => ("", 0)

/-- Apply a plan toward a manager endpoint. -/
def Agent.apply (agent : Agent σ) (endpoint : String × UInt16) (plan : ApplyPlan) :
    Except String String × Agent σ :=
  let (result, state) := applyRules env.text env.machine env.backend plan.rules
    agent.config.protectedCidrs
    ⟨endpoint.1, endpoint.2, plan.defaults.defaultInputPolicy, plan.defaults.defaultOutputPolicy⟩
    agent.toAgentState
  (result, { agent with toAgentState := state })

/-- Snapshot the live rules and ask for the status. The answer is the live hash. -/
def probe (world : World σ) : Except String String × World σ :=
  match env.backend.snapshot world with
  | (.error _, world) => (.error "Failed to get backend snapshot", world)
  | (.ok snapshot, world) =>
    match env.backend.status world with
    | (.error _, world) => (.error "Failed to get backend status", world)
    | (.ok _, world) => (.ok snapshot.hash, world)

/-- The body of a check-in. -/
def checkInRequest (input : CycleInput) (agent : Agent σ) (drift : Bool) : CheckInRequest where
  hostId := env.hostId
  rulesHash := reportedRulesHash env.sha256 agent.files.lastGood
  agentVersion := input.agentVersion
  backendType := env.backend.name
  osInfo := input.osInfo
  uptimeSeconds := input.uptimeSeconds
  configVersion := agent.configVersion
  localDrift := drift
  agentBinaryHash := input.agentBinaryHash

/-- Re-apply the saved ruleset, if there is one and the manager endpoint can be read. -/
def Agent.revertToLastGood (agent : Agent σ) : Agent σ :=
  match agent.files.lastGood with
  | some (rule :: rules) =>
    match managerEndpoint env agent.config.managerAgentUrl with
    | .ok endpoint =>
      (agent.apply env endpoint ⟨rule :: rules, cachedDefaults agent.files⟩).2
    | .error _ => agent
  | _ => agent

/-- What follows a failed check-in. -/
def Agent.onCheckInFailed (agent : Agent σ) (now : Nat) : Agent σ :=
  if agent.config.safeModeEnabled then
    let (silent, safeMode) := agent.safeMode.check now
    let agent := { agent with safeMode := safeMode }
    if silent then agent.revertToLastGood env else agent
  else agent

/-- Take over new settings. The interval is cast to a `u32`. -/
def Agent.updateConfig (agent : Agent σ) : Option ConfigUpdate → Agent σ
  | none => agent
  | some update =>
    let intervalSecs := (update.checkInIntervalSecs % 2 ^ 32).toNat
    { agent with
      intervalSecs := intervalSecs
      configVersion := update.configVersion
      config := { agent.config with
        checkInIntervalSecs := intervalSecs
        configVersion := update.configVersion
        safeModeEnabled := update.safeModeEnabled } }

/-- The apply of a cycle. A success is remembered for the next cycles. -/
def applyStep (drift : Bool) (response : CheckInResponse) (agent : Agent σ) :
    Option (Except String String) × Agent σ :=
  match planApply agent.files drift response with
  | none => (none, agent)
  | some plan =>
    match agent.apply env (applyEndpoint env agent.config.managerAgentUrl) plan with
    | (.error e, agent) => (some (.error e), agent)
    | (.ok hash, agent) =>
      -- Only a successful apply is written down, so a failed one is tried again.
      (some (.ok hash), { agent with
        files := { agent.files with
          expectedHash := some hash, lastDefaults := some plan.defaults } })

/-- The report about an apply. -/
def applyReport (liveHash : String) : Except String String → CheckInResultRequest
  | .ok hash => ⟨env.hostId, none, true, none, hash⟩
  | .error e => ⟨env.hostId, none, false, some e, liveHash⟩

/-- Report an apply, if there was one. -/
def reportApply (liveHash : String) (outcome : Option (Except String String)) (manager : μ) : μ :=
  match outcome with
  | some result => link.reportResult (applyReport env liveHash result) manager
  | none => manager

/-- Run a pending action: whether it succeeded, and its error text. Only a rollback does
something. -/
def executePendingAction (action : PendingActionDto) (world : World σ) :
    (Bool × Option String) × World σ :=
  match action.actionType with
  | "rollback" =>
    match env.backend.reset world with
    | (.ok (), world) => ((true, none), world)
    | (.error e, world) => ((false, some e.message), world)
  | "safe_mode_on" => ((true, none), world)
  | "safe_mode_off" => ((true, none), world)
  | "reload_config" => ((true, none), world)
  | "agent_upgrade" => ((true, none), world)
  | "apply_rules" => ((true, none), world)
  | other => ((false, some ("Unknown action type: " ++ other)), world)

/-- The action is in the replay cache. -/
def alreadyExecuted (files : AgentFiles) (id : Uuid) : Bool :=
  files.executedActions.any fun line => Text.trim line == id.text

/-- Append an action to the replay cache. -/
def recordExecuted (files : AgentFiles) (id : Uuid) : AgentFiles :=
  { files with executedActions := files.executedActions ++ [id.text] }

/-- Handle one delivered action: acknowledge a replay, or run it, record a success and report. -/
def handleAction (liveHash : String) (linked : Linked σ μ) (action : PendingActionDto) :
    Linked σ μ :=
  let report (success : Bool) (error : Option String) : CheckInResultRequest :=
    ⟨env.hostId, some action.id, success, error, liveHash⟩
  if alreadyExecuted linked.agent.files action.id then
    { linked with manager := link.reportResult (report true none) linked.manager }
  else
    let ((success, error), world) := executePendingAction env action linked.agent.world
    let files :=
      if success then recordExecuted linked.agent.files action.id else linked.agent.files
    { agent := { linked.agent with world := world, files := files }
      manager := link.reportResult (report success error) linked.manager }

/-- The agent when it starts to apply: in contact with the manager, and with its new settings. -/
def Agent.settled (agent : Agent σ) (now : Nat) (response : CheckInResponse) : Agent σ :=
  { agent with safeMode := agent.safeMode.recordManagerContact now }.updateConfig response.config

/-- The part of a cycle that follows a successful check-in. -/
def afterCheckIn (now : Nat) (liveHash : String) (drift : Bool) (response : CheckInResponse)
    (linked : Linked σ μ) : Linked σ μ :=
  let (outcome, agent) := applyStep env drift response (linked.agent.settled now response)
  response.pendingActions.foldl (handleAction env link liveHash)
    ⟨agent, reportApply env link liveHash outcome linked.manager⟩

/-- `run_pull_cycle`. The answer is whether there was a local drift. -/
def runPullCycle (input : CycleInput) (linked : Linked σ μ) : Except String Bool × Linked σ μ :=
  match probe env linked.agent.world with
  | (.error e, world) => (.error e, { linked with agent := { linked.agent with world := world } })
  | (.ok liveHash, world) =>
    let agent := { linked.agent with world := world }
    let drift := localDrift agent.files liveHash
    match link.checkIn (checkInRequest env input agent drift) linked.manager with
    | (none, manager) => (.ok false, ⟨agent.onCheckInFailed env input.now, manager⟩)
    | (some response, manager) =>
      (.ok drift, afterCheckIn env link input.now liveHash drift response ⟨agent, manager⟩)

variable {env link}

theorem managerIpSpecific_of_endpoint {managerUrl : String} {endpoint : String × UInt16}
    (h : managerEndpoint env managerUrl = .ok endpoint) :
    managerIpSpecific env.text endpoint.1 = true := by
  unfold managerEndpoint at h
  split at h
  next => cases h
  next parsed _ =>
    split at h
    next => cases h
    next host _ =>
      split at h
      next => cases h
      next port _ =>
        split at h
        next => cases h
        next ip _ =>
          by_cases hunspecified : ip.isUnspecified = true
          · rw [if_pos hunspecified] at h
            cases h
          · rw [if_neg hunspecified] at h
            obtain rfl := Except.ok.inj h
            simp [managerIpSpecific, env.text.parseAddr_displayAddr, hunspecified]

/-- Becoming settled touches neither the host nor the state files, nor the settings that an apply
reads. -/
theorem Agent.settled_frame (agent : Agent σ) (now : Nat) (response : CheckInResponse) :
    (agent.settled now response).toAgentState = agent.toAgentState ∧
      (agent.settled now response).config.managerAgentUrl = agent.config.managerAgentUrl ∧
      (agent.settled now response).config.protectedCidrs = agent.config.protectedCidrs := by
  unfold Agent.settled Agent.updateConfig
  split <;> exact ⟨rfl, rfl, rfl⟩

theorem Agent.apply_files (env : AgentEnv σ) (agent : Agent σ) (endpoint : String × UInt16)
    (plan : ApplyPlan) :
    (∃ hash, (agent.apply env endpoint plan).1 = .ok hash ∧
        (agent.apply env endpoint plan).2.files =
          { agent.files with lastGood := some plan.rules }) ∨
      (∃ message, (agent.apply env endpoint plan).1 = .error message ∧
        (agent.apply env endpoint plan).2.files = agent.files) :=
  applyRules_files _ _ _ _

/-- The state files that a successful apply of a plan leaves. -/
def AgentFiles.applied (files : AgentFiles) (plan : ApplyPlan) (hash : String) : AgentFiles :=
  { files with
    lastGood := some plan.rules, expectedHash := some hash, lastDefaults := some plan.defaults }

variable {drift : Bool} {response : CheckInResponse} {agent : Agent σ}

theorem applyStep_of_no_plan (hplan : planApply agent.files drift response = none) :
    applyStep env drift response agent = (none, agent) := by
  rw [applyStep, hplan]

/-- With a plan, the outcome is that of its apply. -/
theorem applyStep_of_plan {plan : ApplyPlan}
    (hplan : planApply agent.files drift response = some plan) :
    (applyStep env drift response agent).1 = some (agent.apply env
        (applyEndpoint env agent.config.managerAgentUrl) plan).1 ∧
      ((∃ hash, (applyStep env drift response agent).1 = some (.ok hash) ∧
          (applyStep env drift response agent).2.files = agent.files.applied plan hash) ∨
        (∃ message, (applyStep env drift response agent).1 = some (.error message) ∧
          (applyStep env drift response agent).2.files = agent.files)) := by
  have hfiles := Agent.apply_files env agent (applyEndpoint env agent.config.managerAgentUrl) plan
  rw [applyStep, hplan]
  dsimp only
  rcases happly : agent.apply env (applyEndpoint env agent.config.managerAgentUrl) plan
    with ⟨result, after⟩
  rw [happly] at hfiles
  rcases hfiles with ⟨hash, rfl, hsaved⟩ | ⟨message, rfl, hkept⟩
  · refine ⟨rfl, Or.inl ⟨hash, rfl, ?_⟩⟩
    show { after.files with expectedHash := some hash, lastDefaults := some plan.defaults } = _
    rw [hsaved]
    rfl
  · exact ⟨rfl, Or.inr ⟨message, rfl, hkept⟩⟩

theorem applyStep_world {plan : ApplyPlan}
    (hplan : planApply agent.files drift response = some plan) :
    (applyStep env drift response agent).2.world = (agent.apply env
      (applyEndpoint env agent.config.managerAgentUrl) plan).2.world := by
  rw [applyStep, hplan]
  dsimp only
  rcases agent.apply env (applyEndpoint env agent.config.managerAgentUrl) plan with
    ⟨result, after⟩
  cases result <;> rfl

theorem applyStep_ok {hash : String}
    (h : (applyStep env drift response agent).1 = some (.ok hash)) :
    ∃ plan, planApply agent.files drift response = some plan ∧
      (agent.apply env (applyEndpoint env agent.config.managerAgentUrl) plan).1 = .ok hash ∧
      (applyStep env drift response agent).2.files = agent.files.applied plan hash := by
  cases hplan : planApply agent.files drift response with
  | none =>
    rw [applyStep_of_no_plan hplan] at h
    cases h
  | some plan =>
    obtain ⟨houtcome, hfiles⟩ := applyStep_of_plan hplan
    have happly := Option.some.inj (houtcome.symm.trans h)
    rcases hfiles with ⟨hash', hok, hsaved⟩ | ⟨message, herror, -⟩
    · obtain rfl := Except.ok.inj (Option.some.inj (hok.symm.trans h))
      exact ⟨plan, rfl, happly, hsaved⟩
    · rw [herror] at h
      cases h

/-- An apply that the answer did not ask for leaves the remembered ruleset and defaults as they
were, whatever its outcome. -/
theorem applyStep_cached (hquiet : response.rules = [] ∨
      response.rulesChanged = false ∧ cachedDefaults agent.files = response.defaults) :
    (applyStep env drift response agent).2.files.lastGood = agent.files.lastGood ∧
      cachedDefaults (applyStep env drift response agent).2.files = cachedDefaults agent.files := by
  cases hplan : planApply agent.files drift response with
  | none =>
    rw [applyStep_of_no_plan hplan]
    exact ⟨rfl, rfl⟩
  | some plan =>
    obtain ⟨hlast, hdefaults⟩ := planApply_cached hquiet hplan
    rcases (applyStep_of_plan hplan).2 with ⟨hash, -, hfiles⟩ | ⟨message, -, hfiles⟩
    · rw [hfiles]
      exact ⟨hlast.symm, hdefaults⟩
    · rw [hfiles]
      exact ⟨rfl, rfl⟩

/-- What an apply of the plan needs to succeed: the manager URL can be read, the protected CIDRs
allow the rules, the lock is granted, and no command fails. -/
structure ApplyReady (env : AgentEnv σ) (agent : Agent σ) (plan : ApplyPlan) : Prop where
  endpoint : ∃ endpoint, managerEndpoint env agent.config.managerAgentUrl = .ok endpoint
  accepted : ∀ rule ∈ plan.rules, ¬ Refused env.text agent.config.protectedCidrs rule
  locked : ∀ os, (env.machine.applyLock os).1 = .ok ()
  clean : ∀ endpoint, managerEndpoint env agent.config.managerAgentUrl = .ok endpoint →
    AppliesCleanly env.backend plan.rules ⟨endpoint.1, endpoint.2,
      plan.defaults.defaultInputPolicy, plan.defaults.defaultOutputPolicy⟩

/-- With all of that, a planned apply succeeds and is remembered. -/
theorem ApplyReady.applyStep {plan : ApplyPlan} (h : ApplyReady env agent plan)
    (hplan : planApply agent.files drift response = some plan) :
    ∃ hash, (applyStep env drift response agent).2.files = agent.files.applied plan hash := by
  obtain ⟨endpoint, hendpoint⟩ := h.endpoint
  have happlyEndpoint : applyEndpoint env agent.config.managerAgentUrl = endpoint := by
    rw [applyEndpoint, hendpoint]
  have hgates : GatesPass env.text env.machine plan.rules agent.config.protectedCidrs
      ⟨endpoint.1, endpoint.2, plan.defaults.defaultInputPolicy,
        plan.defaults.defaultOutputPolicy⟩ agent.world :=
    ⟨h.accepted, managerIpSpecific_of_endpoint hendpoint, h.locked _⟩
  obtain ⟨hash, hok⟩ := (h.clean endpoint hendpoint).applyLocked
    { agent.toAgentState with world := lockedWorld env.machine agent.world }
  have happly : (agent.apply env endpoint plan).1 = .ok hash := by
    show (applyRules _ _ _ _ _ _ _).1 = _
    rw [applyRules_of_gatesPass hgates]
    exact hok
  obtain ⟨houtcome, hfiles⟩ := applyStep_of_plan hplan
  rcases hfiles with ⟨hash', -, hsaved⟩ | ⟨message, herror, -⟩
  · exact ⟨hash', hsaved⟩
  · rw [houtcome, happlyEndpoint, happly] at herror
    cases herror

theorem handleAction_files (env : AgentEnv σ) (link : ManagerLink μ) (liveHash : String)
    (linked : Linked σ μ) (action : PendingActionDto) :
    ∃ executed, (handleAction env link liveHash linked action).agent.files =
      { linked.agent.files with executedActions := executed } := by
  unfold handleAction
  split
  next => exact ⟨linked.agent.files.executedActions, rfl⟩
  next =>
    dsimp only
    split
    next => exact ⟨_, rfl⟩
    next => exact ⟨linked.agent.files.executedActions, rfl⟩

theorem handleActions_files (env : AgentEnv σ) (link : ManagerLink μ) (liveHash : String)
    (actions : List PendingActionDto) (linked : Linked σ μ) :
    ∃ executed, (actions.foldl (handleAction env link liveHash) linked).agent.files =
      { linked.agent.files with executedActions := executed } := by
  induction actions generalizing linked with
  | nil => exact ⟨linked.agent.files.executedActions, rfl⟩
  | cons action rest ih =>
    obtain ⟨executed, hrest⟩ := ih (handleAction env link liveHash linked action)
    obtain ⟨first, hfirst⟩ := handleAction_files env link liveHash linked action
    refine ⟨executed, ?_⟩
    rw [List.foldl_cons, hrest, hfirst]

variable {linked : Linked σ μ}

theorem handleActions_manager {P : μ → Prop}
    (hreport : ∀ req manager, P manager → P (link.reportResult req manager)) (liveHash : String)
    (actions : List PendingActionDto) (hlinked : P linked.manager) :
    P (actions.foldl (handleAction env link liveHash) linked).manager := by
  induction actions generalizing linked with
  | nil => exact hlinked
  | cons action rest ih =>
    refine ih ?_
    unfold handleAction
    split
    next => exact hreport _ _ hlinked
    next => exact hreport _ _ hlinked

theorem afterCheckIn_manager {P : μ → Prop}
    (hreport : ∀ req manager, P manager → P (link.reportResult req manager)) (now : Nat)
    (liveHash : String) (drift : Bool) (response : CheckInResponse) (hlinked : P linked.manager) :
    P (afterCheckIn env link now liveHash drift response linked).manager := by
  refine handleActions_manager hreport liveHash response.pendingActions ?_
  dsimp only [reportApply]
  split
  next => exact hreport _ _ hlinked
  next => exact hlinked

theorem afterCheckIn_of_quiet {now : Nat} {liveHash : String}
    (hplan : planApply (linked.agent.settled now response).files drift response = none)
    (hactions : response.pendingActions = []) :
    afterCheckIn env link now liveHash drift response linked =
      ⟨linked.agent.settled now response, linked.manager⟩ := by
  rw [afterCheckIn, applyStep_of_no_plan hplan, hactions]
  rfl

/-- The world of a cycle's check-in. -/
def probedWorld (env : AgentEnv σ) (world : World σ) : World σ :=
  (probe env world).2

/-- The agent of a cycle's check-in. -/
def Agent.probed (agent : Agent σ) (env : AgentEnv σ) : Agent σ :=
  { agent with world := probedWorld env agent.world }

theorem probe_eq_of_fst {world : World σ} {result : Except String String}
    (h : (probe env world).1 = result) : probe env world = (result, probedWorld env world) :=
  Prod.ext h rfl

/-- The body of a check-in says nothing about the host. -/
theorem checkInRequest_probed (input : CycleInput) (agent : Agent σ) (drift : Bool) :
    checkInRequest env input (agent.probed env) drift = checkInRequest env input agent drift :=
  rfl

/-- A cycle whose check-in succeeds. -/
theorem runPullCycle_of_response {input : CycleInput} {liveHash : String} {manager : μ}
    (hprobe : (probe env linked.agent.world).1 = .ok liveHash)
    (hresponse : link.checkIn (checkInRequest env input linked.agent
      (localDrift linked.agent.files liveHash)) linked.manager = (some response, manager)) :
    runPullCycle env link input linked =
      (.ok (localDrift linked.agent.files liveHash),
        afterCheckIn env link input.now liveHash (localDrift linked.agent.files liveHash) response
          ⟨linked.agent.probed env, manager⟩) := by
  rw [runPullCycle, probe_eq_of_fst hprobe]
  dsimp only
  rw [← Agent.probed, checkInRequest_probed, hresponse]

theorem runPullCycle_of_lost {input : CycleInput} {liveHash : String} {manager : μ}
    (hprobe : (probe env linked.agent.world).1 = .ok liveHash)
    (hlost : link.checkIn (checkInRequest env input linked.agent
      (localDrift linked.agent.files liveHash)) linked.manager = (none, manager)) :
    runPullCycle env link input linked =
      (.ok false, ⟨(linked.agent.probed env).onCheckInFailed env input.now, manager⟩) := by
  rw [runPullCycle, probe_eq_of_fst hprobe]
  dsimp only
  rw [← Agent.probed, checkInRequest_probed, hlost]

end Cycle

end FirewallManager
