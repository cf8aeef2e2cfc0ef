import FirewallManager.Agent.SafeMode

/-!
# Applies that fail

The agent remembers what it has applied in three files: the saved ruleset, the defaults and the
expected hash. A cycle may apply a new policy, heal a drift or fall back to the saved ruleset, and
`cycleOutcome` is the outcome of that apply. The files are written after the last way to fail, so
only an apply that succeeds changes them (`remembers_runPullCycle`, and `remembers_run` for whole
runs).

`failed_apply_keeps_memory` adds what comes before the backend: a ruleset that one of the gates
refuses runs no command.
-/

namespace FirewallManager

/-- The two states of the files remember the same apply. -/
structure Remembers (before after : AgentFiles) : Prop where
  lastGood : after.lastGood = before.lastGood
  lastDefaults : after.lastDefaults = before.lastDefaults
  expectedHash : after.expectedHash = before.expectedHash

theorem Remembers.trans {first second third : AgentFiles} (h : Remembers first second)
    (h' : Remembers second third) : Remembers first third :=
  ⟨h'.lastGood.trans h.lastGood, h'.lastDefaults.trans h.lastDefaults,
    h'.expectedHash.trans h.expectedHash⟩

section Outcome

variable {σ μ : Type} (env : AgentEnv σ)

/-- The outcome of the apply of `revertToLastGood`, if it gets there. -/
def Agent.revertOutcome (agent : Agent σ) : Option (Except String String) :=
  match agent.files.lastGood with
  | some (rule :: rules) =>
    match managerEndpoint env agent.config.managerAgentUrl with
    | .ok endpoint =>
      some (agent.apply env endpoint ⟨rule :: rules, cachedDefaults agent.files⟩).1
    | .error _ => none
  | _ => none

/-- The outcome of the apply of `onCheckInFailed`. -/
def Agent.fallbackOutcome (agent : Agent σ) (now : Nat) : Option (Except String String) :=
  if agent.config.safeModeEnabled then
    let (silent, safeMode) := agent.safeMode.check now
    let agent := { agent with safeMode := safeMode }
    if silent then agent.revertOutcome env else none
  else none

/-- The outcome of the apply of a cycle, if it applies something. -/
def cycleOutcome (link : ManagerLink μ) (input : CycleInput) (linked : Linked σ μ) :
    Option (Except String String) :=
  match probe env linked.agent.world with
  | (.error _, _) => none
  | (.ok liveHash, world) =>
    let agent := { linked.agent with world := world }
    let drift := localDrift agent.files liveHash
    match link.checkIn (checkInRequest env input agent drift) linked.manager with
    | (none, _) => agent.fallbackOutcome env input.now
    | (some response, _) => (applyStep env drift response (agent.settled input.now response)).1

variable {env}

/-- A ruleset that a gate refuses changes nothing at all. -/
theorem applyRules_refused {text : AddressText} {machine : Machine σ} {backend : FirewallBackend σ}
    {rules : List FirewallRule} {protectedCidrs : List String} {ctx : ApplyContext}
    (state : AgentState σ)
    (h : checkRulesAgainstProtected text rules protectedCidrs ≠ .ok () ∨
      managerIpSpecific text ctx.managerIp = false) :
    ∃ message, applyRules text machine backend rules protectedCidrs ctx state =
      (.error message, state) := by
  unfold applyRules
  cases hcheck : checkRulesAgainstProtected text rules protectedCidrs with
  | error violations => exact ⟨_, rfl⟩
  | ok _ =>
    have hgate : ¬ managerIpSpecific text ctx.managerIp = true := by
      rw [h.resolve_left (not_not.mpr hcheck)]
      exact Bool.false_ne_true
    rw [if_neg hgate]
    exact ⟨_, rfl⟩

theorem remembers_applyStep {drift : Bool} {response : CheckInResponse} {agent : Agent σ}
    (h : ∀ hash, (applyStep env drift response agent).1 ≠ some (.ok hash)) :
    Remembers agent.files (applyStep env drift response agent).2.files := by
  cases hplan : planApply agent.files drift response with
  | none =>
    rw [applyStep_of_no_plan hplan]
    exact ⟨rfl, rfl, rfl⟩
  | some plan =>
    rcases (applyStep_of_plan hplan).2 with ⟨hash, hok, -⟩ | ⟨message, -, hfiles⟩
    · exact absurd hok (h hash)
    · rw [hfiles]
      exact ⟨rfl, rfl, rfl⟩

theorem remembers_revertToLastGood {agent : Agent σ}
    (h : ∀ hash, agent.revertOutcome env ≠ some (.ok hash)) :
    Remembers agent.files (agent.revertToLastGood env).files := by
  unfold Agent.revertOutcome at h
  unfold Agent.revertToLastGood
  split
  next rule rules hsaved =>
    rw [hsaved] at h
    split
    next endpoint hendpoint =>
      rw [hendpoint] at h
      rcases Agent.apply_files env agent endpoint ⟨rule :: rules, cachedDefaults agent.files⟩ with
        ⟨hash, hok, -⟩ | ⟨message, -, hfiles⟩
      · exact absurd (congrArg some hok) (h hash)
      · rw [hfiles]
        exact ⟨rfl, rfl, rfl⟩
    next => exact ⟨rfl, rfl, rfl⟩
  next => exact ⟨rfl, rfl, rfl⟩

theorem remembers_onCheckInFailed {agent : Agent σ} {now : Nat}
    (h : ∀ hash, agent.fallbackOutcome env now ≠ some (.ok hash)) :
    Remembers agent.files (agent.onCheckInFailed env now).files := by
  unfold Agent.fallbackOutcome at h
  unfold Agent.onCheckInFailed
  cases henabled : agent.config.safeModeEnabled with
  | false => exact ⟨rfl, rfl, rfl⟩
  | true =>
    rw [henabled, if_pos rfl] at h
    rw [if_pos rfl]
    dsimp only at h ⊢
    cases hsilent : (agent.safeMode.check now).1 with
    | false => exact ⟨rfl, rfl, rfl⟩
    | true =>
      rw [hsilent, if_pos rfl] at h
      rw [if_pos rfl]
      exact remembers_revertToLastGood h

theorem remembers_runPullCycle (link : ManagerLink μ) (input : CycleInput) (linked : Linked σ μ)
    (h : ∀ hash, cycleOutcome env link input linked ≠ some (.ok hash)) :
    Remembers linked.agent.files (runPullCycle env link input linked).2.agent.files := by
  unfold cycleOutcome at h
  unfold runPullCycle
  rcases hprobe : probe env linked.agent.world with ⟨result, world⟩
  rw [hprobe] at h
  cases result with
  | error e => exact ⟨rfl, rfl, rfl⟩
  | ok liveHash =>
    dsimp only at h ⊢
    split
    next manager hanswer =>
      rw [hanswer] at h
      exact remembers_onCheckInFailed h
    next response manager hanswer =>
      rw [hanswer] at h
      have hstep := remembers_applyStep h
      rw [(Agent.settled_frame _ input.now response).1] at hstep
      obtain ⟨executed, hactions⟩ := handleActions_files env link liveHash
        response.pendingActions _
      unfold afterCheckIn
      rw [hactions]
      exact ⟨hstep.lastGood, hstep.lastDefaults, hstep.expectedHash⟩

/-- A cycle toward a manager, which need not be the same for all cycles. -/
def pullStep (env : AgentEnv σ) (linked : Linked σ μ) (cycle : ManagerLink μ × CycleInput) :
    Linked σ μ :=
  (runPullCycle env cycle.1 cycle.2 linked).2

/-- Whatever the cycles of a run meet, only a successful apply changes what is remembered. -/
theorem remembers_run (start : Linked σ μ) (cycles : List (ManagerLink μ × CycleInput))
    (h : Runs.Meets (pullStep env) (fun linked cycle =>
      ∀ hash, cycleOutcome env cycle.1 cycle.2 linked ≠ some (.ok hash)) start cycles) :
    Remembers start.agent.files (Runs.run (pullStep env) start cycles).agent.files := by
  have hstep (linked : Linked σ μ) (cycle : ManagerLink μ × CycleInput)
      (hinv : Remembers start.agent.files linked.agent.files)
      (hfailed : ∀ hash, cycleOutcome env cycle.1 cycle.2 linked ≠ some (.ok hash)) :
      Remembers start.agent.files (pullStep env linked cycle).agent.files :=
    hinv.trans (remembers_runPullCycle cycle.1 cycle.2 linked hfailed)
  exact Runs.run_invariant_end hstep ⟨rfl, rfl, rfl⟩ h

end Outcome

/-- **A refused or failed apply leaves the memory of the agent.** A ruleset that the protected
networks or the manager address refuse runs no command and changes neither the host nor a file. And
a cycle whose apply fails, in whatever way, leaves the saved ruleset, the defaults and the expected
hash as they were, so that every check-in after it reports the hash that the cycle has reported. -/
theorem failed_apply_keeps_memory {σ μ : Type} (env : AgentEnv σ) :
    (∀ (rules : List FirewallRule) (protectedCidrs : List String) (ctx : ApplyContext)
        (state : AgentState σ),
      checkRulesAgainstProtected env.text rules protectedCidrs ≠ .ok () ∨
          managerIpSpecific env.text ctx.managerIp = false →
        ∃ message, applyRules env.text env.machine env.backend rules protectedCidrs ctx state =
          (.error message, state)) ∧
      ∀ (link : ManagerLink μ) (input : CycleInput) (linked : Linked σ μ) (message : String),
        cycleOutcome env link input linked = some (.error message) →
          Remembers linked.agent.files (runPullCycle env link input linked).2.agent.files ∧
          ∀ (next : CycleInput) (drift drift' : Bool),
            (checkInRequest env next (runPullCycle env link input linked).2.agent
                drift').rulesHash =
              (checkInRequest env input linked.agent drift).rulesHash := by
  refine ⟨fun rules protectedCidrs ctx state h => applyRules_refused state h, ?_⟩
  intro link input linked message hfailed
  have hkept : Remembers linked.agent.files
      (runPullCycle env link input linked).2.agent.files := by
    refine remembers_runPullCycle link input linked ?_
    intro hash hok
    rw [hfailed] at hok
    cases hok
  refine ⟨hkept, ?_⟩
  intro next drift drift'
  show reportedRulesHash env.sha256 _ = reportedRulesHash env.sha256 _
  rw [hkept.lastGood]

/-- An agent with the SSH rule in force, on a host where 10.0.0.0/8 is protected. -/
def rememberingAgent : Linked UfwHost Unit :=
  ⟨soundAgent ⟨[], .deny, .allow⟩ ⟨some [sshRule], some ⟨none, none⟩, none, []⟩ ["10.0.0.0/8"], ()⟩

/-- A manager that sends a policy against the protected network. -/
def refusedLink : ManagerLink Unit :=
  fixedLink (some (newRules [wireRule "deny" (some "10.0.0.0/8")] []))

/-- The policy is refused, and the SSH rule stays remembered. -/
theorem refused_policy_not_remembered :
    cycleOutcome soundEnv refusedLink ⟨100, "0.1.0", "", 100, none⟩ rememberingAgent =
        some (.error ("protected CIDR violations: Rule '' would block protected CIDR " ++
          "10.0.0.0/8 (deny)")) ∧
      Remembers rememberingAgent.agent.files (runPullCycle soundEnv refusedLink
        ⟨100, "0.1.0", "", 100, none⟩ rememberingAgent).2.agent.files := by
  have houtcome : cycleOutcome soundEnv refusedLink ⟨100, "0.1.0", "", 100, none⟩
      rememberingAgent = some (.error
        ("protected CIDR violations: Rule '' would block protected CIDR " ++
          "10.0.0.0/8 (deny)")) := by
    decide +kernel
  exact ⟨houtcome, ((failed_apply_keeps_memory soundEnv).2 _ _ _ _ houtcome).1⟩

end FirewallManager
