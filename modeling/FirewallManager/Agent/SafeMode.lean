import FirewallManager.Agent.PullLoop
import FirewallManager.Lib.Runs
import FirewallManager.Ufw.FailStop

/-!
# Safe mode

A cycle whose check-in fails re-applies the saved ruleset once the manager has been silent for too
long. Every successful apply saves its ruleset, so the saved ruleset is the one that was applied
last, whether the manager could be reached under it or not.

`cycleEvents` reads off a cycle when the manager was reached, what was applied and what safe mode
went back to. `lastGood_runPullCycle` is the effect of a cycle on the saved ruleset, and
`lastGood_run` follows it through whole runs.
-/

namespace FirewallManager

/-- What counts about a cycle: a check-in succeeded on a host, a ruleset was applied with success,
or safe mode applies one. -/
inductive SafeModeEvent (σ : Type) where
  | contact (world : World σ)
  | applied (rules : List FirewallRule)
  | reverted (rules : List FirewallRule)

/-- The ruleset of the last successful apply, or the one that was saved at first. -/
def lastApplied {σ : Type} (initial : Option (List FirewallRule)) (log : List (SafeModeEvent σ)) :
    Option (List FirewallRule) :=
  log.foldl (fun last event =>
    match event with
    | .applied rules => some rules
    | _ => last) initial

section Events

variable {σ μ : Type} (env : AgentEnv σ)

/-- The ruleset that safe mode applies, if it applies one. -/
def Agent.fallback (agent : Agent σ) (now : Nat) : Option (List FirewallRule) :=
  if agent.config.safeModeEnabled && (agent.safeMode.check now).1 then
    match agent.files.lastGood, managerEndpoint env agent.config.managerAgentUrl with
    | some (rule :: rules), .ok _ => some (rule :: rules)
    | _, _ => none
  else none

/-- The ruleset that the apply of a cycle has applied with success. -/
def appliedRules (drift : Bool) (response : CheckInResponse) (agent : Agent σ) :
    Option (List FirewallRule) :=
  match (applyStep env drift response agent).1 with
  | some (.ok _) => (planApply agent.files drift response).map ApplyPlan.rules
  | _ => none

/-- The events of a cycle. -/
def cycleEvents (link : ManagerLink μ) (input : CycleInput) (linked : Linked σ μ) :
    List (SafeModeEvent σ) :=
  match probe env linked.agent.world with
  | (.error _, _) => []
  | (.ok liveHash, world) =>
    let agent := { linked.agent with world := world }
    let drift := localDrift agent.files liveHash
    match link.checkIn (checkInRequest env input agent drift) linked.manager with
    | (none, _) => ((agent.fallback env input.now).map SafeModeEvent.reverted).toList
    | (some response, _) =>
      .contact world :: ((appliedRules env drift response
        (agent.settled input.now response)).map SafeModeEvent.applied).toList

/-- An agent, its manager, and the events so far. -/
structure SafeModeHistory (σ μ : Type) where
  linked : Linked σ μ
  log : List (SafeModeEvent σ)

/-- What happens to an agent: a pull cycle toward some manager, or anything else. Between two cycles
the host, the manager, the settings and the clocks can change in any way, by a restart of the agent
or by hand, and only the saved ruleset stays. -/
inductive HostEvent (σ μ : Type) where
  | cycle (link : ManagerLink μ) (input : CycleInput)
  | between (agent : Agent σ) (manager : μ)

/-- The history after an event. -/
def safeModeStep (history : SafeModeHistory σ μ) : HostEvent σ μ → SafeModeHistory σ μ
  | .cycle link input =>
    ⟨(runPullCycle env link input history.linked).2,
      history.log ++ cycleEvents env link input history.linked⟩
  | .between agent manager =>
    { history with
      linked := ⟨{ agent with files := { agent.files with
        lastGood := history.linked.agent.files.lastGood } }, manager⟩ }

variable {env}

theorem lastGood_onCheckInFailed (agent : Agent σ) (now : Nat) :
    (agent.onCheckInFailed env now).files.lastGood = agent.files.lastGood := by
  have hrevert (agent : Agent σ) :
      (agent.revertToLastGood env).files.lastGood = agent.files.lastGood := by
    unfold Agent.revertToLastGood
    split
    next rule rules hsaved =>
      split
      next endpoint _ =>
        rcases Agent.apply_files env agent endpoint ⟨rule :: rules, cachedDefaults agent.files⟩ with
          ⟨hash, -, hfiles⟩ | ⟨message, -, hfiles⟩
        · rw [hfiles, hsaved]
        · rw [hfiles]
      next => rfl
    next => rfl
  unfold Agent.onCheckInFailed
  split
  next =>
    dsimp only
    -- The clock of safe mode is no state file.
    have hclock : ({ agent with safeMode := (agent.safeMode.check now).2 } : Agent σ).files =
        agent.files := rfl
    split
    next => rw [hrevert, hclock]
    next => rfl
  next => rfl

theorem lastGood_applyStep (drift : Bool) (response : CheckInResponse) (agent : Agent σ) :
    (applyStep env drift response agent).2.files.lastGood =
      ((appliedRules env drift response agent).map some).getD agent.files.lastGood := by
  unfold appliedRules
  cases hplan : planApply agent.files drift response with
  | none =>
    rw [applyStep_of_no_plan hplan]
    rfl
  | some plan =>
    rcases (applyStep_of_plan hplan).2 with ⟨hash, hok, hfiles⟩ | ⟨message, herror, hfiles⟩
    · rw [hok, hfiles]
      rfl
    · rw [herror, hfiles]
      rfl

/-- **The saved ruleset after a cycle** is the one that was applied last. -/
theorem lastGood_runPullCycle (link : ManagerLink μ) (input : CycleInput) (linked : Linked σ μ) :
    (runPullCycle env link input linked).2.agent.files.lastGood =
      lastApplied linked.agent.files.lastGood (cycleEvents env link input linked) := by
  unfold runPullCycle cycleEvents
  rcases probe env linked.agent.world with ⟨result, world⟩
  cases result with
  | error message => rfl
  | ok liveHash =>
    dsimp only
    rcases link.checkIn _ linked.manager with ⟨answer, manager⟩
    cases answer with
    | none =>
      dsimp only
      rw [lastGood_onCheckInFailed]
      cases Agent.fallback env _ input.now <;> rfl
    | some response =>
      dsimp only
      have hsettled :=
        Agent.settled_frame { linked.agent with world := world } input.now response
      obtain ⟨executed, hfiles⟩ := handleActions_files env link liveHash
        response.pendingActions ⟨(applyStep env (localDrift linked.agent.files liveHash)
          response (Agent.settled { linked.agent with world := world } input.now response)).2,
          reportApply env link liveHash (applyStep env (localDrift linked.agent.files liveHash)
            response (Agent.settled { linked.agent with world := world } input.now
              response)).1 manager⟩
      unfold afterCheckIn
      dsimp only
      rw [hfiles]
      show (applyStep env _ response _).2.files.lastGood = _
      rw [lastGood_applyStep, hsettled.1]
      cases appliedRules env _ response _ <;> rfl

theorem lastGood_safeModeStep (env : AgentEnv σ) {initial : Option (List FirewallRule)}
    {history : SafeModeHistory σ μ}
    (h : history.linked.agent.files.lastGood = lastApplied initial history.log)
    (event : HostEvent σ μ) :
    (safeModeStep env history event).linked.agent.files.lastGood =
      lastApplied initial (safeModeStep env history event).log := by
  cases event with
  | between agent manager => exact h
  | cycle link input =>
    show (runPullCycle env link input history.linked).2.agent.files.lastGood = _
    rw [lastGood_runPullCycle, h]
    exact (List.foldl_append ..).symm

/-- In every run the saved ruleset is the one applied last. -/
theorem lastGood_run (env : AgentEnv σ) (start : Linked σ μ) (events : List (HostEvent σ μ)) :
    (Runs.run (safeModeStep env) ⟨start, []⟩ events).linked.agent.files.lastGood =
      lastApplied start.agent.files.lastGood
        (Runs.run (safeModeStep env) ⟨start, []⟩ events).log := by
  induction events using List.reverseRecOn with
  | nil => rfl
  | append_singleton events event ih =>
    rw [Runs.run_concat]
    exact lastGood_safeModeStep env ih event

end Events

/-- UFW on a host where no process fails, with an empty status text. -/
def soundMachine : Machine UfwHost :=
  ufwMachine dottedText ⟨fun _ _ => false, fun _ => "", fun _ => true⟩ fun _ => ""

/-- An agent on that host, whose manager has one address. -/
def soundEnv : AgentEnv UfwHost where
  text := dottedText
  parseUrl := fun url =>
    if url = "https://10.0.0.1:8443" then .ok ⟨some "10.0.0.1", some 8443⟩
    else .error "relative URL without a base"
  sha256 := id
  machine := soundMachine
  backend := ufwBackend id soundMachine
  hostId := ⟨1⟩

/-- An agent that has reached its manager at second 0. -/
def soundAgent (state : UfwState) (files : AgentFiles) (protectedCidrs : List String) :
    Agent UfwHost where
  world := ⟨⟨state, 0⟩, []⟩
  files := files
  config := ⟨"https://10.0.0.1:8443", 900, 1, true, protectedCidrs⟩
  safeMode := ⟨some 0, false, 1800⟩
  intervalSecs := 900
  configVersion := 1

/-- A manager that gives every check-in the same answer. -/
def fixedLink (answer : Option CheckInResponse) : ManagerLink Unit where
  checkIn := fun _ manager => (answer, manager)
  reportResult := fun _ manager => manager

/-- A rule of the wire that accepts or blocks everything from a network. -/
def wireRule (action : String) (srcCidr : Option String) : RuleDto where
  id := ⟨7⟩
  name := ""
  action := action
  direction := "in"
  protocol := "any"
  srcCidr := srcCidr
  srcPortStart := none
  srcPortEnd := none
  dstCidr := none
  dstPortStart := none
  dstPortEnd := none
  interfaceIn := none
  interfaceOut := none
  priority := 100
  log := false

/-- An answer with new rules and with pending actions. -/
def newRules (rules : List RuleDto) (actions : List PendingActionDto) : CheckInResponse :=
  ⟨true, rules, none, actions, none, none⟩

end FirewallManager
