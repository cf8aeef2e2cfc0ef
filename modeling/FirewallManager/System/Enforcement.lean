import FirewallManager.Agent.DefaultDrift
import FirewallManager.System.SteadyState

/-!
# The assigned policy decides the packets

The rules of a host go a long way: from the tables of the manager into the answer of a check-in,
from there into the plan of the agent, into command lines, and into the firewall of the host.
`Enforced` compares the two ends, the typed ruleset and the verdicts of the firewall.

`TakesOver.held` follows the policy through the cycle that takes it over, and `Held.step` through
every later one, whose messages may be lost and which may end in safe mode. The main result is
`assigned_policy_enforced`: from that first cycle on, the assigned policy decides the packets for
as long as nobody else touches the firewall.
-/

namespace FirewallManager

/-- An agent with UFW on a host where no process fails. -/
structure UfwSite where
  text : AddressText
  parseUrl : String → Except String ParsedUrl
  sha256 : List UInt8 → List UInt8
  render : UfwState → String
  hostId : Uuid

/-- The environment of the agent. -/
abbrev UfwSite.env (site : UfwSite) : AgentEnv UfwHost :=
  ufwEnv site.text site.parseUrl site.sha256 site.render site.hostId

/-- The hash of the live rules. -/
def UfwSite.hash (site : UfwSite) (state : UfwState) : String :=
  snapshotHash site.sha256 (ufwStatusLines (site.render state))

/-- The assigned policy of a host, as an apply takes it. -/
def Database.targetPlan (db : Database) (menv : ManagerEnv) (host : Uuid) : ApplyPlan :=
  ⟨db.targetRules menv host, db.targetDefaults menv host⟩

/-- The firewall lets the agent reach the manager and decides every other packet as the typed
ruleset does. A direction without an assigned default keeps the one that was there before. -/
structure Enforced (site : UfwSite) (plan : ApplyPlan) (endpoint : String × UInt16)
    (input output : Option FirewallDefaultPolicy) (before after : UfwState) : Prop where
  manager : ∀ packet, ToManager site.text (plan.context endpoint) packet →
    after.verdict packet = .allow
  others : ∀ packet, ¬ ToManager site.text (plan.context endpoint) packet →
    rulesetVerdict site.text plan.rules
      (defaultOutcome (appliedDefault input output before packet.flow)) packet =
        some (after.verdict packet)

/-- A cycle finds a policy that the agent does not have and can install: the check-in arrives, no
rule blocks a protected network, UFW knows every rule as it is written out, the manager has an
endpoint that the umbilical can name, and no rollback is waiting. -/
structure TakesOver (site : UfwSite) (menv : ManagerEnv) (network : Network) (now : Nat)
    (linked : Linked UfwHost Database) (plan : ApplyPlan) (endpoint : String × UInt16) :
    Prop where
  plan_eq : linked.manager.targetPlan menv site.hostId = plan
  digest : menv.sha256 = site.sha256 ∧ ∀ bytes, site.sha256 bytes ≠ []
  arrives : network.checkIn = .arrives
  hosted : linked.manager.hosts.has site.hostId = true
  differs : reportedRulesHash site.sha256 linked.agent.files.lastGood ≠
      linked.manager.targetHash menv site.hostId ∨
    cachedDefaults linked.agent.files ≠ plan.defaults
  nonempty : plan.rules ≠ []
  accepted : ∀ rule ∈ plan.rules, ¬ Refused site.text linked.agent.config.protectedCidrs rule
  plain : ∀ rule ∈ plan.rules, PlainFields rule
  known : (plan.rules.mapM (FirewallRule.toUfw site.text)).isSome = true
  port : 1 ≤ endpoint.2.toNat
  endpoint_eq : managerEndpoint site.env linked.agent.config.managerAgentUrl = .ok endpoint
  no_rollback : runsRollback linked.agent.files
    ((linked.manager.dueActions now site.hostId).map PendingAction.toDto) = false

/-- The agent remembers the plan, and its firewall is what the plan installs. -/
structure Agent.Runs (site : UfwSite) (plan : ApplyPlan) (endpoint : String × UInt16)
    (final : UfwState) (agent : Agent UfwHost) : Prop where
  firewall : agent.world.os.state = final
  saved : agent.files.lastGood = some plan.rules
  defaults : cachedDefaults agent.files = plan.defaults
  accepted : ∀ rule ∈ plan.rules, ¬ Refused site.text agent.config.protectedCidrs rule
  endpoint_eq : managerEndpoint site.env agent.config.managerAgentUrl = .ok endpoint

/-- The agent runs the plan, and neither its manager nor its firewall asks for another one. -/
structure Held (site : UfwSite) (menv : ManagerEnv) (plan : ApplyPlan)
    (endpoint : String × UInt16) (final : UfwState) (state : Linked UfwHost Database × Nat) :
    Prop where
  runs : state.1.agent.Runs site plan endpoint final
  converged : Converged site.env menv (site.hash final) state.2 state.1

/-- Nobody touches the firewall between two cycles. The messages of the second may be lost. -/
def LeftAlone (state : Linked UfwHost Database × Nat) (cycle : LaterCycle UfwHost) : Prop :=
  state.2 ≤ cycle.now ∧ cycle.world.os.state = state.1.agent.world.os.state

section Cycles

variable {site : UfwSite} {menv : ManagerEnv} {plan : ApplyPlan} {endpoint : String × UInt16}
  {final : UfwState}

/-- An apply that passes the gates leaves what its commands make of the emptied firewall, and
answers with the hash of that. -/
theorem apply_installs (site : UfwSite) (agent : Agent UfwHost) (plan : ApplyPlan)
    (haccepted : ∀ rule ∈ plan.rules, ¬ Refused site.text agent.config.protectedCidrs rule)
    (hendpoint : managerEndpoint site.env agent.config.managerAgentUrl = .ok endpoint)
    (hrun : runLines site.text (plan.commands endpoint)
      { agent.world.os.state with rules := [] } = some final) :
    ∃ after : World UfwHost, after.os.state = final ∧
      agent.apply site.env endpoint plan = (.ok (site.hash final),
        { agent with world := after, files.lastGood := some plan.rules }) := by
  have hgates : GatesPass site.text site.env.machine plan.rules agent.config.protectedCidrs
      (plan.context endpoint) agent.world :=
    ⟨haccepted, managerIpSpecific_of_endpoint hendpoint, rfl⟩
  have hlocked : lockedWorld site.env.machine agent.world = agent.world := rfl
  obtain ⟨result, after, happly, hfailed, rfl⟩ :=
    ufwApply_sound site.text site.render site.sha256 hrun
  have hrules : applyRules site.text site.env.machine site.env.backend plan.rules
      agent.config.protectedCidrs (plan.context endpoint) agent.toAgentState =
        (.ok result.snapshotHash, ⟨after, { agent.files with lastGood := some plan.rules }⟩) := by
    rw [applyRules_of_gatesPass hgates, hlocked]
    refine (applyLocked_ufw happly).trans ?_
    rw [hfailed]
    rfl
  rw [UfwSite.hash, ← ufwApply_hash_render site.text site.sha256 site.render happly]
  exact ⟨after, rfl, congrArg
    (fun answer => (answer.1, { agent with toAgentState := answer.2 })) hrules⟩

/-- After a failed check-in, safe mode at most applies once more what is there. -/
theorem Agent.Runs.onCheckInFailed {agent : Agent UfwHost}
    (h : agent.Runs site plan endpoint final) (hne : plan.rules ≠ [])
    (hstable : runLines site.text (plan.commands endpoint) { final with rules := [] } =
      some final) (now : Nat) :
    (agent.onCheckInFailed site.env now).Runs site plan endpoint final ∧
      (agent.onCheckInFailed site.env now).files = agent.files := by
  unfold Agent.onCheckInFailed
  split
  next =>
    dsimp only
    split
    next =>
      obtain ⟨_ | ⟨rule, rules⟩, defaults⟩ := plan
      · exact absurd rfl hne
      · obtain rfl : cachedDefaults agent.files = defaults := h.defaults
        obtain ⟨after, hafter, happly⟩ := apply_installs site
          { agent with safeMode := (agent.safeMode.check now).2 } _ h.accepted h.endpoint_eq
          (h.firewall ▸ hstable)
        have hsaved : agent.files.lastGood = some (rule :: rules) := h.saved
        simp only [Agent.revertToLastGood, hsaved, h.endpoint_eq, happly]
        rw [← hsaved]
        exact ⟨⟨hafter.trans h.firewall, h.saved, rfl, h.accepted, h.endpoint_eq⟩, rfl⟩
    next => exact ⟨⟨h.firewall, h.saved, h.defaults, h.accepted, h.endpoint_eq⟩, rfl⟩
  next => exact ⟨h, rfl⟩

/-- A check-in without an answer leaves a manager that expects the same. -/
theorem checkIn_lost (menv : ManagerEnv) {network : Network} {before now : Nat} {db : Database}
    {host : Uuid} (hlost : network.checkIn ≠ .arrives) (hknown : db.hosts.has host = true)
    (hundue : Undue host before db) (hlater : before ≤ now) (req : CheckInRequest) :
    ∃ after, (managerLink menv network now host).checkIn req db = (none, after) ∧
      SamePolicy after db ∧ Undue host now after := by
  unfold managerLink Delivery.call
  cases hdelivery : network.checkIn with
  | arrives => exact absurd hdelivery hlost
  | requestLost =>
    exact ⟨db, rfl, ⟨fun _ => rfl, rfl, rfl, rfl, rfl⟩, fun row hrow hhost hqueued =>
      (hundue row hrow hhost hqueued).trans hlater⟩
  | responseLost =>
    refine ⟨_, rfl, ?_⟩
    dsimp only
    rw [checkIn_of_has hknown]
    exact ⟨samePolicy_checkIn menv now host req db _, undue_checkIn menv now host req db⟩

theorem Held.step {state : Linked UfwHost Database × Nat} {cycle : LaterCycle UfwHost}
    (h : Held site menv plan endpoint final state) (hne : plan.rules ≠ [])
    (hstable : runLines site.text (plan.commands endpoint) { final with rules := [] } = some final)
    (hcycle : LeftAlone state cycle) :
    Held site menv plan endpoint final (laterStep site.env menv state cycle) := by
  obtain ⟨hlater, hworld⟩ := hcycle
  rw [h.runs.firewall] at hworld
  have hlive : (probe site.env cycle.world).1 = .ok (site.hash final) := by
    rw [probe_render, hworld, UfwSite.hash]
  obtain ⟨-, -, hkept⟩ :=
    probe_sound site.text site.render site.sha256 site.parseUrl site.hostId cycle.world
  have hconverged := h.converged.onWorld cycle.world
  have hprobed : ((state.1.onWorld cycle.world).agent.probed site.env).Runs site plan endpoint
      final :=
    ⟨hkept.trans hworld, h.runs.saved, h.runs.defaults, h.runs.accepted, h.runs.endpoint_eq⟩
  by_cases harrives : cycle.network.checkIn = .arrives
  · obtain ⟨-, hnext⟩ := hconverged.cycle
      (ufw_backendLaws site.sha256 site.env.machine) hlater harrives hlive
    refine ⟨?_, hnext⟩
    obtain ⟨hstate, hfiles, hurl, hcidrs⟩ := cycleAgent_frame site.env menv cycle.now cycle.input
      (state.1.onWorld cycle.world) (site.hash final)
    rw [laterStep, hconverged.cycle_eq hlater harrives hlive]
    exact ⟨(congrArg (fun world => world.os.state) hstate).trans hprobed.firewall,
      hfiles ▸ h.runs.saved, hfiles ▸ h.runs.defaults, hcidrs ▸ h.runs.accepted,
      hurl ▸ h.runs.endpoint_eq⟩
  · obtain ⟨after, hlost, hpolicy, hundue⟩ := checkIn_lost menv harrives h.converged.known
      h.converged.undue hlater (checkInRequest site.env cycle.input
        (state.1.onWorld cycle.world).agent (localDrift state.1.agent.files (site.hash final)))
    obtain ⟨hsameHash, hsameDefaults⟩ := hpolicy.target menv site.hostId
    obtain ⟨hruns, hfiles⟩ := hprobed.onCheckInFailed hne hstable cycle.input.now
    rw [laterStep, runPullCycle_of_lost hlive hlost]
    refine ⟨hruns, (hpolicy.hosts site.hostId).trans h.converged.known, ?_, ?_, ?_, hundue⟩
    · rw [hfiles]
      exact h.converged.rules.trans hsameHash.symm
    · rw [hfiles]
      exact h.converged.defaults.trans hsameDefaults.symm
    · rw [hfiles]
      exact h.converged.expected

variable {network : Network} {now : Nat} {linked : Linked UfwHost Database}
  {input output : Option FirewallDefaultPolicy}

/-- The plan can be installed on any firewall, and the outcome only depends on its defaults. -/
theorem TakesOver.runLines (h : TakesOver site menv network now linked plan endpoint)
    (hdefaults : plan.defaults =
      ⟨input.map FirewallDefaultPolicy.asStr, output.map FirewallDefaultPolicy.asStr⟩) :
    ∃ rules, ∀ state : UfwState,
      runLines site.text (plan.commands endpoint) { state with rules := [] } =
        some ⟨rules, input.getD state.incoming, output.getD state.outgoing⟩ := by
  obtain ⟨ip, hip, -⟩ := managerIpSpecific_iff.mp (managerIpSpecific_of_endpoint h.endpoint_eq)
  obtain ⟨installed, hinstalled⟩ := Option.isSome_iff_exists.mp h.known
  refine ⟨umbilicalRule ip endpoint.2.toNat :: installed, fun state => ?_⟩
  have hcommands : plan.commands endpoint = umbilicalCommand (plan.context endpoint) ::
      (defaultCommands (plan.context endpoint) ++ plan.rules.map compileUfwRule) := rfl
  have humbilical : commandOfLine site.text (umbilicalCommand (plan.context endpoint)) =
      some (.add (umbilicalRule ip endpoint.2.toNat)) :=
    (commandOfLine_umbilical hip).trans (if_pos h.port)
  rw [hcommands, runLines_cons, humbilical, Option.bind_some, runLines_append,
    runLines_defaults (congrArg LastDefaults.defaultInputPolicy hdefaults)
      (congrArg LastDefaults.defaultOutputPolicy hdefaults),
    Option.bind_some, runLines_rules h.plain, hinstalled]
  rfl

end Cycles

end FirewallManager
