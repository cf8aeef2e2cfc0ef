import FirewallManager.Agent.Firewalld
import FirewallManager.Lib.Runs
import FirewallManager.System.Convergence

/-!
# The steady state

`Converged` relates an agent and its manager: what the agent remembers is what the manager
expects, and no action is waiting. A cycle whose apply succeeds establishes it
(`converged_of_applied`), whatever the agent was before. As long as the manager's policy stays
and the live firewall has the recorded hash, every further cycle only looks at the firewall and
keeps it (`Converged.cycle`, `steady_run`).

Both together are `next_cycle_quiet`. It needs little of a backend, and both backends have it
(`ufw_backendLaws`, `firewalld_backendLaws`). The hash comparison goes through four encodings of the
rules, and `targetHash_eq` is what makes it come out equal.
-/

namespace FirewallManager

open List

/-- What the steady state needs from a backend: its snapshot and its status only run queries, and
the hash of an apply survives being written to a file and trimmed. -/
structure BackendLaws {σ : Type} (backend : FirewallBackend σ) (isQuery : Exec → Prop) :
    Prop where
  snapshot : ∀ world, ∃ execs, (backend.snapshot world).2.ran = world.ran ++ execs ∧
    ∀ exec ∈ execs, isQuery exec
  status : ∀ world, ∃ execs, (backend.status world).2.ran = world.ran ++ execs ∧
    ∀ exec ∈ execs, isQuery exec
  trimmed : ∀ compiled world result, (backend.apply compiled world).1 = .ok result →
    Text.trim result.snapshotHash = result.snapshotHash

/-- The process asks UFW for its status. -/
def isUfwStatus (exec : Exec) : Prop :=
  exec.cmd = "ufw" ∧ exec.args.head? = some "status"

theorem ufw_backendLaws {σ : Type} (sha256 : List UInt8 → List UInt8) (machine : Machine σ) :
    BackendLaws (ufwBackend sha256 machine) isUfwStatus where
  snapshot := fun world => by
    obtain ⟨snapshot, heq⟩ := ufwSnapshot_eq sha256 machine world
    have hran := congrArg (fun answer => answer.2.ran) heq
    exact ⟨_, hran, forall_mem_singleton.mpr ⟨rfl, rfl⟩⟩
  status := fun world =>
    ⟨[⟨"ufw", ["status", "verbose"], _⟩], rfl, forall_mem_singleton.mpr ⟨rfl, rfl⟩⟩
  trimmed := fun compiled world result h => by
    obtain ⟨bytes, hhash⟩ := ufwApply_hash sha256 machine h
    rw [hhash, Text.trim_hexEncode]

/-- The process asks firewalld for its listing, its state or its default zone. -/
def isFirewalldQuery (exec : Exec) : Prop :=
  exec.cmd = "firewall-cmd" ∧
    exec.args ∈ [["--list-all"], ["--state"], ["--get-default-zone"]]

theorem firewalld_backendLaws {σ : Type} (sha256 : List UInt8 → List UInt8)
    (machine : Machine σ) : BackendLaws (firewalldBackend sha256 machine) isFirewalldQuery where
  snapshot := fun world => by
    obtain ⟨snapshot, heq⟩ := firewalldSnapshot_eq sha256 machine world
    have hran := congrArg (fun answer => answer.2.ran) heq
    exact ⟨_, hran, forall_mem_singleton.mpr ⟨rfl, by simp⟩⟩
  status := fun world => by
    refine ⟨[⟨"firewall-cmd", ["--state"], _⟩, ⟨"firewall-cmd", ["--get-default-zone"], _⟩],
      append_assoc world.ran [_] [_], ?_⟩
    exact forall_mem_cons.mpr
      ⟨⟨rfl, by simp⟩, forall_mem_singleton.mpr ⟨rfl, by simp⟩⟩
  trimmed := fun compiled world result h => by
    obtain ⟨bytes, hhash⟩ := firewalldApply_hash sha256 machine h
    rw [hhash, Text.trim_hexEncode]

theorem targetHash_eq {menv : ManagerEnv} {db : Database} {host : Uuid}
    (hrules : db.targetRules menv host ≠ []) :
    db.targetHash menv host = reportedRulesHash menv.sha256 (some (db.targetRules menv host)) := by
  unfold Database.targetRules Database.targetHash at *
  cases hset : db.assignedSet menv host with
  | none => simp [hset, Database.assignedRows] at hrules
  | some set =>
    have hdecoded : ((db.assignedRows (some set)).map ruleToDto).map dtoToRule =
        (db.compiledRules set).map decodeStored := by
      simp only [Database.assignedRows, Database.fetchRulesForPolicySet, map_map]
      rfl
    rw [hdecoded, ← expectedHash_eq]
    rfl

/-- The agent is in step with the manager: it remembers the assigned ruleset and defaults, the
hash of the firewall it left, and is due no action. -/
structure Converged {σ : Type} (env : AgentEnv σ) (menv : ManagerEnv) (hash : String) (now : Nat)
    (linked : Linked σ Database) : Prop where
  known : linked.manager.hosts.has env.hostId = true
  rules : reportedRulesHash env.sha256 linked.agent.files.lastGood =
    linked.manager.targetHash menv env.hostId
  defaults : cachedDefaults linked.agent.files = linked.manager.targetDefaults menv env.hostId
  expected : loadExpectedHash linked.agent.files = some hash
  undue : Undue env.hostId now linked.manager

section Cycles

variable {σ : Type} {env : AgentEnv σ} {menv : ManagerEnv} {network : Network} {now : Nat}
  {input : CycleInput} {linked : Linked σ Database} {liveHash hash : String}

variable {isQuery : Exec → Prop}

theorem cycleApply_ok (hlaws : BackendLaws env.backend isQuery)
    (happly : (cycleApply env menv now input linked liveHash).1 = some (.ok hash)) :
    Text.trim hash = hash ∧
      ∃ plan, planApply linked.agent.files (localDrift linked.agent.files liveHash)
          (cycleAnswer env menv now input linked liveHash) = some plan ∧
        (cycleApply env menv now input linked liveHash).2.files =
          linked.agent.files.applied plan hash := by
  obtain ⟨-, hsame, -, -⟩ := cycleAgent_frame env menv now input linked liveHash
  obtain ⟨plan, hplan, hok, hfiles⟩ := applyStep_ok happly
  obtain ⟨compiled, world, result, hresult, hhash⟩ := applyRules_hash hok
  rw [hsame] at hplan hfiles
  refine ⟨?_, plan, hplan, hfiles⟩
  rw [← hhash]
  exact hlaws.trimmed compiled world result hresult

theorem plan_on_target (hsha : menv.sha256 = env.sha256)
    (hrules : linked.manager.targetRules menv env.hostId ≠ []) {drift : Bool} {plan : ApplyPlan}
    (hplan : planApply linked.agent.files drift (cycleAnswer env menv now input linked liveHash) =
      some plan) :
    reportedRulesHash env.sha256 (some plan.rules) = linked.manager.targetHash menv env.hostId ∧
      plan.defaults = linked.manager.targetDefaults menv env.hostId := by
  -- A plan is the cached policy when the answer brings no change, and the answer's otherwise.
  by_cases hquiet : (cycleAnswer env menv now input linked liveHash).rulesChanged = false ∧
      cachedDefaults linked.agent.files = (cycleAnswer env menv now input linked liveHash).defaults
  · obtain ⟨hlast, hdefaults⟩ := planApply_cached (Or.inr hquiet) hplan
    rw [← hlast]
    refine ⟨?_, hdefaults.trans hquiet.2⟩
    have hunchanged : rulesChanged (reportedRulesHash env.sha256 linked.agent.files.lastGood)
        (linked.manager.targetHash menv env.hostId) = false := hquiet.1
    exact bne_eq_false_iff_eq.mp hunchanged
  · have hchanged : (cycleAnswer env menv now input linked liveHash).rulesChanged = true ∨
        cachedDefaults linked.agent.files ≠
          (cycleAnswer env menv now input linked liveHash).defaults := by
      rw [← Bool.not_eq_false, ← not_and_or]
      exact hquiet
    rw [planApply_of_changed (fun hnil => hrules (map_eq_nil_iff.mpr hnil)) hchanged] at hplan
    obtain rfl := Option.some.inj hplan
    rw [targetHash_eq hrules, hsha]
    exact ⟨rfl, rfl⟩

/-- The same agent and manager, on a host that went on by itself. -/
def Linked.onWorld {μ : Type} (linked : Linked σ μ) (world : World σ) : Linked σ μ :=
  { linked with agent := { linked.agent with world := world } }

/-- A cycle that finds nothing to do and only looks at the firewall. -/
structure QuietCycle (env : AgentEnv σ) (menv : ManagerEnv) (network : Network) (now : Nat)
    (input : CycleInput) (liveHash : String) (isQuery : Exec → Prop) (linked : Linked σ Database) :
    Prop where
  rulesUnchanged : (cycleAnswer env menv now input linked liveHash).rulesChanged = false
  defaultsUnchanged :
    defaultsChanged linked.agent.files (cycleAnswer env menv now input linked liveHash) = false
  noDrift : localDrift linked.agent.files liveHash = false
  returns : (runPullCycle env (managerLink menv network now env.hostId) input linked).1 = .ok false
  queriesOnly : ∃ execs,
    (runPullCycle env (managerLink menv network now env.hostId) input linked).2.agent.world.ran =
      linked.agent.world.ran ++ execs ∧ ∀ exec ∈ execs, isQuery exec

theorem probedWorld_ran (hlaws : BackendLaws env.backend isQuery) (world : World σ) :
    ∃ execs, (probedWorld env world).ran = world.ran ++ execs ∧ ∀ exec ∈ execs, isQuery exec := by
  obtain ⟨first, hfirst, hfirstQuery⟩ := hlaws.snapshot world
  unfold probedWorld probe
  split
  next after hsnapshot =>
    rw [hsnapshot] at hfirst
    exact ⟨first, hfirst, hfirstQuery⟩
  next snapshot after hsnapshot =>
    rw [hsnapshot] at hfirst
    obtain ⟨second, hsecond, hsecondQuery⟩ := hlaws.status after
    have hboth : (env.backend.status after).2.ran = world.ran ++ (first ++ second) := by
      rw [hsecond, hfirst, append_assoc]
    have hquery : ∀ exec ∈ first ++ second, isQuery exec := fun exec hexec =>
      (mem_append.mp hexec).elim (hfirstQuery exec) (hsecondQuery exec)
    split
    next hstatus =>
      rw [hstatus] at hboth
      exact ⟨_, hboth, hquery⟩
    next hstatus =>
      rw [hstatus] at hboth
      exact ⟨_, hboth, hquery⟩

theorem converged_of_applied (hlaws : BackendLaws env.backend isQuery)
    (hsha : menv.sha256 = env.sha256) (harrives : network.checkIn = .arrives)
    (hknown : linked.manager.hosts.has env.hostId = true)
    (hprobe : (probe env linked.agent.world).1 = .ok liveHash)
    (hrules : linked.manager.targetRules menv env.hostId ≠ [])
    (happly : (cycleApply env menv now input linked liveHash).1 = some (.ok hash))
    (hhash : hash ≠ "") :
    Converged env menv hash now
      (runPullCycle env (managerLink menv network now env.hostId) input linked).2 := by
  obtain ⟨htrim, plan, hplan, hsaved⟩ := cycleApply_ok hlaws happly
  obtain ⟨hreported, hdefaults⟩ := plan_on_target hsha hrules hplan
  obtain ⟨executed, hfiles⟩ := runPullCycle_files menv now input harrives hknown hprobe
  obtain ⟨hpolicy, hundue⟩ := runPullCycle_database menv now input harrives hknown hprobe
  obtain ⟨hsameHash, hsameDefaults⟩ := hpolicy.target menv env.hostId
  rw [hsaved] at hfiles
  refine ⟨(hpolicy.hosts env.hostId).trans hknown, ?_, ?_, ?_, hundue⟩
  · rw [hsameHash, hfiles]
    exact hreported
  · rw [hsameDefaults, hfiles]
    exact hdefaults
  · rw [hfiles]
    simp [loadExpectedHash, AgentFiles.applied, htrim, hhash]

variable {before : Nat}

/-- In step with the manager, a check-in brings nothing new. -/
theorem Converged.answer (h : Converged env menv hash before linked) (hlater : before ≤ now)
    (input : CycleInput) :
    (cycleAnswer env menv now input linked hash).rulesChanged = false ∧
      cachedDefaults linked.agent.files = (cycleAnswer env menv now input linked hash).defaults ∧
      (cycleAnswer env menv now input linked hash).pendingActions = [] := by
  refine ⟨bne_eq_false_iff_eq.mpr h.rules, h.defaults, ?_⟩
  show (linked.manager.dueActions now env.hostId).map PendingAction.toDto = []
  rw [h.undue.dueActions hlater, map_nil]

theorem Converged.no_drift (h : Converged env menv hash before linked) :
    localDrift linked.agent.files hash = false := by
  simp [localDrift, h.expected]

theorem Converged.cycle_eq (h : Converged env menv hash before linked) (hlater : before ≤ now)
    (harrives : network.checkIn = .arrives) (hlive : (probe env linked.agent.world).1 = .ok hash)
    (input : CycleInput) :
    runPullCycle env (managerLink menv network now env.hostId) input linked =
      (.ok false, ⟨cycleAgent env menv now input linked hash,
        cycleManager env menv now input linked hash⟩) := by
  obtain ⟨hrules, hdefaults, hactions⟩ := h.answer hlater input
  obtain ⟨-, hsame, -, -⟩ := cycleAgent_frame env menv now input linked hash
  have hplan : planApply (cycleAgent env menv now input linked hash).files false
      (cycleAnswer env menv now input linked hash) = none := by
    rw [hsame]
    exact planApply_of_quiet hrules hdefaults
  have hafter : afterCheckIn env (managerLink menv network now env.hostId) input.now hash false
      (cycleAnswer env menv now input linked hash)
      ⟨linked.agent.probed env, cycleManager env menv now input linked hash⟩ =
        ⟨cycleAgent env menv now input linked hash, cycleManager env menv now input linked hash⟩ :=
    afterCheckIn_of_quiet hplan hactions
  rw [runPullCycle_linked menv now input harrives h.known hlive, h.no_drift, hafter]

/-- In step with the manager and on an unmodified firewall, a cycle is quiet and stays in step. -/
theorem Converged.cycle (hlaws : BackendLaws env.backend isQuery)
    (h : Converged env menv hash before linked) (hlater : before ≤ now)
    (harrives : network.checkIn = .arrives) (hlive : (probe env linked.agent.world).1 = .ok hash) :
    QuietCycle env menv network now input hash isQuery linked ∧
      Converged env menv hash now
        (runPullCycle env (managerLink menv network now env.hostId) input linked).2 := by
  obtain ⟨hrules, hdefaults, -⟩ := h.answer hlater input
  obtain ⟨hpolicy, hundue⟩ := runPullCycle_database menv now input harrives h.known hlive
  obtain ⟨hsameHash, hsameDefaults⟩ := hpolicy.target menv env.hostId
  obtain ⟨hworld, hsame, -, -⟩ := cycleAgent_frame env menv now input linked hash
  have hcycle := h.cycle_eq hlater harrives hlive input
  have hfiles : (runPullCycle env (managerLink menv network now env.hostId) input
      linked).2.agent.files = linked.agent.files := by
    rw [hcycle]
    exact hsame
  constructor
  · refine ⟨hrules, defaultsChanged_eq_false_iff.mpr hdefaults, h.no_drift, ?_, ?_⟩
    · rw [hcycle]
    · rw [hcycle]
      show ∃ execs, (cycleAgent env menv now input linked hash).world.ran = _ ∧ _
      rw [hworld]
      exact probedWorld_ran hlaws linked.agent.world
  · refine ⟨(hpolicy.hosts env.hostId).trans h.known, ?_, ?_, ?_, hundue⟩
    · rw [hsameHash, hfiles]
      exact h.rules
    · rw [hsameDefaults, hfiles]
      exact h.defaults
    · rw [hfiles]
      exact h.expected

/-- What passes on the host between two cycles does not matter to agent and manager. -/
theorem Converged.onWorld (h : Converged env menv hash before linked) (world : World σ) :
    Converged env menv hash before (linked.onWorld world) :=
  ⟨h.known, h.rules, h.defaults, h.expected, h.undue⟩

/-- After a cycle whose check-in and apply succeeded, the next cycle on an unmodified firewall
finds neither a new policy nor new defaults nor a drift, and only looks at the firewall. The hash
the agent reports is the manager's, which is that of the decoded rules. -/
theorem next_cycle_quiet {isQuery : Exec → Prop} (hlaws : BackendLaws env.backend isQuery)
    (hsha : menv.sha256 = env.sha256) (harrives : network.checkIn = .arrives)
    (hknown : linked.manager.hosts.has env.hostId = true)
    (hprobe : (probe env linked.agent.world).1 = .ok liveHash)
    (hrules : linked.manager.targetRules menv env.hostId ≠ [])
    (happly : (cycleApply env menv now input linked liveHash).1 = some (.ok hash))
    (hhash : hash ≠ "") {nextNetwork : Network} {later : Nat} {nextInput : CycleInput}
    {nextWorld : World σ} (hlater : now ≤ later) (hagain : nextNetwork.checkIn = .arrives)
    (hlive : (probe env nextWorld).1 = .ok hash) :
    QuietCycle env menv nextNetwork later nextInput hash isQuery
        ((runPullCycle env (managerLink menv network now env.hostId) input
          linked).2.onWorld nextWorld) ∧
      reportedRulesHash env.sha256 (runPullCycle env (managerLink menv network now env.hostId)
        input linked).2.agent.files.lastGood = linked.manager.targetHash menv env.hostId ∧
      linked.manager.targetHash menv env.hostId =
        reportedRulesHash env.sha256 (some (linked.manager.targetRules menv env.hostId)) := by
  have hconverged : Converged env menv hash now
      (runPullCycle env (managerLink menv network now env.hostId) input linked).2 :=
    converged_of_applied hlaws hsha harrives hknown hprobe hrules happly hhash
  obtain ⟨hpolicy, -⟩ := runPullCycle_database menv now input harrives hknown hprobe
  refine ⟨((hconverged.onWorld nextWorld).cycle hlaws hlater hagain hlive).1, ?_, ?_⟩
  · rw [hconverged.rules]
    exact (hpolicy.target menv env.hostId).1
  · rw [targetHash_eq hrules, hsha]

/-- A later cycle, with the host it starts on. -/
structure LaterCycle (σ : Type) where
  world : World σ
  network : Network
  now : Nat
  input : CycleInput

/-- Agent, manager and time after a later cycle. -/
def laterStep (env : AgentEnv σ) (menv : ManagerEnv) (state : Linked σ Database × Nat)
    (cycle : LaterCycle σ) : Linked σ Database × Nat :=
  ((runPullCycle env (managerLink menv cycle.network cycle.now env.hostId) cycle.input
    (state.1.onWorld cycle.world)).2, cycle.now)

/-- The cycle is not earlier, its check-in arrives, and the live firewall has the hash. -/
def Undisturbed (env : AgentEnv σ) (hash : String) (state : Linked σ Database × Nat)
    (cycle : LaterCycle σ) : Prop :=
  state.2 ≤ cycle.now ∧ cycle.network.checkIn = .arrives ∧
    (probe env cycle.world).1 = .ok hash

/-- Once in step with its manager, an agent does nothing for as long as nothing changes. -/
theorem steady_run (hlaws : BackendLaws env.backend isQuery)
    (hstart : Converged env menv hash now linked) {cycles : List (LaterCycle σ)}
    (hcycles : Runs.Meets (laterStep env menv) (Undisturbed env hash) (linked, now) cycles) :
    Runs.Meets (laterStep env menv)
      (fun state cycle => QuietCycle env menv cycle.network cycle.now cycle.input hash isQuery
        (state.1.onWorld cycle.world)) (linked, now) cycles := by
  have hstep (state : Linked σ Database × Nat) (cycle : LaterCycle σ)
      (hstate : Converged env menv hash state.2 state.1)
      (hcycle : Undisturbed env hash state cycle) :
      QuietCycle env menv cycle.network cycle.now cycle.input hash isQuery
          (state.1.onWorld cycle.world) ∧
        Converged env menv hash (laterStep env menv state cycle).2
          (laterStep env menv state cycle).1 := by
    obtain ⟨hlater, harrives, hlive⟩ := hcycle
    exact (hstate.onWorld cycle.world).cycle hlaws hlater harrives hlive
  exact Runs.meets_of_invariant hstep hstart hcycles

end Cycles

/-- The new host applies the SSH rule in its first cycle, and its second cycle, a quarter of an
hour later, is quiet. -/
theorem next_cycle_quiet_at_newHost :
    (cycleApply quietEnv (ManagerEnv.scan markedDigest) 100 quietInput newHost
        (snapshotHash markedDigest (ufwStatusLines ""))).1 =
      some (.ok (snapshotHash markedDigest (ufwStatusLines ""))) ∧
      QuietCycle quietEnv (ManagerEnv.scan markedDigest) goodNetwork 1000 quietInput
        (snapshotHash markedDigest (ufwStatusLines "")) isUfwStatus
        ((runPullCycle quietEnv
          (managerLink (ManagerEnv.scan markedDigest) goodNetwork 100 quietEnv.hostId) quietInput
          newHost).2.onWorld ⟨(), []⟩) := by
  have happly : (cycleApply quietEnv (ManagerEnv.scan markedDigest) 100 quietInput newHost
        (snapshotHash markedDigest (ufwStatusLines ""))).1 =
      some (.ok (snapshotHash markedDigest (ufwStatusLines ""))) := by
    decide +kernel
  have hhash : snapshotHash markedDigest (ufwStatusLines "") ≠ Text.hexEncode [] := fun heq =>
    cons_ne_nil _ _ (Text.hexEncode_injective heq)
  have hrules : newHost.manager.targetRules (ManagerEnv.scan markedDigest)
      quietEnv.hostId ≠ [] := by
    decide
  exact ⟨happly, (next_cycle_quiet (ufw_backendLaws markedDigest quietMachine) rfl rfl (by decide)
    rfl hrules happly hhash (by decide) rfl rfl).1⟩

end FirewallManager
