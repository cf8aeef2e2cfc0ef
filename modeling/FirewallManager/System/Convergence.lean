import FirewallManager.System.Link

/-!
# Convergence to the assigned policy

After a cycle in which nothing fails, the agent should remember the assigned ruleset and the
assigned defaults as the ones it applied. The agent only applies an answer with at least one
rule, so an emptied policy, a removed assignment and a set that only has defaults are never
taken over. `cycle_converges_iff` says that these are the only exceptions.
-/

namespace FirewallManager

section Convergence

variable {σ : Type} {env : AgentEnv σ} {menv : ManagerEnv} {network : Network} {now : Nat}
  {input : CycleInput} {linked : Linked σ Database}

/-- The answer asks for an apply when the manager's policy is not the remembered one. -/
theorem cycleAnswer_changed {liveHash : String}
    (hdiffers : reportedRulesHash env.sha256 linked.agent.files.lastGood ≠
        linked.manager.targetHash menv env.hostId ∨
      cachedDefaults linked.agent.files ≠ linked.manager.targetDefaults menv env.hostId) :
    (cycleAnswer env menv now input linked liveHash).rulesChanged = true ∨
      cachedDefaults linked.agent.files ≠
        (cycleAnswer env menv now input linked liveHash).defaults := by
  refine hdiffers.imp_left fun hhash => ?_
  show rulesChanged _ _ = true
  exact bne_iff_ne.mpr hhash

/-- After a cycle in which nothing fails, the agent remembers the assigned ruleset and defaults
exactly when there is a rule to apply, or nothing was to be done for an empty ruleset. -/
theorem cycle_converges_iff (harrives : network.checkIn = .arrives)
    (hknown : linked.manager.hosts.has env.hostId = true)
    (hprobe : ∃ liveHash, (probe env linked.agent.world).1 = .ok liveHash)
    (hdiffers : reportedRulesHash env.sha256 linked.agent.files.lastGood ≠
        linked.manager.targetHash menv env.hostId ∨
      cachedDefaults linked.agent.files ≠ linked.manager.targetDefaults menv env.hostId)
    (hready : ApplyReady env linked.agent ⟨linked.manager.targetRules menv env.hostId,
      linked.manager.targetDefaults menv env.hostId⟩) :
    ((runPullCycle env (managerLink menv network now env.hostId) input
        linked).2.agent.files.lastGood = some (linked.manager.targetRules menv env.hostId) ∧
      cachedDefaults (runPullCycle env (managerLink menv network now env.hostId) input
        linked).2.agent.files = linked.manager.targetDefaults menv env.hostId) ↔
      linked.manager.targetRules menv env.hostId ≠ [] ∨
        (linked.agent.files.lastGood = some [] ∧
          cachedDefaults linked.agent.files = linked.manager.targetDefaults menv env.hostId) := by
  obtain ⟨liveHash, hprobe⟩ := hprobe
  obtain ⟨executed, hfiles⟩ := runPullCycle_files menv now input harrives hknown hprobe
  obtain ⟨-, hsame, hurl, hcidrs⟩ := cycleAgent_frame env menv now input linked liveHash
  rw [hfiles]
  -- An empty target is never applied, so the agent keeps what it had.
  by_cases hrules : linked.manager.targetRules menv env.hostId = []
  · have hnil : (cycleAnswer env menv now input linked liveHash).rules = [] :=
      List.map_eq_nil_iff.mp hrules
    obtain ⟨hlast, hdefaults⟩ := cycleApply_cached menv now input (Or.inl hnil)
    show (cycleApply env menv now input linked liveHash).2.files.lastGood = _ ∧
      cachedDefaults (cycleApply env menv now input linked liveHash).2.files = _ ↔ _
    rw [hlast, hdefaults, hrules]
    simp
  · have hplan : planApply (cycleAgent env menv now input linked liveHash).files
        (localDrift linked.agent.files liveHash) (cycleAnswer env menv now input linked liveHash) =
          some ⟨linked.manager.targetRules menv env.hostId,
            linked.manager.targetDefaults menv env.hostId⟩ := by
      rw [hsame]
      exact planApply_of_changed (fun hnil => hrules (List.map_eq_nil_iff.mpr hnil))
        (cycleAnswer_changed hdiffers)
    have hcycle : ApplyReady env (cycleAgent env menv now input linked liveHash)
        ⟨linked.manager.targetRules menv env.hostId,
          linked.manager.targetDefaults menv env.hostId⟩ :=
      ⟨hurl ▸ hready.endpoint, hcidrs ▸ hready.accepted, hready.locked, hurl ▸ hready.clean⟩
    obtain ⟨hash, happlied⟩ := hcycle.applyStep hplan
    rw [cycleApply, happlied]
    exact ⟨fun _ => Or.inl hrules, fun _ => ⟨rfl, rfl⟩⟩

end Convergence

/-- A digest that is never empty. -/
def markedDigest (bytes : List UInt8) : List UInt8 :=
  1 :: bytes

/-- A host on which every process succeeds and prints nothing. -/
def quietMachine : Machine Unit where
  exec := fun _ _ os => (⟨true, "", ""⟩, os)
  removeFile := fun _ os => (true, os)
  applyLock := fun os => (.ok (), os)

/-- An agent on that host, with UFW and a URL parser that knows one URL. -/
def quietEnv : AgentEnv Unit where
  text := dottedText
  parseUrl := fun url =>
    if url = "https://10.0.0.1:8443" then .ok ⟨some "10.0.0.1", some 8443⟩
    else .error "relative URL without a base"
  sha256 := markedDigest
  machine := quietMachine
  backend := ufwBackend markedDigest quietMachine
  hostId := ⟨1⟩

/-- The agent with the given state files. -/
def quietAgent (files : AgentFiles) : Agent Unit where
  world := ⟨(), []⟩
  files := files
  config := ⟨"https://10.0.0.1:8443", 900, 1, false, []⟩
  safeMode := ⟨some 0, false, 1800⟩
  intervalSecs := 900
  configVersion := 1

/-- What a cycle of the agent reads. -/
def quietInput : CycleInput :=
  ⟨100, "0.1.0", "", 100, none⟩

/-- A network that loses nothing. -/
def goodNetwork : Network where
  checkIn := .arrives
  report := fun _ => .arrives

/-- A manager with one host, which is assigned a set whose only group has the given rules. -/
def managerWith (rules : Table StoredRule.id) : Database :=
  { Database.empty with
    hosts := .singleton ⟨⟨1⟩, none, .healthy, none⟩
    ruleGroups := .singleton ⟨⟨3⟩, "base", ""⟩
    policySets := .singleton ⟨⟨4⟩, "servers", "", some .deny, none⟩
    setGroups := .singleton ⟨⟨4⟩, ⟨3⟩, 0⟩
    assignments := .singleton ⟨⟨1⟩, ⟨4⟩, none⟩
    rules := rules }

theorem quietEnv_endpoint :
    managerEndpoint quietEnv "https://10.0.0.1:8443" = .ok ("10.0.0.1", 8443) := by
  decide

theorem quiet_applyReady {files : AgentFiles} {plan : ApplyPlan}
    (hsplit : ∀ cmd ∈ (ufwCompile plan.rules ⟨"10.0.0.1", 8443, plan.defaults.defaultInputPolicy,
      plan.defaults.defaultOutputPolicy⟩).commands,
        ((Shlex.split cmd).bind List.head?).isSome = true) :
    ApplyReady quietEnv (quietAgent files) plan where
  endpoint := ⟨_, quietEnv_endpoint⟩
  accepted := fun rule _ => by
    have hnone (cidr : String) : ¬ TouchesProtected dottedText [] cidr := by
      rintro ⟨_, _, _, hmem, _⟩
      cases hmem
    rintro (⟨_, src, _, htouches⟩ | ⟨_, _, dst, _, htouches⟩)
    · exact hnone src htouches
    · exact hnone dst htouches
  locked := fun _ => rfl
  clean := fun endpoint hendpoint => by
    obtain rfl := Except.ok.inj (quietEnv_endpoint.symm.trans hendpoint)
    refine ufw_appliesCleanly (fun _ _ _ => rfl) fun cmd hcmd => ?_
    obtain ⟨program, hprogram⟩ := Option.isSome_iff_exists.mp (hsplit cmd hcmd)
    obtain ⟨words, hwords, hhead⟩ := Option.bind_eq_some_iff.mp hprogram
    exact ⟨program, words.tail, by rw [hwords, List.cons_head?_tail hhead]⟩

/-- A host runs the SSH rule, and its policy has been emptied. The hashes differ and nothing
fails, but the agent keeps the SSH rule as its ruleset. -/
theorem emptied_policy_not_applied :
    let linked : Linked Unit Database :=
      ⟨quietAgent ⟨some [decodeStored sshStored], none, none, []⟩, managerWith Table.empty⟩
    let menv := ManagerEnv.scan markedDigest
    reportedRulesHash markedDigest linked.agent.files.lastGood ≠
      linked.manager.targetHash menv ⟨1⟩ ∧
      ApplyReady quietEnv linked.agent
        ⟨linked.manager.targetRules menv ⟨1⟩, linked.manager.targetDefaults menv ⟨1⟩⟩ ∧
      linked.manager.targetRules menv ⟨1⟩ = [] ∧
      (runPullCycle quietEnv (managerLink menv goodNetwork 100 ⟨1⟩) quietInput
        linked).2.agent.files.lastGood = some [decodeStored sshStored] :=
  ⟨by decide +kernel, quiet_applyReady (by decide +kernel), rfl, rfl⟩

/-- A new host that is assigned the SSH rule. -/
def newHost : Linked Unit Database :=
  ⟨quietAgent ⟨none, none, none, []⟩, managerWith ⟨[sshStored], by decide⟩⟩

/-- The new host takes its policy over. -/
theorem cycle_converges_at_newHost :
    newHost.manager.targetRules (ManagerEnv.scan markedDigest) quietEnv.hostId =
      [decodeStored sshStored] ∧
      (runPullCycle quietEnv (managerLink (ManagerEnv.scan markedDigest)
        goodNetwork 100 quietEnv.hostId)
        quietInput newHost).2.agent.files.lastGood =
          some (newHost.manager.targetRules (ManagerEnv.scan markedDigest) quietEnv.hostId) ∧
      cachedDefaults (runPullCycle quietEnv
        (managerLink (ManagerEnv.scan markedDigest) goodNetwork 100 quietEnv.hostId)
        quietInput newHost).2.agent.files =
          newHost.manager.targetDefaults (ManagerEnv.scan markedDigest) quietEnv.hostId := by
  have hrules : newHost.manager.targetRules (ManagerEnv.scan markedDigest) quietEnv.hostId =
      [decodeStored sshStored] := by decide +kernel
  have hready : ApplyReady quietEnv newHost.agent
      ⟨newHost.manager.targetRules (ManagerEnv.scan markedDigest) quietEnv.hostId,
        newHost.manager.targetDefaults (ManagerEnv.scan markedDigest) quietEnv.hostId⟩ :=
    quiet_applyReady (by decide +kernel)
  refine ⟨hrules, (cycle_converges_iff rfl (by decide) ⟨_, rfl⟩ (Or.inl (by decide))
    hready).mpr (Or.inl ?_)⟩
  rw [hrules]
  exact List.cons_ne_nil _ _

end FirewallManager
