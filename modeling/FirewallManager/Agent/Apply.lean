import FirewallManager.Agent.ProtectedCidrs
import FirewallManager.Agent.Ufw
import FirewallManager.Net.Dotted

/-!
# Applying a ruleset under the agent's gates

`applyRules` checks the protected CIDRs and the manager address, takes the apply lock, and
hands the ruleset to the backend. Success saves the ruleset as the last-known-good one
(`applyRules_files`).

On the UFW backend, success means that the reset, the enable and every compiled command
succeeded, unless the reset or the enable fails: then the backend reports no failed command,
and success is reported although nothing was applied (`applyRules_truthful_iff`).
-/

namespace FirewallManager

/-- The default policies the agent last applied. -/
structure LastDefaults where
  defaultInputPolicy : Option String
  defaultOutputPolicy : Option String
  deriving DecidableEq, Repr

/-- The agent's state files, as their readers see them: the last-known-good ruleset, the last
defaults, the text of the expected-hash file, and the lines of the executed-actions log. -/
structure AgentFiles where
  lastGood : Option (List FirewallRule)
  lastDefaults : Option LastDefaults
  expectedHash : Option String
  executedActions : List String
  deriving DecidableEq

/-- The agent's host and its state files. -/
structure AgentState (σ : Type) where
  world : World σ
  files : AgentFiles

section Apply

variable {σ : Type} (text : AddressText) (machine : Machine σ) (backend : FirewallBackend σ)

/-- The manager address is a specific IP address. -/
def managerIpSpecific (managerIp : String) : Bool :=
  match text.parseAddr managerIp with
  | some ip => !ip.isUnspecified
  | none => false

/-- The world after the apply lock was requested. -/
def lockedWorld (world : World σ) : World σ :=
  { world with os := (machine.applyLock world.os).2 }

/-- Compile the ruleset and run it on the backend. A backend that counts no failed command has
applied the ruleset, whatever error text it reports. -/
def applyLocked (rules : List FirewallRule) (ctx : ApplyContext) (state : AgentState σ) :
    Except String String × AgentState σ :=
  match backend.compile rules ctx with
  | .error e => (.error ("Compile failed: " ++ e.message), state)
  | .ok compiled =>
    match backend.apply compiled state.world with
    | (.error e, world) => (.error ("Apply failed: " ++ e.message), { state with world := world })
    | (.ok result, world) =>
      if result.failed > 0 then
        (.error (toString result.failed ++ " rules failed to apply"),
          { state with world := world })
      else
        (.ok result.snapshotHash,
          ⟨world, { state.files with lastGood := some rules }⟩)

/-- Apply a ruleset: the protected-CIDR check, the manager-address gate, the lock, the backend. -/
def applyRules (rules : List FirewallRule) (protectedCidrs : List String) (ctx : ApplyContext)
    (state : AgentState σ) : Except String String × AgentState σ :=
  match checkRulesAgainstProtected text rules protectedCidrs with
  | .error violations =>
    (.error ("protected CIDR violations: " ++ String.intercalate "; " violations), state)
  | .ok () =>
    if managerIpSpecific text ctx.managerIp then
      match (machine.applyLock state.world.os).1 with
      | .error e =>
        (.error ("acquire apply lock: " ++ e),
          { state with world := lockedWorld machine state.world })
      | .ok () =>
        applyLocked backend rules ctx { state with world := lockedWorld machine state.world }
    else
      (.error ("cannot establish manager umbilical: manager_ip is not a specific IP (got \"" ++
        ctx.managerIp ++
        "\") — refusing to apply; re-enroll with an IP manager address"), state)

/-- The gates before the backend let the ruleset through. -/
structure GatesPass (rules : List FirewallRule) (protectedCidrs : List String)
    (ctx : ApplyContext) (world : World σ) : Prop where
  notRefused : ∀ rule ∈ rules, ¬ Refused text protectedCidrs rule
  specific : managerIpSpecific text ctx.managerIp = true
  locked : (machine.applyLock world.os).1 = .ok ()

/-- The backend compiles the ruleset and applies it without a failed command, wherever it
starts. -/
def AppliesCleanly (rules : List FirewallRule) (ctx : ApplyContext) : Prop :=
  ∃ compiled, backend.compile rules ctx = .ok compiled ∧
    ∀ world, ∃ result, (backend.apply compiled world).1 = .ok result ∧ result.failed = 0

variable {text machine backend}

variable {rules : List FirewallRule} {ctx : ApplyContext}

theorem AppliesCleanly.applyLocked (h : AppliesCleanly backend rules ctx) (state : AgentState σ) :
    ∃ hash, (applyLocked backend rules ctx state).1 = .ok hash := by
  obtain ⟨compiled, hcompile, happly⟩ := h
  obtain ⟨result, hresult, hfailed⟩ := happly state.world
  have hpair : backend.apply compiled state.world =
      (.ok result, (backend.apply compiled state.world).2) := Prod.ext hresult rfl
  refine ⟨result.snapshotHash, ?_⟩
  rw [FirewallManager.applyLocked, hcompile]
  dsimp only
  rw [hpair]
  simp [hfailed]

variable {protectedCidrs : List String}

theorem applyRules_of_gatesPass {state : AgentState σ}
    (h : GatesPass text machine rules protectedCidrs ctx state.world) :
    applyRules text machine backend rules protectedCidrs ctx state =
      applyLocked backend rules ctx { state with world := lockedWorld machine state.world } := by
  rw [applyRules, checkRules_ok_iff.mpr h.notRefused]
  simp only [h.specific, h.locked, if_true]

theorem applyRules_of_not_gatesPass {state : AgentState σ}
    (h : ¬ GatesPass text machine rules protectedCidrs ctx state.world) :
    (∃ message, (applyRules text machine backend rules protectedCidrs ctx state).1 =
        .error message) ∧
      (applyRules text machine backend rules protectedCidrs ctx state).2.files = state.files := by
  unfold applyRules
  split
  next => exact ⟨⟨_, rfl⟩, rfl⟩
  next hcheck =>
    split
    next hspecific =>
      split
      next => exact ⟨⟨_, rfl⟩, rfl⟩
      next hlock => exact absurd ⟨checkRules_ok_iff.mp hcheck, hspecific, hlock⟩ h
    next => exact ⟨⟨_, rfl⟩, rfl⟩

theorem applyLocked_files (rules : List FirewallRule) (ctx : ApplyContext)
    (state : AgentState σ) :
    (∃ hash, (applyLocked backend rules ctx state).1 = .ok hash ∧
        (applyLocked backend rules ctx state).2.files =
          { state.files with lastGood := some rules }) ∨
      (∃ message, (applyLocked backend rules ctx state).1 = .error message ∧
        (applyLocked backend rules ctx state).2.files = state.files) := by
  unfold applyLocked
  split
  next => exact Or.inr ⟨_, rfl, rfl⟩
  next =>
    split
    next => exact Or.inr ⟨_, rfl, rfl⟩
    next =>
      split
      next => exact Or.inr ⟨_, rfl, rfl⟩
      next => exact Or.inl ⟨_, rfl, rfl⟩

theorem applyRules_files (rules : List FirewallRule) (protectedCidrs : List String)
    (ctx : ApplyContext) (state : AgentState σ) :
    (∃ hash, (applyRules text machine backend rules protectedCidrs ctx state).1 = .ok hash ∧
        (applyRules text machine backend rules protectedCidrs ctx state).2.files =
          { state.files with lastGood := some rules }) ∨
      (∃ message,
        (applyRules text machine backend rules protectedCidrs ctx state).1 = .error message ∧
        (applyRules text machine backend rules protectedCidrs ctx state).2.files =
          state.files) := by
  by_cases h : GatesPass text machine rules protectedCidrs ctx state.world
  · rw [applyRules_of_gatesPass h]
    exact applyLocked_files rules ctx _
  · obtain ⟨⟨message, herror⟩, hfiles⟩ := applyRules_of_not_gatesPass h
    exact Or.inr ⟨message, herror, hfiles⟩

theorem applyRules_hash {state : AgentState σ} {hash : String}
    (h : (applyRules text machine backend rules protectedCidrs ctx state).1 = .ok hash) :
    ∃ compiled world result, (backend.apply compiled world).1 = .ok result ∧
      result.snapshotHash = hash := by
  by_cases hgates : GatesPass text machine rules protectedCidrs ctx state.world
  · rw [applyRules_of_gatesPass hgates] at h
    unfold applyLocked at h
    split at h
    next => cases h
    next compiled _ =>
      split at h
      next => cases h
      next result world hresult =>
        split at h
        next => cases h
        next => exact ⟨compiled, _, result, congrArg Prod.fst hresult, Except.ok.inj h⟩
  · obtain ⟨⟨message, herror⟩, -⟩ := applyRules_of_not_gatesPass hgates
    rw [herror] at h
    cases h

end Apply

section Truth

variable {σ : Type} {text : AddressText} {sha256 : List UInt8 → List UInt8} {machine : Machine σ}

/-- Between two traces stand the processes of a complete apply: a successful reset, after failed
ones if any, an enable and every command, in order and successful. -/
def AppliedInFull (commands : List String) (before after : List Exec) : Prop :=
  ∃ failures execs late,
    after = before ++ List.replicate failures (resetExec false) ++
      [resetExec true, enableExec true] ++ execs ++ late ∧
    AllSucceeded commands execs

theorem AppliedInFull.mem {commands : List String} {before execs : List Exec}
    (h : AppliedInFull commands before (before ++ execs)) :
    resetExec true ∈ execs ∧ enableExec true ∈ execs := by
  obtain ⟨failures, ran, late, heq, -⟩ := h
  have hexecs : execs = List.replicate failures (resetExec false) ++
      [resetExec true, enableExec true] ++ ran ++ late := by
    simpa [List.append_assoc] using heq
  rw [hexecs]
  simp

variable {rules : List FirewallRule} {ctx : ApplyContext}

theorem applyLocked_ufw {state : AgentState σ} {result : ApplyResult} {world : World σ}
    (h : ufwApply sha256 machine (ufwCompile rules ctx) state.world = (.ok result, world)) :
    applyLocked (ufwBackend sha256 machine) rules ctx state =
      if result.failed > 0 then
        (.error (toString result.failed ++ " rules failed to apply"),
          { state with world := world })
      else
        (.ok result.snapshotHash, ⟨world, { state.files with lastGood := some rules }⟩) := by
  simp only [applyLocked, ufwBackend, h]

theorem ufw_appliesCleanly (hexec : ∀ cmd args os, (machine.exec cmd args os).1.success = true)
    (hsplit : ∀ cmd ∈ (ufwCompile rules ctx).commands, ∃ program args,
      Shlex.split cmd = some (program :: args)) :
    AppliesCleanly (ufwBackend sha256 machine) rules ctx := by
  refine ⟨ufwCompile rules ctx, rfl, fun world => ?_⟩
  have hreset : ResetSucceeds machine world := by
    rw [ResetSucceeds, ufwForceReset_of_success machine (hexec _ _ _)]
    exact hexec _ _ _
  obtain ⟨happly, -⟩ :=
    ufwApply_of_enabled sha256 machine (ufwCompile rules ctx) hreset (hexec _ _ _)
  obtain ⟨hash, hreplay⟩ :=
    ufwReplay_eq sha256 machine (ufwCompile rules ctx) (enabledWorld machine world)
  refine ⟨_, congrArg Prod.fst (happly.trans hreplay), ?_⟩
  rw [runCommands_of_exec_success machine hexec hsplit]

theorem applyLocked_truthful (state : AgentState σ) (hreset : ResetSucceeds machine state.world)
    (henable : EnableSucceeds machine state.world) {hash : String}
    (hok : (applyLocked (ufwBackend sha256 machine) rules ctx state).1 = .ok hash) :
    AppliedInFull (ufwCompile rules ctx).commands state.world.ran
      (applyLocked (ufwBackend sha256 machine) rules ctx state).2.world.ran := by
  obtain ⟨happly, failures, hran⟩ :=
    ufwApply_of_enabled sha256 machine (ufwCompile rules ctx) hreset henable
  obtain ⟨snapshot, hreplay⟩ :=
    ufwReplay_eq sha256 machine (ufwCompile rules ctx) (enabledWorld machine state.world)
  obtain ⟨late, hlate⟩ :=
    replayedWorld_ran machine (ufwCompile rules ctx) (enabledWorld machine state.world)
  rw [applyLocked_ufw (happly.trans hreplay)] at hok ⊢
  by_cases hpos : (runCommands machine (ufwCompile rules ctx).commands ⟨0, 0, []⟩
      (enabledWorld machine state.world)).1.failed > 0
  · simp [hpos] at hok
  · rw [if_neg hpos]
    obtain ⟨execs, hexecs, hcommands⟩ := allSucceeded_of_runCommands machine
      (Nat.le_of_not_gt hpos)
    refine ⟨failures, execs, late, ?_, hexecs⟩
    rw [hlate, hcommands, hran]

theorem applyLocked_untruthful (state : AgentState σ)
    (h : ¬ (ResetSucceeds machine state.world ∧ EnableSucceeds machine state.world)) :
    (applyLocked (ufwBackend sha256 machine) rules ctx state).1 = .ok "" ∧
      ¬ AppliedInFull (ufwCompile rules ctx).commands state.world.ran
        (applyLocked (ufwBackend sha256 machine) rules ctx state).2.world.ran := by
  obtain ⟨error, execs, hresult, hran, hmissing⟩ :=
    ufwApply_of_not_enabled sha256 machine (ufwCompile rules ctx) h
  rw [applyLocked_ufw (Prod.ext hresult rfl), if_neg (Nat.lt_irrefl 0)]
  refine ⟨rfl, fun hfull => ?_⟩
  rw [hran] at hfull
  exact hmissing.elim (· hfull.mem.1) (· hfull.mem.2)

/-- A successful apply on the UFW backend was complete exactly when a gate refuses the ruleset,
so that nothing is reported as applied, or both the reset and the enable succeed. -/
theorem applyRules_truthful_iff (rules : List FirewallRule) (protectedCidrs : List String)
    (ctx : ApplyContext) (state : AgentState σ) :
    (∀ hash,
        (applyRules text machine (ufwBackend sha256 machine) rules protectedCidrs ctx state).1 =
            .ok hash →
          AppliedInFull (ufwCompile rules ctx).commands state.world.ran
            (applyRules text machine (ufwBackend sha256 machine) rules protectedCidrs ctx
              state).2.world.ran) ↔
      ¬ GatesPass text machine rules protectedCidrs ctx state.world ∨
        (ResetSucceeds machine (lockedWorld machine state.world) ∧
          EnableSucceeds machine (lockedWorld machine state.world)) := by
  by_cases hgates : GatesPass text machine rules protectedCidrs ctx state.world
  · rw [applyRules_of_gatesPass hgates]
    by_cases henabled : ResetSucceeds machine (lockedWorld machine state.world) ∧
        EnableSucceeds machine (lockedWorld machine state.world)
    · exact ⟨fun _ => Or.inr henabled,
        fun _ hash hok => applyLocked_truthful _ henabled.1 henabled.2 hok⟩
    · obtain ⟨hok, hnot⟩ := applyLocked_untruthful
        { state with world := lockedWorld machine state.world } henabled
      exact ⟨fun h => absurd (h "" hok) hnot, fun h => absurd h (by simp [hgates, henabled])⟩
  · obtain ⟨⟨message, herror⟩, -⟩ := applyRules_of_not_gatesPass hgates
    refine ⟨fun _ => Or.inl hgates, fun _ hash hok => ?_⟩
    rw [herror] at hok
    cases hok

end Truth

/-- A host whose ufw refuses to reset and accepts everything else. -/
def stuckMachine : Machine Unit where
  exec := fun _ args os => (⟨args != ["--force", "reset"], "", "ERROR: reset refused"⟩, os)
  removeFile := fun _ os => (false, os)
  applyLock := fun os => (.ok (), os)

/-- On that host the apply of the SSH rule reports success and saves the rule as last-known-good,
and the failed reset is the only process it ran. -/
theorem applyRules_untruthful_at_stuck_reset :
    (applyRules dottedText stuckMachine (ufwBackend id stuckMachine) [sshRule] []
        ⟨"10.0.0.1", 8443, none, none⟩ ⟨⟨(), []⟩, ⟨none, none, none, []⟩⟩).1 = .ok "" ∧
      (applyRules dottedText stuckMachine (ufwBackend id stuckMachine) [sshRule] []
        ⟨"10.0.0.1", 8443, none, none⟩ ⟨⟨(), []⟩, ⟨none, none, none, []⟩⟩).2.files.lastGood =
          some [sshRule] ∧
      (applyRules dottedText stuckMachine (ufwBackend id stuckMachine) [sshRule] []
        ⟨"10.0.0.1", 8443, none, none⟩ ⟨⟨(), []⟩, ⟨none, none, none, []⟩⟩).2.world.ran =
          [resetExec false] :=
  ⟨rfl, rfl, rfl⟩

end FirewallManager
