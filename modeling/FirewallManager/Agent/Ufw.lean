import FirewallManager.Agent.Backend

/-!
# The UFW backend

`ufwCompile` turns a ruleset into the command list of one apply: the umbilical first, then the
default policies the context names, then one command per rule. `ufwApply` resets and enables
UFW, replays the list and hashes the resulting status text.

A failed reset or enable ends the apply with `failed = 0` (`ufwApply_of_not_enabled`).
Otherwise the commands are replayed (`ufwApply_of_enabled`) and the counters are those of the
command loop (`ufwReplay_eq`).
-/

namespace FirewallManager

open List

/-- Format a port range as ufw's `port` value: a single port, or `start:end`. -/
def portRange : Option Int → Option Int → Option String
  | some s, some e => if s = e then some (toString s) else some (toString s ++ ":" ++ toString e)
  | some s, none => some (toString s)
  | none, _ => none

/-- A keyword with its value, or nothing. -/
def clause (keyword : String) : Option String → String
  | some value => " " ++ keyword ++ " " ++ value
  | none => ""

/-- The comment clause. Single quotes are dropped from the comment, since they delimit it. -/
def commentClause (comment : String) : String :=
  if comment = "" then ""
  else " comment '" ++ String.ofList (comment.toList.filter (· != '\'')) ++ "'"

/-- The interface that binds a rule, picked by its direction. -/
def FirewallRule.interface (rule : FirewallRule) : Option String :=
  if rule.direction = .out then rule.interfaceOut else rule.interfaceIn

/-- The protocol clause's value, absent for `any`. -/
def FirewallRule.protoWord (rule : FirewallRule) : Option String :=
  if rule.protocol = .any then none else some (Text.toLowercase rule.protocol.debugName)

/-- The action word of a command. -/
def ufwActionWord : FirewallAction → String
  | .allow => " allow"
  | .deny => " deny"
  | .reject => " reject"
  | .limit => " limit"
  | .masquerade => " masquerade"

/-- The command line of one rule. The direction is written only for outbound rules, since
inbound is ufw's default. -/
def compileUfwRule (rule : FirewallRule) : String :=
  "ufw" ++ ufwActionWord rule.action ++ (if rule.direction = .out then " out" else "") ++
    (if rule.log then " log" else "") ++ clause "on" rule.interface ++
    clause "proto" rule.protoWord ++ " from " ++ rule.srcCidr.getD "any" ++
    clause "port" (portRange rule.srcPortStart rule.srcPortEnd) ++ " to " ++
    rule.dstCidr.getD "any" ++ clause "port" (portRange rule.dstPortStart rule.dstPortEnd) ++
    commentClause rule.comment

/-- The outbound allow to the manager. -/
def umbilicalCommand (ctx : ApplyContext) : String :=
  "ufw allow out from any to " ++ ctx.managerIp ++ " port " ++ toString ctx.managerPort.toNat ++
    " proto tcp comment 'fw-mgr-umbilical'"

/-- The default-policy commands. An absent default leaves its direction untouched. -/
def defaultCommands (ctx : ApplyContext) : List String :=
  (ctx.defaultInputPolicy.map fun p => "ufw default " ++ p ++ " incoming").toList ++
    (ctx.defaultOutputPolicy.map fun p => "ufw default " ++ p ++ " outgoing").toList

/-- The command list of one apply: the umbilical, the defaults, the rules. -/
def ufwCompile (rules : List FirewallRule) (ctx : ApplyContext) : CompiledRules where
  commands := umbilicalCommand ctx :: (defaultCommands ctx ++ rules.map compileUfwRule)

theorem ufwCompile_nil (ctx : ApplyContext) :
    (ufwCompile [] ctx).commands = [umbilicalCommand ctx] ++ defaultCommands ctx := by
  simp [ufwCompile]

/-- The backup path in a reset collision error line. -/
def collidedUfwBackup (stderr : String) : Option String :=
  (Text.lines stderr).findSome? fun line =>
    (Text.afterStart "ERROR: '" (Text.trim line)).bind
      (Text.beforeEnd "' already exists. Aborting")

/-- Strip the leading `[ N] ` of a status line. -/
def stripRuleNumber (line : String) : String :=
  let trimmed := Text.trim line
  match trimmed.toList.dropWhile (· != ']') with
  | [] => trimmed
  | _ :: rest => Text.trim (String.ofList rest)

/-- The normalised lines of `ufw status numbered`: numbers stripped, blanks dropped, sorted. -/
def ufwStatusLines (stdout : String) : List String :=
  ((((Text.lines stdout).drop 2).map stripRuleNumber).filter (· ≠ "")).mergeSort (· ≤ ·)

/-- The hash of normalised status lines, each ended by a line feed. -/
def snapshotHash (sha256 : List UInt8 → List UInt8) (lines : List String) : String :=
  Text.hexEncode (sha256 (lines.flatMap fun line => Text.utf8 line ++ [10]))

section Machine

variable {σ : Type} (sha256 : List UInt8 → List UInt8) (machine : Machine σ)

/-- The retries of a reset that fails on a backup: remove the backup and reset again. -/
def ufwRetryReset : Nat → CmdOutput → World σ → CmdOutput × World σ
  | 0, output, world => (output, world)
  | rounds + 1, output, world =>
    if output.success then (output, world)
    else
      match collidedUfwBackup output.stderr with
      | none => (output, world)
      | some backup =>
        match machine.removeFile backup world.os with
        | (false, os) => (output, { world with os := os })
        | (true, os) =>
          let (retried, world') :=
            runCmd machine "ufw" ["--force", "reset"] { world with os := os }
          ufwRetryReset rounds retried world'

/-- `ufw --force reset`, retried up to eight times. -/
def ufwForceReset (world : World σ) : CmdOutput × World σ :=
  let (output, world') := runCmd machine "ufw" ["--force", "reset"] world
  ufwRetryReset machine 8 output world'

/-- The normalised live rules. A failed status command gives an empty hash. -/
def ufwSnapshot (world : World σ) : Except BackendError NormalizedSnapshot × World σ :=
  let (output, world') := runCmd machine "ufw" ["status", "numbered"] world
  if output.success then
    let lines := ufwStatusLines output.stdout
    (.ok ⟨lines, snapshotHash sha256 lines⟩, world')
  else (.ok ⟨[], ""⟩, world')

/-- Replay the commands on the enabled firewall, reload it and hash its new status. -/
def ufwReplay (compiled : CompiledRules) (world : World σ) :
    Except BackendError ApplyResult × World σ :=
  let (tally, world) := runCommands machine compiled.commands ⟨0, 0, []⟩ world
  let (_, world) := runCmd machine "ufw" ["reload"] world
  match ufwSnapshot sha256 machine world with
  | (.ok snapshot, world) =>
    (.ok ⟨tally.applied, tally.failed, snapshot.hash, tally.error⟩, world)
  | (.error e, world) => (.error e, world)

/-- Reset and enable the firewall, then replay the commands. -/
def ufwApply (compiled : CompiledRules) (world : World σ) :
    Except BackendError ApplyResult × World σ :=
  let (reset, world) := ufwForceReset machine world
  if reset.success then
    let (enable, world) := runCmd machine "ufw" ["--force", "enable"] world
    if enable.success then ufwReplay sha256 machine compiled world
    -- The error is in the text of the result, and the counters of both failures are zero.
    else (.ok ⟨0, 0, "", some ("ufw enable failed: " ++ enable.stderr)⟩, world)
  else (.ok ⟨0, 0, "", some ("ufw reset failed: " ++ reset.stderr)⟩, world)

/-- Reset the firewall. -/
def ufwReset (world : World σ) : Except BackendError Unit × World σ :=
  let (output, world') := ufwForceReset machine world
  (if output.success then .ok () else .error (.commandFailed output.stderr), world')

/-- The state UFW reports about itself. -/
def ufwStatus (world : World σ) : Except BackendError BackendStatus × World σ :=
  let (output, world') := runCmd machine "ufw" ["status", "verbose"] world
  (.ok {
    active := output.success && Text.contains "Status: active" output.stdout
    defaultPolicyIn :=
      if Text.contains "deny (incoming)" output.stdout then "deny" else "allow"
    defaultPolicyOut :=
      if Text.contains "allow (outgoing)" output.stdout then "allow" else "deny" }, world')

/-- The process of a reset. -/
def resetExec (success : Bool) : Exec :=
  ⟨"ufw", ["--force", "reset"], success⟩

/-- The process of an enable. -/
def enableExec (success : Bool) : Exec :=
  ⟨"ufw", ["--force", "enable"], success⟩

/-- The reset of an apply that starts in `world` succeeds, possibly after retries. -/
def ResetSucceeds (world : World σ) : Prop :=
  (ufwForceReset machine world).1.success = true

/-- The enable that follows the reset succeeds. -/
def EnableSucceeds (world : World σ) : Prop :=
  (runCmd machine "ufw" ["--force", "enable"] (ufwForceReset machine world).2).1.success = true

instance (world : World σ) : Decidable (ResetSucceeds machine world) :=
  inferInstanceAs (Decidable (_ = _))

instance (world : World σ) : Decidable (EnableSucceeds machine world) :=
  inferInstanceAs (Decidable (_ = _))

/-- The world in which the compiled commands of an apply start. -/
def enabledWorld (world : World σ) : World σ :=
  (runCmd machine "ufw" ["--force", "enable"] (ufwForceReset machine world).2).2

/-- The UFW backend. -/
def ufwBackend : FirewallBackend σ where
  name := "ufw"
  compile := fun rules ctx => .ok (ufwCompile rules ctx)
  apply := ufwApply sha256 machine
  snapshot := ufwSnapshot sha256 machine
  reset := ufwReset machine
  status := ufwStatus machine

theorem ufwForceReset_rule (pre : World σ → Prop) (post : CmdOutput → World σ → Prop)
    (hreset : ∀ world, pre world →
      post (runCmd machine "ufw" ["--force", "reset"] world).1
        (runCmd machine "ufw" ["--force", "reset"] world).2)
    (hremove : ∀ output world path, output.success = false → post output world →
      pre { world with os := (machine.removeFile path world.os).2 } ∧
        post output { world with os := (machine.removeFile path world.os).2 })
    (world : World σ) (hworld : pre world) :
    post (ufwForceReset machine world).1 (ufwForceReset machine world).2 := by
  have hretry (rounds : Nat) (output : CmdOutput) (world : World σ) (h : post output world) :
      post (ufwRetryReset machine rounds output world).1
        (ufwRetryReset machine rounds output world).2 := by
    -- On the rounds that are left. A round removes a backup and resets again, so `post` of the
    -- failed reset has to give `pre` of the next one.
    induction rounds generalizing output world with
    | zero => exact h
    | succ rounds ih =>
      rw [ufwRetryReset]
      split
      next => exact h
      next hfail =>
        split
        next => exact h
        next backup _ =>
          have hremoved := hremove output world backup (by simpa using hfail) h
          split
          next os hos => simpa [hos] using hremoved.2
          next os hos =>
            rw [hos] at hremoved
            exact ih _ _ (hreset _ hremoved.1)
  exact hretry 8 _ _ (hreset world hworld)

variable {world : World σ}

theorem ufwForceReset_of_success
    (h : (runCmd machine "ufw" ["--force", "reset"] world).1.success = true) :
    ufwForceReset machine world = runCmd machine "ufw" ["--force", "reset"] world := by
  have heq : ufwForceReset machine world =
      ufwRetryReset machine 8 (runCmd machine "ufw" ["--force", "reset"] world).1
        (runCmd machine "ufw" ["--force", "reset"] world).2 := rfl
  rw [heq, ufwRetryReset, if_pos h]

theorem ufwForceReset_ran (world : World σ) :
    ∃ failures, (ufwForceReset machine world).2.ran =
      world.ran ++ replicate failures (resetExec false) ++
        [resetExec (ufwForceReset machine world).1.success] := by
  refine ufwForceReset_rule machine
    (fun w => ∃ failures, w.ran = world.ran ++ replicate failures (resetExec false))
    (fun output w => ∃ failures, w.ran = world.ran ++
      replicate failures (resetExec false) ++ [resetExec output.success])
        ?_ ?_ world ⟨0, by simp⟩
  · rintro w ⟨failures, hran⟩
    exact ⟨failures, by rw [runCmd_ran, hran]; rfl⟩
  · rintro output w path hfail ⟨failures, hran⟩
    refine ⟨⟨failures + 1, ?_⟩, failures, hran⟩
    rw [hran, hfail, append_assoc, ← replicate_succ']

/-- The three ways through an apply. -/
theorem ufwApply_eq (compiled : CompiledRules) (world : World σ) :
    ufwApply sha256 machine compiled world =
      if ResetSucceeds machine world then
        if EnableSucceeds machine world then
          ufwReplay sha256 machine compiled (enabledWorld machine world)
        else
          (.ok ⟨0, 0, "", some ("ufw enable failed: " ++ (runCmd machine "ufw"
            ["--force", "enable"] (ufwForceReset machine world).2).1.stderr)⟩,
            enabledWorld machine world)
      else
        (.ok ⟨0, 0, "", some ("ufw reset failed: " ++ (ufwForceReset machine world).1.stderr)⟩,
          (ufwForceReset machine world).2) :=
  rfl

theorem enabledWorld_ran (world : World σ) :
    (enabledWorld machine world).ran = (ufwForceReset machine world).2.ran ++
      [enableExec (runCmd machine "ufw" ["--force", "enable"]
        (ufwForceReset machine world).2).1.success] :=
  rfl

theorem ufwApply_of_not_enabled (compiled : CompiledRules)
    (h : ¬ (ResetSucceeds machine world ∧ EnableSucceeds machine world)) :
    ∃ error execs, (ufwApply sha256 machine compiled world).1 = .ok ⟨0, 0, "", some error⟩ ∧
      (ufwApply sha256 machine compiled world).2.ran = world.ran ++ execs ∧
      (resetExec true ∉ execs ∨ enableExec true ∉ execs) := by
  obtain ⟨failures, hran⟩ := ufwForceReset_ran machine world
  rw [ufwApply_eq]
  by_cases hreset : ResetSucceeds machine world
  · have henable : ¬ EnableSucceeds machine world := fun henable => h ⟨hreset, henable⟩
    rw [if_pos hreset, if_neg henable]
    refine ⟨_, replicate failures (resetExec false) ++ [resetExec true, enableExec false],
      rfl, ?_, Or.inr (by simp [resetExec, enableExec])⟩
    rw [ResetSucceeds] at hreset
    rw [EnableSucceeds, Bool.not_eq_true] at henable
    simp [enabledWorld_ran, hran, hreset, henable]
  · rw [if_neg hreset]
    refine ⟨_, replicate (failures + 1) (resetExec false), rfl, ?_,
      Or.inl (by simp [resetExec])⟩
    rw [ResetSucceeds, Bool.not_eq_true] at hreset
    simp [hran, hreset, replicate_succ']

theorem ufwApply_of_enabled (compiled : CompiledRules) (hreset : ResetSucceeds machine world)
    (henable : EnableSucceeds machine world) :
    ufwApply sha256 machine compiled world =
        ufwReplay sha256 machine compiled (enabledWorld machine world) ∧
      ∃ failures, (enabledWorld machine world).ran =
        world.ran ++ replicate failures (resetExec false) ++
          [resetExec true, enableExec true] := by
  obtain ⟨failures, hran⟩ := ufwForceReset_ran machine world
  refine ⟨by rw [ufwApply_eq, if_pos hreset, if_pos henable], failures, ?_⟩
  rw [ResetSucceeds] at hreset
  rw [EnableSucceeds] at henable
  simp [enabledWorld_ran, hran, hreset, henable]

theorem ufwSnapshot_eq (world : World σ) :
    ∃ snapshot, ufwSnapshot sha256 machine world =
      (.ok snapshot, (runCmd machine "ufw" ["status", "numbered"] world).2) := by
  have heq : ufwSnapshot sha256 machine world =
      if (runCmd machine "ufw" ["status", "numbered"] world).1.success then
        (.ok ⟨ufwStatusLines (runCmd machine "ufw" ["status", "numbered"] world).1.stdout,
          snapshotHash sha256 (ufwStatusLines
            (runCmd machine "ufw" ["status", "numbered"] world).1.stdout)⟩,
          (runCmd machine "ufw" ["status", "numbered"] world).2)
      else (.ok ⟨[], ""⟩, (runCmd machine "ufw" ["status", "numbered"] world).2) := rfl
  rw [heq]
  split <;> exact ⟨_, rfl⟩

theorem ufwSnapshot_hash {snapshot : NormalizedSnapshot}
    (h : (ufwSnapshot sha256 machine world).1 = .ok snapshot) :
    ∃ bytes, snapshot.hash = Text.hexEncode bytes := by
  simp only [ufwSnapshot] at h
  split at h
  next =>
    obtain rfl := Except.ok.inj h
    exact ⟨_, rfl⟩
  next =>
    obtain rfl := Except.ok.inj h
    exact ⟨[], rfl⟩

/-- The world that a replay leaves: the loop, the reload and the status command. -/
def replayedWorld (compiled : CompiledRules) (world : World σ) : World σ :=
  (runCmd machine "ufw" ["status", "numbered"] (runCmd machine "ufw" ["reload"]
    (runCommands machine compiled.commands ⟨0, 0, []⟩ world).2).2).2

theorem ufwReplay_eq (compiled : CompiledRules) (world : World σ) :
    ∃ hash, ufwReplay sha256 machine compiled world =
      (.ok ⟨(runCommands machine compiled.commands ⟨0, 0, []⟩ world).1.applied,
          (runCommands machine compiled.commands ⟨0, 0, []⟩ world).1.failed, hash,
          (runCommands machine compiled.commands ⟨0, 0, []⟩ world).1.error⟩,
        replayedWorld machine compiled world) := by
  obtain ⟨snapshot, hsnapshot⟩ := ufwSnapshot_eq sha256 machine (runCmd machine "ufw" ["reload"]
    (runCommands machine compiled.commands ⟨0, 0, []⟩ world).2).2
  refine ⟨snapshot.hash, ?_⟩
  simp only [ufwReplay, hsnapshot, replayedWorld]

variable {compiled : CompiledRules}

theorem ufwApply_hash {result : ApplyResult}
    (h : (ufwApply sha256 machine compiled world).1 = .ok result) :
    ∃ bytes, result.snapshotHash = Text.hexEncode bytes := by
  rw [ufwApply_eq] at h
  split at h
  next =>
    split at h
    next =>
      simp only [ufwReplay] at h
      split at h
      next snapshot after hsnapshot =>
        obtain rfl := Except.ok.inj h
        exact ufwSnapshot_hash sha256 machine (congrArg Prod.fst hsnapshot)
      next => cases h
    next =>
      obtain rfl := Except.ok.inj h
      exact ⟨[], rfl⟩
  next =>
    obtain rfl := Except.ok.inj h
    exact ⟨[], rfl⟩

theorem replayedWorld_ran (compiled : CompiledRules) (world : World σ) :
    ∃ late, (replayedWorld machine compiled world).ran =
      (runCommands machine compiled.commands ⟨0, 0, []⟩ world).2.ran ++ late :=
  ⟨_, by rw [replayedWorld, runCmd_ran, runCmd_ran, append_assoc]⟩

theorem ufwReplay_invariant {inv : World σ → Prop}
    (hcommand : ∀ cmd ∈ compiled.commands, ∀ program args,
      Shlex.split cmd = some (program :: args) →
        ∀ world, inv world → inv (runCmd machine program args world).2)
    (hreload : ∀ world, inv world → inv (runCmd machine "ufw" ["reload"] world).2)
    (hstatus : ∀ world, inv world → inv (runCmd machine "ufw" ["status", "numbered"] world).2)
    (hworld : inv world) : inv (ufwReplay sha256 machine compiled world).2 := by
  obtain ⟨hash, heq⟩ := ufwReplay_eq sha256 machine compiled world
  rw [heq]
  exact hstatus _ (hreload _ (runCommands_invariant machine hcommand hworld _))

theorem ufwApply_invariant {inv : World σ → Prop} (hremove : ∀ path world, inv world →
      inv { world with os := (machine.removeFile path world.os).2 })
    (hfixed : ∀ args ∈ [["--force", "reset"], ["--force", "enable"], ["reload"],
      ["status", "numbered"]], ∀ world, inv world → inv (runCmd machine "ufw" args world).2)
    (hcommand : ∀ cmd ∈ compiled.commands, ∀ program args,
      Shlex.split cmd = some (program :: args) →
        ∀ world, inv world → inv (runCmd machine program args world).2) (hworld : inv world) :
    inv (ufwApply sha256 machine compiled world).2 := by
  have hreset : inv (ufwForceReset machine world).2 :=
    ufwForceReset_rule machine inv (fun _ w => inv w) (hfixed _ (by simp))
      (fun _ w path _ hw => ⟨hremove path w hw, hremove path w hw⟩) world hworld
  have henable : inv (enabledWorld machine world) := hfixed _ (by simp) _ hreset
  rw [ufwApply_eq]
  split
  next =>
    split
    next =>
      exact ufwReplay_invariant sha256 machine hcommand (hfixed _ (by simp)) (hfixed _ (by simp))
        henable
    next => exact henable
  next => exact hreset

end Machine

end FirewallManager
