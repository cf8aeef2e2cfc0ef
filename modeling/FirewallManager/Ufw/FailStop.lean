import FirewallManager.Ufw.Umbilical

/-!
# What a failed umbilical leads to

The apply loop goes on after a failed command, so a failed umbilical does not stop the commands
that close the outbound direction. `ufwMachine` is a host whose processes act on the UFW state
machine and fail in an arbitrary pattern.

An apply is fail-stop for every pattern exactly when no compiled command closes anything outbound
in the first place (`umbilical_failStop_iff`).
-/

namespace FirewallManager

open List

/-- A failure pattern: which processes fail, by their number and arguments, what they print then,
and which files can be removed. -/
structure Faults where
  fails : Nat → List String → Bool
  stderr : Nat → String
  removes : String → Bool

/-- A host with UFW on it, which counts its processes. -/
structure UfwHost where
  state : UfwState
  clock : Nat

/-- The UFW command that a process runs on the host, unless it fails. -/
def Faults.command (faults : Faults) (text : AddressText) (cmd : String) (args : List String)
    (host : UfwHost) : Option UfwCommand :=
  if cmd = "ufw" ∧ faults.fails host.clock args = false then parseUfw text args else none

/-- The operating system of the host. A process that fails leaves UFW unchanged. -/
def ufwMachine (text : AddressText) (faults : Faults) (render : UfwState → String) :
    Machine UfwHost where
  exec := fun cmd args host =>
    match faults.command text cmd args host with
    | some command => (⟨true, render host.state, ""⟩, ⟨host.state.step command, host.clock + 1⟩)
    | none => (⟨false, "", faults.stderr host.clock⟩, ⟨host.state, host.clock + 1⟩)
  removeFile := fun path host => (faults.removes path, host)
  applyLock := fun host => (.ok (), host)

/-- The command closes the outbound direction: an outgoing default of deny or reject, or an
outbound deny or reject rule. -/
def UfwCommand.blocksOut : UfwCommand → Bool
  | .setDefault policy .outbound => (defaultOutcome policy).blocks
  | .add rule => decide (rule.flow = .outbound) && rule.action.blocks
  | _ => false

/-- The process runs a command that closes the outbound direction. -/
def Exec.BlocksOut (text : AddressText) (exec : Exec) : Prop :=
  exec.cmd = "ufw" ∧ ∃ command, parseUfw text exec.args = some command ∧
    command.blocksOut = true

/-- Nothing outbound is blocked, neither by default nor by a rule. -/
structure UfwState.Open (state : UfwState) : Prop where
  outgoing : (defaultOutcome state.outgoing).blocks = false
  rules : ∀ rule ∈ state.rules, rule.flow = .outbound → rule.action.blocks = false

/-- An apply of the commands is fail-stop: for every failure pattern, an apply without a
successful umbilical closes nothing outbound, and traffic to the manager is blocked at the end
only by what was there before the apply, which is the outgoing default if the reset succeeded. -/
def FailStop (text : AddressText) (ctx : ApplyContext) (commands : List String) : Prop :=
  ∀ (sha256 : List UInt8 → List UInt8) (faults : Faults) (render : UfwState → String)
    (host : UfwHost) (after : World UfwHost),
    after = (ufwApply sha256 (ufwMachine text faults render) ⟨commands⟩ ⟨host, []⟩).2 →
      ((∀ exec ∈ after.ran, ¬ Succeeded (umbilicalCommand ctx) exec) →
        ∀ exec ∈ after.ran, exec.success = true → ¬ exec.BlocksOut text) ∧
      (ResetSucceeds (ufwMachine text faults render) ⟨host, []⟩ →
        (defaultOutcome host.state.outgoing).blocks = false →
          ∀ packet, ToManager text ctx packet →
            (after.os.state.verdict packet).blocks = false)

variable {text : AddressText} {faults : Faults} {render : UfwState → String}

theorem runCmd_ufwMachine (cmd : String) (args : List String) (world : World UfwHost) :
    (∃ command, cmd = "ufw" ∧ parseUfw text args = some command ∧
        (runCmd (ufwMachine text faults render) cmd args world).1.success = true ∧
        (runCmd (ufwMachine text faults render) cmd args world).2.os.state =
          world.os.state.step command) ∨
      ((runCmd (ufwMachine text faults render) cmd args world).1.success = false ∧
        (runCmd (ufwMachine text faults render) cmd args world).2.os.state =
          world.os.state) := by
  simp only [runCmd, ufwMachine]
  cases hcommand : faults.command text cmd args world.os with
  | none => exact Or.inr ⟨rfl, rfl⟩
  | some command =>
    unfold Faults.command at hcommand
    split at hcommand
    next h => exact Or.inl ⟨command, h.1, hcommand, rfl, rfl⟩
    next => cases hcommand

theorem runCmd_ufwMachine_success (cmd : String) (args : List String) (world : World UfwHost) :
    (runCmd (ufwMachine text faults render) cmd args world).1.success =
      (faults.command text cmd args world.os).isSome := by
  simp only [runCmd, ufwMachine]
  cases faults.command text cmd args world.os <;> rfl

variable {command : UfwCommand}

theorem UfwState.Open.step {state : UfwState} (h : state.Open)
    (hcommand : command.blocksOut = false) : (state.step command).Open := by
  cases command with
  | reset => exact ⟨h.outgoing, fun rule hrule => by cases hrule⟩
  | keep => exact h
  | setDefault policy flow =>
    cases flow with
    | inbound => exact ⟨h.outgoing, h.rules⟩
    | outbound => exact ⟨hcommand, h.rules⟩
  | add rule =>
    refine ⟨h.outgoing, fun other hother hflow => ?_⟩
    rcases mem_append.mp hother with hother | hother
    · exact h.rules other hother hflow
    · obtain rfl : other = rule := by simpa using hother
      simpa [UfwCommand.blocksOut, hflow] using hcommand

theorem UfwState.Open.verdict {state : UfwState} (h : state.Open) {packet : Packet}
    (hflow : packet.flow = .outbound) : (state.verdict packet).blocks = false := by
  rcases FirstMatch.verdict_cases UfwRule.hits UfwRule.action
    (defaultOutcome (state.default packet.flow)) state.rules packet with
    ⟨hdefault, -⟩ | ⟨rule, hrule, hhits, haction⟩
  · rw [UfwState.verdict, hdefault, hflow]
    exact h.outgoing
  · rw [UfwState.verdict, haction]
    refine h.rules rule hrule ?_
    simp only [UfwRule.hits, Bool.and_eq_true] at hhits
    exact (of_decide_eq_true hhits.1.1.1.1.1.1).trans hflow

/-- The fixed processes of an apply close nothing outbound. -/
theorem fixed_not_blocksOut {args : List String}
    (hargs : args ∈ [["--force", "reset"], ["--force", "enable"], ["reload"],
      ["status", "numbered"]]) (hparse : parseUfw text args = some command) :
    command.blocksOut = false := by
  simp only [mem_cons, not_mem_nil, or_false] at hargs
  rcases hargs with rfl | rfl | rfl | rfl <;> cases hparse <;> rfl

variable {sha256 : List UInt8 → List UInt8} {commands : List String}

theorem ufwApply_not_blocksOut
    (hlines : ∀ line ∈ commands, ∀ command, commandOfLine text line = some command →
      command.blocksOut = false) (host : UfwHost) :
    ∀ exec ∈ (ufwApply sha256 (ufwMachine text faults render) ⟨commands⟩ ⟨host, []⟩).2.ran,
      ¬ exec.BlocksOut text := by
  -- Every process the apply appends runs a fixed command or one of the lines.
  have happend {cmd : String} {args : List String}
      (hquiet : ∀ command, cmd = "ufw" → parseUfw text args = some command →
        command.blocksOut = false) (world : World UfwHost)
      (hworld : ∀ exec ∈ world.ran, ¬ exec.BlocksOut text) :
      ∀ exec ∈ (runCmd (ufwMachine text faults render) cmd args world).2.ran,
        ¬ exec.BlocksOut text := by
    intro exec hexec
    rw [runCmd_ran, mem_append, mem_singleton] at hexec
    rcases hexec with hexec | rfl
    · exact hworld exec hexec
    · rintro ⟨hcmd, command, hparse, hblocks⟩
      rw [hquiet command hcmd hparse] at hblocks
      cases hblocks
  refine ufwApply_invariant sha256 _ (fun _ _ h => h)
    (fun args hargs => happend fun command _ => fixed_not_blocksOut hargs)
    (fun line hline program args hsplit => happend fun command hcmd hparse => ?_) (by simp)
  subst hcmd
  exact hlines line hline command (by rw [commandOfLine, hsplit]; exact hparse)

theorem ufwForceReset_state (host : UfwHost)
    (hreset : ResetSucceeds (ufwMachine text faults render) ⟨host, []⟩) :
    (ufwForceReset (ufwMachine text faults render) ⟨host, []⟩).2.os.state.rules = [] ∧
      (ufwForceReset (ufwMachine text faults render) ⟨host, []⟩).2.os.state.outgoing =
        host.state.outgoing := by
  have hrule := ufwForceReset_rule (ufwMachine text faults render)
    (fun world => world.os.state.outgoing = host.state.outgoing)
    (fun output world => (output.success = true → world.os.state.rules = []) ∧
      world.os.state.outgoing = host.state.outgoing)
    (fun world hworld => ?_) (fun output world path hfail h => ⟨h.2, h⟩) ⟨host, []⟩ rfl
  · exact ⟨hrule.1 hreset, hrule.2⟩
  · rcases runCmd_ufwMachine "ufw" ["--force", "reset"] world with
      ⟨command, -, hparse, -, hstate⟩ | ⟨hfail, hstate⟩
    · cases hparse
      rw [hstate]
      exact ⟨fun _ => rfl, hworld⟩
    · rw [hstate, hfail]
      exact ⟨nofun, hworld⟩

theorem ufwApply_open
    (hlines : ∀ line ∈ commands, ∀ command, commandOfLine text line = some command →
      command.blocksOut = false) {host : UfwHost}
    (hreset : ResetSucceeds (ufwMachine text faults render) ⟨host, []⟩)
    (hdefault : (defaultOutcome host.state.outgoing).blocks = false) :
    (ufwApply sha256 (ufwMachine text faults render) ⟨commands⟩
      ⟨host, []⟩).2.os.state.Open := by
  have hstep {cmd : String} {args : List String}
      (hquiet : ∀ command, cmd = "ufw" → parseUfw text args = some command →
        command.blocksOut = false) (world : World UfwHost) (hworld : world.os.state.Open) :
      (runCmd (ufwMachine text faults render) cmd args world).2.os.state.Open := by
    rcases runCmd_ufwMachine cmd args world with ⟨command, hcmd, hparse, -, hstate⟩ | ⟨-, hstate⟩
    · rw [hstate]
      exact hworld.step (hquiet command hcmd hparse)
    · rw [hstate]
      exact hworld
  obtain ⟨hrules, houtgoing⟩ := ufwForceReset_state host hreset
  have hopen : (ufwForceReset (ufwMachine text faults render) ⟨host, []⟩).2.os.state.Open :=
    ⟨by rw [houtgoing]; exact hdefault, fun rule hrule => by rw [hrules] at hrule; cases hrule⟩
  have henabled : (enabledWorld (ufwMachine text faults render) ⟨host, []⟩).os.state.Open :=
    hstep (fun command _ => fixed_not_blocksOut (by simp)) _ hopen
  rw [ufwApply_eq, if_pos hreset]
  split
  next =>
    refine ufwReplay_invariant sha256 _ (fun line hline program args hsplit =>
        hstep fun command hcmd hparse => ?_)
      (hstep fun command _ => fixed_not_blocksOut (by simp))
      (hstep fun command _ => fixed_not_blocksOut (by simp)) henabled
    subst hcmd
    exact hlines line hline command (by rw [commandOfLine, hsplit]; exact hparse)
  next => exact henabled

/-- The pattern in which exactly the processes with the given arguments fail. -/
def failOnly (args : List String) : Faults where
  fails := fun _ other => decide (other = args)
  stderr := fun _ => ""
  removes := fun _ => false

/-- In that pattern a process succeeds exactly when UFW understands it and it is not one of
these. -/
theorem runCmd_failOnly (args : List String) (cmd : String) (other : List String)
    (world : World UfwHost) :
    (runCmd (ufwMachine text (failOnly args) render) cmd other world).1.success =
      (decide (cmd = "ufw" ∧ other ≠ args) && (parseUfw text other).isSome) := by
  rw [runCmd_ufwMachine_success, Faults.command]
  by_cases h : cmd = "ufw" ∧ other ≠ args
  · have hcond : cmd = "ufw" ∧ (failOnly args).fails world.os.clock other = false :=
      ⟨h.1, decide_eq_false h.2⟩
    rw [if_pos hcond, decide_eq_true h, Bool.true_and]
  · have hcond : ¬ (cmd = "ufw" ∧ (failOnly args).fails world.os.clock other = false) :=
      fun hc => h ⟨hc.1, of_decide_eq_false hc.2⟩
    rw [if_neg hcond, decide_eq_false h]
    rfl

theorem mem_runCommands_ran {σ : Type} (machine : Machine σ) (ok : String → List String → Bool)
    (hok : ∀ cmd args world, (runCmd machine cmd args world).1.success = ok cmd args)
    {line program : String} {args : List String} (hline : line ∈ commands)
    (hsplit : Shlex.split line = some (program :: args)) (tally : Tally) (world : World σ) :
    ⟨program, args, ok program args⟩ ∈ (runCommands machine commands tally world).2.ran := by
  induction commands generalizing tally world with
  | nil => cases hline
  | cons first rest ih =>
    rw [runCommands_cons]
    rcases mem_cons.mp hline with rfl | hrest
    · have hkeep : ∀ w : World σ, ⟨program, args, ok program args⟩ ∈ w.ran →
          ∀ cmd other, ⟨program, args, ok program args⟩ ∈ (runCmd machine cmd other w).2.ran :=
        fun w hw cmd other => mem_append_left _ hw
      have hfirst : ⟨program, args, ok program args⟩ ∈
          (runCommand machine line world).2.ran := by
        rw [runCommand, hsplit]
        simp [hok]
      exact runCommands_invariant machine (fun _ _ cmd other _ w hw => hkeep w hw cmd other)
        hfirst _
    · exact ih hrest _ _

theorem ufwApply_ran_success {σ : Type} (machine : Machine σ) (ok : String → List String → Bool)
    (hok : ∀ cmd args world, (runCmd machine cmd args world).1.success = ok cmd args)
    (compiled : CompiledRules) (os : σ) :
    ∀ exec ∈ (ufwApply sha256 machine compiled ⟨os, []⟩).2.ran,
      exec.success = ok exec.cmd exec.args := by
  have happend (cmd : String) (args : List String) (world : World σ)
      (hworld : ∀ exec ∈ world.ran, exec.success = ok exec.cmd exec.args) :
      ∀ exec ∈ (runCmd machine cmd args world).2.ran,
        exec.success = ok exec.cmd exec.args := by
    intro exec hexec
    rw [runCmd_ran, mem_append, mem_singleton] at hexec
    rcases hexec with hexec | rfl
    · exact hworld exec hexec
    · exact hok cmd args world
  exact ufwApply_invariant sha256 machine (fun _ _ h => h) (fun args _ => happend "ufw" args)
    (fun _ _ program args _ => happend program args) (by simp)

theorem mem_ufwApply_failOnly {args : List String} (hreset : args ≠ ["--force", "reset"])
    (henable : args ≠ ["--force", "enable"]) (host : UfwHost) {line : String}
    (hline : line ∈ commands) {other : List String}
    (hsplit : Shlex.split line = some ("ufw" :: other)) (hother : other ≠ args)
    (hparse : (parseUfw text other).isSome = true) :
    ⟨"ufw", other, true⟩ ∈ (ufwApply sha256 (ufwMachine text (failOnly args) render) ⟨commands⟩
      ⟨host, []⟩).2.ran := by
  have hok : ∀ cmd other world,
      (runCmd (ufwMachine text (failOnly args) render) cmd other world).1.success =
        (decide (cmd = "ufw" ∧ other ≠ args) && (parseUfw text other).isSome) :=
    runCmd_failOnly args
  have hresetOk : ResetSucceeds (ufwMachine text (failOnly args) render) ⟨host, []⟩ := by
    have hfirst : (runCmd (ufwMachine text (failOnly args) render) "ufw" ["--force", "reset"]
        ⟨host, []⟩).1.success = true := by
      rw [hok, decide_eq_true ⟨rfl, hreset.symm⟩]
      rfl
    rw [ResetSucceeds, ufwForceReset_of_success _ hfirst]
    exact hfirst
  have henableOk : EnableSucceeds (ufwMachine text (failOnly args) render) ⟨host, []⟩ := by
    rw [EnableSucceeds, hok, decide_eq_true ⟨rfl, henable.symm⟩]
    rfl
  obtain ⟨happly, -⟩ := ufwApply_of_enabled sha256 _ ⟨commands⟩ hresetOk henableOk
  obtain ⟨hash, hreplay⟩ := ufwReplay_eq sha256 (ufwMachine text (failOnly args) render) ⟨commands⟩
    (enabledWorld (ufwMachine text (failOnly args) render) ⟨host, []⟩)
  obtain ⟨late, hlate⟩ := replayedWorld_ran (ufwMachine text (failOnly args) render) ⟨commands⟩
    (enabledWorld (ufwMachine text (failOnly args) render) ⟨host, []⟩)
  rw [happly, hreplay, hlate]
  apply mem_append_left
  have hmem := mem_runCommands_ran _ _ hok hline hsplit ⟨0, 0, []⟩
    (enabledWorld (ufwMachine text (failOnly args) render) ⟨host, []⟩)
  rwa [decide_eq_true ⟨rfl, hother⟩, hparse] at hmem

/-- The arguments of the umbilical process. -/
def umbilicalArgs (ctx : ApplyContext) : List String :=
  (umbilicalWords ctx ++ ["fw-mgr-umbilical"]).tail

theorem umbilical_not_blocksOut {ctx : ApplyContext} {ip : IpAddr}
    (hip : text.parseAddr ctx.managerIp = some ip)
    (h : commandOfLine text (umbilicalCommand ctx) = some command) :
    command.blocksOut = false := by
  rw [commandOfLine_umbilical hip] at h
  split at h <;> cases h
  rfl

theorem blocksOut_without_umbilical {ctx : ApplyContext} {ip : IpAddr}
    (hip : text.parseAddr ctx.managerIp = some ip) {rules : List FirewallRule} {line : String}
    (hline : line ∈ (ufwCompile rules ctx).commands)
    (hcommand : commandOfLine text line = some command) (hblocks : command.blocksOut = true)
    (host : UfwHost) {ran : List Exec}
    (hran : ran = (ufwApply sha256 (ufwMachine text (failOnly (umbilicalArgs ctx)) render)
      ⟨(ufwCompile rules ctx).commands⟩ ⟨host, []⟩).2.ran) :
    (∀ exec ∈ ran, ¬ Succeeded (umbilicalCommand ctx) exec) ∧
      ∃ exec ∈ ran, exec.success = true ∧ exec.BlocksOut text := by
  obtain ⟨args, hsplit, hparse⟩ := split_of_commandOfLine text hcommand
  have hne : args ≠ umbilicalArgs ctx := by
    rintro rfl
    have humbilical : commandOfLine text (umbilicalCommand ctx) = some command := by
      rw [commandOfLine, split_umbilicalCommand hip]
      exact hparse
    rw [umbilical_not_blocksOut hip humbilical] at hblocks
    cases hblocks
  have hhead (words : List String) (h : words.head? ≠ some "allow") : umbilicalArgs ctx ≠ words :=
    fun heq => h (heq ▸ rfl)
  subst hran
  refine ⟨fun exec hexec hsucceeded => ?_, ⟨"ufw", args, true⟩, ?_, rfl, rfl, command, hparse,
    hblocks⟩
  · have hsuccess := ufwApply_ran_success _ _ (runCmd_failOnly (umbilicalArgs ctx))
      _ host exec hexec
    obtain ⟨hwords, htrue⟩ := hsucceeded
    have hargs : exec.args = umbilicalArgs ctx := by
      rw [split_umbilicalCommand hip] at hwords
      exact (congrArg List.tail (Option.some.inj hwords)).symm
    simp [htrue, hargs] at hsuccess
  · exact mem_ufwApply_failOnly (hhead _ (by decide)) (hhead _ (by decide)) host hline hsplit hne
      (by rw [hparse]; rfl)

/-- An apply of a compiled list is fail-stop exactly when no command after the umbilical closes
anything outbound. -/
theorem umbilical_failStop_iff {ctx : ApplyContext}
    (hgate : managerIpSpecific text ctx.managerIp = true) (rules : List FirewallRule) :
    FailStop text ctx (ufwCompile rules ctx).commands ↔
      ∀ line ∈ (ufwCompile rules ctx).commands.tail, ∀ command,
        commandOfLine text line = some command → command.blocksOut = false := by
  obtain ⟨ip, hip, -⟩ := managerIpSpecific_iff.mp hgate
  constructor
  · intro h line hline command hcommand
    by_contra hblocks
    rw [Bool.not_eq_false] at hblocks
    obtain ⟨hnone, exec, hexec, hsuccess, hexecBlocks⟩ :=
      blocksOut_without_umbilical hip (mem_of_mem_tail hline) hcommand hblocks
        ⟨⟨[], .allow, .allow⟩, 0⟩ rfl
    exact (h id _ (fun _ => "") _ _ rfl).1 hnone exec hexec hsuccess hexecBlocks
  · intro hquiet sha256 faults render host after hafter
    have hlines : ∀ line ∈ (ufwCompile rules ctx).commands, ∀ command,
        commandOfLine text line = some command → command.blocksOut = false := by
      intro line hline command hcommand
      rcases mem_cons.mp hline with rfl | hline
      · exact umbilical_not_blocksOut hip hcommand
      · exact hquiet line hline command hcommand
    subst hafter
    refine ⟨fun _ exec hexec _ => ufwApply_not_blocksOut hlines host exec hexec,
      fun hreset hdefault packet hpacket => ?_⟩
    exact (ufwApply_open hlines hreset hdefault).verdict hpacket.outbound

/-- A packet from the host to its manager. -/
def managerPacket : Packet where
  flow := .outbound
  protocol := .tcp
  src := ⟨.v4, 0x0A000009, by decide⟩
  dst := lockdownManager
  ports := some (50000, 8443)
  iface := "eth0"
  sameFamily := rfl
  ports_isSome := rfl

/-- The apply of a lockdown in which only the umbilical fails. -/
def brokenLockdown : World UfwHost :=
  (ufwApply id (ufwMachine dottedText (failOnly (umbilicalArgs lockdownContext)) fun _ => "")
    (ufwCompile [denyOutRule] lockdownContext) ⟨⟨⟨[], .allow, .allow⟩, 0⟩, []⟩).2

/-- That apply goes on after the failed umbilical, denies outgoing traffic by default and by rule,
and ends with the manager cut off from a host that could reach it before. -/
theorem lockdown_goes_on_without_umbilical :
    ⟨"ufw", umbilicalArgs lockdownContext, false⟩ ∈ brokenLockdown.ran ∧
      ⟨"ufw", ["default", "deny", "outgoing"], true⟩ ∈ brokenLockdown.ran ∧
      brokenLockdown.os.state =
        ⟨[{ blankRule .deny with flow := .outbound }], .deny, .deny⟩ ∧
      brokenLockdown.os.state.verdict managerPacket = .deny := by
  decide +kernel

/-- The characterisation at the lockdown: its compiled list is not fail-stop. -/
theorem umbilical_failStop_at_lockdown :
    managerIpSpecific dottedText lockdownContext.managerIp = true ∧
      ¬ FailStop dottedText lockdownContext
        (ufwCompile [denyOutRule] lockdownContext).commands := by
  have hgate : managerIpSpecific dottedText lockdownContext.managerIp = true := by decide
  refine ⟨hgate, fun h => ?_⟩
  have hquiet := (umbilical_failStop_iff hgate [denyOutRule]).mp h "ufw default deny outgoing"
    (by decide) (.setDefault .deny .outbound) (by decide)
  cases hquiet

end FirewallManager
