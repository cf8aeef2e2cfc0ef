import FirewallManager.Agent.SelfHeal
import FirewallManager.Ufw.CompiledRule

/-!
# Forward rules

The UFW backend writes a direction word for outbound rules only. A rule for forwarded traffic is
therefore compiled like the inbound rule with the same fields (`compileUfwRule_forward`), and UFW
installs it among the rules for the host itself.

`ufwFirewall` is what the commands of a ruleset leave on a reset firewall, and what an apply leaves
on the host (`ufwApply_firewall`). `forward_untouched_iff` says when a forward rule in the ruleset
leaves the traffic of the host alone.
-/

namespace FirewallManager

open List

variable (text : AddressText)

/-- Run command lines in order. A line that UFW does not understand is skipped. -/
def replayLines (lines : List String) (state : UfwState) : UfwState :=
  (lines.filterMap (commandOfLine text)).foldl UfwState.step state

/-- The firewall that the commands of a ruleset leave. The reset before them keeps the defaults. -/
def ufwFirewall (rules : List FirewallRule) (ctx : ApplyContext) (state : UfwState) : UfwState :=
  replayLines text (ufwCompile rules ctx).commands { state with rules := [] }

/-- The rule that a command adds. -/
def UfwCommand.rule? : UfwCommand → Option UfwRule
  | .add rule => some rule
  | _ => none

/-- The rule that a command line adds. -/
def ruleOfLine (line : String) : Option UfwRule :=
  (commandOfLine text line).bind UfwCommand.rule?

/-- The rule that UFW installs for the command of a rule. -/
def FirewallRule.installed (rule : FirewallRule) : Option UfwRule :=
  (commandOfLine text (compileUfwRule rule)).bind UfwCommand.rule?

/-! ## The commands of a ruleset -/

theorem replayLines_append (lines more : List String) (state : UfwState) :
    replayLines text (lines ++ more) state =
      replayLines text more (replayLines text lines state) := by
  rw [replayLines, filterMap_append, foldl_append]
  rfl

theorem commandOfLine_add {line word : String} {rest : List Char} {action : UfwAction}
    (hword : Shlex.PlainWord word.toList) (haction : ufwActionOfWord word = some action)
    (hline : line.toList = ["ufw", word].flatMap (·.toList ++ [' ']) ++ rest) :
    commandOfLine text line = (ruleOfLine text line).map .add := by
  cases hcommand : commandOfLine text line with
  | none => simp [ruleOfLine, hcommand]
  | some command =>
    obtain ⟨more, hparse⟩ := commandOfLine_start hword hline hcommand
    rw [parseUfw_action text haction, Option.map_eq_some_iff] at hparse
    obtain ⟨rule, -, rfl⟩ := hparse
    simp [ruleOfLine, hcommand, UfwCommand.rule?]

theorem commandOfLine_rule (rule : FirewallRule) :
    commandOfLine text (compileUfwRule rule) = (rule.installed text).map .add := by
  obtain ⟨rest, hrest⟩ := compileUfwRule_start rule
  have hplain : Shlex.PlainWord rule.action.asStr.toList := by
    cases rule.action <;> decide
  have hline : (compileUfwRule rule).toList =
      ["ufw", rule.action.asStr].flatMap (·.toList ++ [' ']) ++ rest := by
    rw [hrest, ufwActionWord_toList]
    simp
  have hword : ufwActionOfWord rule.action.asStr = rule.action.ufw := by
    cases rule.action <;> rfl
  cases haction : rule.action.ufw with
  | some action => exact commandOfLine_add text hplain (hword.trans haction) hline
  | none =>
    have hmasquerade : rule.action = .masquerade := by
      cases hrule : rule.action <;> rw [hrule] at haction <;> cases haction
    cases hcommand : commandOfLine text (compileUfwRule rule) with
    | none => simp [FirewallRule.installed, hcommand]
    | some command =>
      obtain ⟨more, hparse⟩ := commandOfLine_start hplain hline hcommand
      rw [hmasquerade] at hparse
      cases hparse

theorem foldl_step_add (rules : List UfwRule) (state : UfwState) :
    (rules.map UfwCommand.add).foldl UfwState.step state =
      { state with rules := state.rules ++ rules } := by
  induction rules generalizing state with
  | nil => simp
  | cons rule rules ih =>
    rw [map_cons, foldl_cons, ih]
    simp [UfwState.step]

theorem replayLines_rules (rules : List FirewallRule) (state : UfwState) :
    replayLines text (rules.map compileUfwRule) state =
      { state with rules := state.rules ++ rules.filterMap (FirewallRule.installed text) } := by
  have hcommand : commandOfLine text ∘ compileUfwRule =
      fun rule => (rule.installed text).map UfwCommand.add := by
    funext rule
    rw [Function.comp_apply, commandOfLine_rule]
  rw [replayLines, filterMap_map, hcommand, ← map_filterMap, foldl_step_add]

theorem ufwFirewall_append (rules more : List FirewallRule) (ctx : ApplyContext)
    (state : UfwState) :
    ufwFirewall text (rules ++ more) ctx state =
      { ufwFirewall text rules ctx state with
        rules := (ufwFirewall text rules ctx state).rules ++
          more.filterMap (FirewallRule.installed text) } := by
  have hcommands : (ufwCompile (rules ++ more) ctx).commands =
      (ufwCompile rules ctx).commands ++ more.map compileUfwRule := by
    simp only [ufwCompile, map_append, cons_append, append_assoc]
  simp only [ufwFirewall, hcommands, replayLines_append, replayLines_rules]

section Host

variable (render : UfwState → String) (sha256 : List UInt8 → List UInt8)

/-- One round of the apply loop on a host where no process fails. -/
theorem runCommand_state (line : String) (world : World UfwHost) :
    (runCommand (ufwMachine text noFaults render) line world).2.os.state =
      replayLines text [line] world.os.state := by
  cases hcommand : commandOfLine text line with
  | some command =>
    obtain ⟨args, hsplit, hparse⟩ := split_of_commandOfLine text hcommand
    have hstate := (runCmd_sound text render hparse world).2
    simp only [runCommand, hsplit, replayLines, filterMap_cons, hcommand]
    exact hstate
  | none =>
    have hskip : replayLines text [line] world.os.state = world.os.state := by
      simp [replayLines, hcommand]
    rw [hskip]
    unfold runCommand
    split
    next program args hsplit =>
      rcases runCmd_ufwMachine program args world with ⟨command, rfl, hparse, -⟩ | ⟨-, hstate⟩
      · rw [commandOfLine, hsplit] at hcommand
        exact absurd (hparse.symm.trans hcommand) (by simp)
      · exact hstate
    next => rfl

theorem runCommands_state (lines : List String) (tally : Tally) (world : World UfwHost) :
    (runCommands (ufwMachine text noFaults render) lines tally world).2.os.state =
      replayLines text lines world.os.state := by
  induction lines generalizing tally world with
  | nil => rfl
  | cons line rest ih =>
    rw [runCommands_cons, ih, runCommand_state, ← replayLines_append]
    rfl

theorem ufwApply_firewall (rules : List FirewallRule) (ctx : ApplyContext)
    (world : World UfwHost) :
    (ufwApply sha256 (ufwMachine text noFaults render) (ufwCompile rules ctx)
      world).2.os.state = ufwFirewall text rules ctx world.os.state := by
  obtain ⟨start, result, after, hstart, happly, -, hafter⟩ :=
    ufwApply_loop text render sha256 (ufwCompile rules ctx).commands world
  have hcompiled : (⟨(ufwCompile rules ctx).commands⟩ : CompiledRules) = ufwCompile rules ctx := rfl
  rw [hcompiled] at happly
  rw [happly]
  dsimp only
  rw [hafter, runCommands_state, hstart, ufwFirewall]

end Host

/-! ## Forward rules -/

theorem compileUfwRule_forward {rule : FirewallRule} (h : rule.direction = .forward) :
    compileUfwRule rule = compileUfwRule { rule with direction := .in } := by
  have hout : rule.direction ≠ .out := by
    rw [h]
    decide
  have hinterface : rule.interface = FirewallRule.interface { rule with direction := .in } :=
    if_neg hout
  delta compileUfwRule
  rw [if_neg hout, hinterface]
  rfl

theorem installed_forward {rule : FirewallRule} (h : rule.direction = .forward) :
    rule.installed text = FirewallRule.installed text { rule with direction := .in } := by
  rw [FirewallRule.installed, compileUfwRule_forward h]
  rfl

theorem verdict_with_rules (state : UfwState) (rules : List UfwRule) (packet : Packet) :
    UfwState.verdict { state with rules := rules } packet =
      FirstMatch.verdict UfwRule.hits UfwRule.action
        (defaultOutcome (state.default packet.flow)) rules packet := by
  rw [UfwState.verdict]
  cases packet.flow <;> rfl

/-- The verdict of the rest of the ruleset, with the default of the firewall behind it. -/
def restVerdict (rest : List FirewallRule) (firewall : UfwState) (packet : Packet) : UfwAction :=
  UfwState.verdict { firewall with rules := rest.filterMap (FirewallRule.installed text) } packet

/-- **Forward rules and the host.** For every ruleset, insertion point and forward rule, every
packet of the host is decided with the rule as without it exactly when the inbound rule with the
same fields is redundant there: wherever it is the first that matches, the rest of the ruleset and
the default decide as it does. -/
theorem forward_untouched_iff (before rest : List FirewallRule) (forward : FirewallRule)
    (hforward : forward.direction = .forward) (ctx : ApplyContext) (state : UfwState) :
    (∀ packet, (ufwFirewall text (before ++ forward :: rest) ctx state).verdict packet =
        (ufwFirewall text (before ++ rest) ctx state).verdict packet) ↔
      ∀ rule ∈ FirewallRule.installed text { forward with direction := .in }, ∀ packet,
        rule.hits packet = true →
        (∀ earlier ∈ (ufwFirewall text before ctx state).rules, earlier.hits packet = false) →
          rule.action = restVerdict text rest (ufwFirewall text before ctx state) packet := by
  have hverdict (packet : Packet) :
      (ufwFirewall text (before ++ forward :: rest) ctx state).verdict packet =
          (ufwFirewall text (before ++ rest) ctx state).verdict packet ↔
        ∀ rule ∈ forward.installed text, rule.hits packet = true →
          (∀ earlier ∈ (ufwFirewall text before ctx state).rules, earlier.hits packet = false) →
            rule.action = restVerdict text rest (ufwFirewall text before ctx state) packet := by
    simp only [ufwFirewall_append, filterMap_cons, restVerdict, verdict_with_rules]
    cases forward.installed text with
    | none => simp
    | some rule =>
      simp only [Option.mem_def, Option.some.injEq, forall_eq']
      exact FirstMatch.verdict_insert_iff _ _
  rw [← installed_forward text hforward]
  simp only [hverdict]
  constructor
  · intro h rule hrule packet
    exact h packet rule hrule
  · intro h packet rule hrule
    exact h rule hrule packet

/-- A rule that lets a gateway route SSH connections to the hosts behind it. -/
def routeSshRule : FirewallRule :=
  { sshRule with name := "route ssh", direction := .forward }

/-- An SSH packet for the host itself. -/
def sshPacket : Packet :=
  { managerPacket with flow := .inbound, ports := some (50000, 22), ports_isSome := rfl }

/-- What the rule is installed as. -/
def sshInstalled : UfwRule :=
  { blankRule .allow with protocol := .tcp, dstPorts := some (22, 22) }

/-- On a gateway that denies everything, the routing rule opens SSH to the gateway itself. -/
theorem route_rule_opens_host :
    routeSshRule.direction = .forward ∧
      (ufwFirewall dottedText [] lockdownContext ⟨[], .deny, .allow⟩).verdict sshPacket = .deny ∧
      (ufwFirewall dottedText [routeSshRule] lockdownContext ⟨[], .deny, .allow⟩).verdict
        sshPacket = .allow := by
  decide +kernel

/-- On a gateway that already accepts SSH the same rule changes nothing for the gateway. -/
theorem route_rule_harmless_behind_ssh :
    routeSshRule.direction = .forward ∧
      ∀ packet,
        (ufwFirewall dottedText [sshRule, routeSshRule] lockdownContext
          ⟨[], .deny, .allow⟩).verdict packet =
        (ufwFirewall dottedText [sshRule] lockdownContext ⟨[], .deny, .allow⟩).verdict packet := by
  have hforward : routeSshRule.direction = .forward := rfl
  refine ⟨hforward, (forward_untouched_iff dottedText [sshRule] [] routeSshRule hforward
    lockdownContext ⟨[], .deny, .allow⟩).mpr ?_⟩
  have hinstalled : FirewallRule.installed dottedText { routeSshRule with direction := .in } =
      some sshInstalled := by decide +kernel
  have hearlier : sshInstalled ∈
      (ufwFirewall dottedText [sshRule] lockdownContext ⟨[], .deny, .allow⟩).rules := by
    decide +kernel
  -- The SSH rule in front hits the same packets, so the routing rule is never the first.
  intro rule hrule packet hhits hfirst
  obtain rfl := Option.some.inj (hinstalled.symm.trans hrule)
  rw [hfirst sshInstalled hearlier] at hhits
  cases hhits

end FirewallManager
