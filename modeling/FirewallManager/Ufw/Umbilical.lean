import FirewallManager.Agent.Apply
import FirewallManager.Agent.UfwText
import FirewallManager.Ufw.Firewall

/-!
# The manager umbilical

The first command of every compiled list allows outbound TCP traffic to the manager. On a
freshly reset firewall it becomes the first rule (`commandOfLine_umbilical`), and no later
command of the list is a reset (`commandOfLine_ne_reset`), so it decides exactly the packets to
the manager and no others (`umbilical_guards_manager`).
-/

namespace FirewallManager

open List

variable {text : AddressText}

/-- The rule that the umbilical command adds. -/
def umbilicalRule (ip : IpAddr) (port : Nat) : UfwRule where
  action := .allow
  flow := .outbound
  log := false
  iface := none
  protocol := .tcp
  src := .any
  srcPorts := none
  dst := .host ip
  dstPorts := some (port, port)

/-- The packet is outbound TCP traffic to the manager of the context. -/
structure ToManager (text : AddressText) (ctx : ApplyContext) (packet : Packet) : Prop where
  outbound : packet.flow = .outbound
  tcp : packet.protocol = .tcp
  dst : text.parseAddr ctx.managerIp = some packet.dst
  dstPort : packet.dstPort = some ctx.managerPort.toNat

theorem managerIpSpecific_iff {managerIp : String} :
    managerIpSpecific text managerIp = true ↔
      ∃ ip, text.parseAddr managerIp = some ip ∧ ip.isUnspecified = false := by
  unfold managerIpSpecific
  cases text.parseAddr managerIp <;> simp

theorem plainWord_toString (n : Nat) : Shlex.PlainWord (toString n).toList := by
  have hdigit : ∀ c ∈ (toString n).toList, c.isDigit = true :=
    fun c hc => Text.isDigit_of_mem_toString hc
  refine ⟨?_, fun c hc => isPlain_of_isAddrChar (by simp [isAddrChar, hdigit c hc]),
    fun hhash => ?_⟩
  · rw [Nat.toString_eq_ofList_toDigits, String.toList_ofList]
    exact Nat.toDigits_ne_nil
  · exact absurd (hdigit '#' (mem_of_mem_head? hhash)) (by decide)

/-- The words of the umbilical command before its comment. -/
def umbilicalWords (ctx : ApplyContext) : List String :=
  ["ufw", "allow", "out", "from", "any", "to"] ++
    [ctx.managerIp, "port", toString ctx.managerPort.toNat] ++ ["proto", "tcp", "comment"]

theorem umbilicalCommand_toList (ctx : ApplyContext) :
    (umbilicalCommand ctx).toList =
      (umbilicalWords ctx).flatMap (·.toList ++ [' ']) ++
        '\'' :: ("fw-mgr-umbilical".toList ++ ['\'']) := by
  have hstart : "ufw allow out from any to ".toList =
      ["ufw", "allow", "out", "from", "any", "to"].flatMap (·.toList ++ [' ']) := by
    simp only [flatMap_cons, flatMap_nil]
    repeat rw [String.toList_ofList]
    rfl
  have hport : " port ".toList = [' '] ++ "port".toList ++ [' '] := by decide
  have hend : " proto tcp comment 'fw-mgr-umbilical'".toList =
      [' '] ++ ["proto", "tcp", "comment"].flatMap (·.toList ++ [' ']) ++
        '\'' :: ("fw-mgr-umbilical".toList ++ ['\'']) := by
    simp only [flatMap_cons, flatMap_nil]
    repeat rw [String.toList_ofList]
    rfl
  delta umbilicalCommand
  rw [String.toList_append, String.toList_append, String.toList_append, String.toList_append,
    hstart, hport, hend, umbilicalWords, flatMap_append, flatMap_append]
  simp only [flatMap_cons, flatMap_nil, append_assoc, append_nil]

variable {ctx : ApplyContext} {ip : IpAddr}

theorem split_umbilicalCommand (hip : text.parseAddr ctx.managerIp = some ip) :
    Shlex.split (umbilicalCommand ctx) = some (umbilicalWords ctx ++ ["fw-mgr-umbilical"]) := by
  refine Shlex.split_words_quoted (fun w hw => ?_) (by decide) (umbilicalCommand_toList ctx)
  simp only [umbilicalWords, mem_append, mem_cons, not_mem_nil, or_false] at hw
  rcases hw with (hw | rfl | rfl | rfl) | hw
  · rcases hw with rfl | rfl | rfl | rfl | rfl | rfl <;> decide
  · exact text.plainWord hip
  · decide
  · exact plainWord_toString _
  · rcases hw with rfl | rfl | rfl <;> decide

/-- A printed port is read back as a range of one port, if it is one UFW accepts. -/
theorem portsOfWord_toString (n : Nat) :
    portsOfWord (toString n) = if 1 ≤ n ∧ n ≤ 65535 then some (n, n) else none := by
  have hcolon : ':' ∉ (toString n).toList := colon_not_mem_toString n
  rw [portsOfWord, Text.cut_field_end hcolon]
  simp only [map_cons, map_nil, String.ofList_toList, Text.parseDecimal_toString]

theorem targetOfWord_addr {word : String} (h : text.parseAddr word = some ip) :
    targetOfWord text word = some (.host ip) := by
  have hany : word ≠ "any" := by
    rintro rfl
    exact absurd ((text.addr_chars _ _ h).2 'n' (by decide)) (by decide)
  rw [targetOfWord, if_neg hany, h]

theorem commandOfLine_umbilical (hip : text.parseAddr ctx.managerIp = some ip) :
    commandOfLine text (umbilicalCommand ctx) =
      if 1 ≤ ctx.managerPort.toNat then some (.add (umbilicalRule ip ctx.managerPort.toNat))
      else none := by
  have hport := portsOfWord_toString ctx.managerPort.toNat
  have hle : ctx.managerPort.toNat ≤ 65535 := Nat.le_of_lt_succ ctx.managerPort.toNat_lt
  have hany : targetOfWord text "any" = some .any := if_pos rfl
  have htcp : ufwProtocolOfWord "tcp" = some .tcp := rfl
  have haccepted : (umbilicalRule ip ctx.managerPort.toNat).accepted = true := by
    simp [umbilicalRule, UfwRule.accepted, Target.family?]
  have hrule : parseRule text .allow ["out", "from", "any", "to", ctx.managerIp, "port",
      toString ctx.managerPort.toNat, "proto", "tcp", "comment", "fw-mgr-umbilical"] =
        if 1 ≤ ctx.managerPort.toNat then some (umbilicalRule ip ctx.managerPort.toNat)
        else none := by
    simp only [parseRule, parseClauses_out, parseClauses_from, hany, Option.bind_some,
      parseClauses_to, targetOfWord_addr hip, parseClauses_dst_port, hport, hle, and_true]
    split
    next =>
      simp only [Option.bind_some, parseClauses_proto, htcp, parseClauses_comment,
        parseClauses_nil]
      exact if_pos haccepted
    next => rfl
  have haction : ufwActionOfWord "allow" = some .allow := rfl
  rw [commandOfLine, split_umbilicalCommand hip]
  refine (parseUfw_action text haction _).trans ?_
  refine (congrArg (Option.map UfwCommand.add) hrule).trans ?_
  split <;> rfl

theorem portsCover_single (port : Nat) (actual : Option Nat) :
    portsCover (some (port, port)) actual = true ↔ actual = some port := by
  cases actual with
  | none => simp [portsCover]
  | some other =>
    simp only [portsCover, decide_eq_true_eq, Option.some.injEq]
    omega

/-- The umbilical rule matches exactly the traffic to the manager. -/
theorem umbilicalRule_hits_iff (hip : text.parseAddr ctx.managerIp = some ip) (packet : Packet) :
    (umbilicalRule ip ctx.managerPort.toNat).hits packet = true ↔ ToManager text ctx packet := by
  have htcp : UfwProtocol.covers .tcp packet.protocol = true ↔ packet.protocol = .tcp := by
    cases packet.protocol <;> simp [UfwProtocol.covers]
  have hdst : Target.covers (.host ip) packet.dst = true ↔
      text.parseAddr ctx.managerIp = some packet.dst := by
    rw [hip, Target.covers, decide_eq_true_eq, Option.some.injEq]
  have hport := portsCover_single ctx.managerPort.toNat packet.dstPort
  simp only [UfwRule.hits, umbilicalRule, Bool.and_eq_true, htcp, hdst, hport]
  constructor
  · rintro ⟨⟨⟨⟨⟨⟨hflow, -⟩, hproto⟩, -⟩, haddr⟩, -⟩, hdport⟩
    exact ⟨(of_decide_eq_true hflow).symm, hproto, haddr, hdport⟩
  · rintro ⟨hflow, hproto, haddr, hdport⟩
    exact ⟨⟨⟨⟨⟨⟨decide_eq_true hflow.symm, rfl⟩, hproto⟩, rfl⟩, haddr⟩, rfl⟩, hdport⟩

/-- The words that the commands after the umbilical start with. -/
def startWords : List String :=
  ["default", "allow", "deny", "reject", "limit", "masquerade"]

/-- A process whose first argument is one of these words is no reset. -/
theorem parseUfw_ne_reset {word : String} (hword : word ∈ startWords) (words : List String) :
    parseUfw text (word :: words) ≠ some .reset := by
  have hrule {word : String} (action : UfwAction) (h : ufwActionOfWord word = some action) :
      parseUfw text (word :: words) ≠ some .reset := by
    rw [parseUfw_action text h]
    cases parseRule text action words <;> simp
  simp only [startWords, mem_cons, not_mem_nil, or_false] at hword
  rcases hword with rfl | rfl | rfl | rfl | rfl | rfl
  · intro h
    obtain ⟨policy, flow, heq⟩ := parseUfw_default text h
    cases heq
  · exact hrule .allow rfl
  · exact hrule .deny rfl
  · exact hrule .reject rfl
  · exact hrule .limit rfl
  · have hmasquerade : parseUfw text ("masquerade" :: words) = none := rfl
    simp [hmasquerade]

variable {rules : List FirewallRule}

theorem tail_command_start {line : String} (h : line ∈ (ufwCompile rules ctx).commands.tail) :
    ∃ word ∈ startWords, ∃ rest,
      line.toList = ["ufw", word].flatMap (·.toList ++ [' ']) ++ rest := by
  rw [ufwCompile, tail_cons, mem_append, mem_map] at h
  rcases h with h | ⟨rule, -, rfl⟩
  · have hdefault : "ufw default ".toList = ["ufw", "default"].flatMap (·.toList ++ [' ']) := by
      decide
    refine ⟨"default", by decide, ?_⟩
    simp only [defaultCommands, mem_append, Option.mem_toList, Option.map_eq_some_iff] at h
    rcases h with ⟨policy, -, rfl⟩ | ⟨policy, -, rfl⟩
    · exact ⟨_, by rw [String.toList_append, String.toList_append, hdefault, append_assoc]⟩
    · exact ⟨_, by rw [String.toList_append, String.toList_append, hdefault, append_assoc]⟩
  · obtain ⟨rest, hrest⟩ := compileUfwRule_start rule
    cases haction : rule.action
    · exact ⟨"allow", by decide, rest, by rw [hrest, haction]; rfl⟩
    · exact ⟨"deny", by decide, rest, by rw [hrest, haction]; rfl⟩
    · exact ⟨"reject", by decide, rest, by rw [hrest, haction]; rfl⟩
    · exact ⟨"limit", by decide, rest, by rw [hrest, haction]; rfl⟩
    · exact ⟨"masquerade", by decide, rest, by rw [hrest, haction]; rfl⟩

theorem commandOfLine_start {line word : String} {rest : List Char} {command : UfwCommand}
    (hword : Shlex.PlainWord word.toList)
    (hline : line.toList = ["ufw", word].flatMap (·.toList ++ [' ']) ++ rest)
    (h : commandOfLine text line = some command) :
    ∃ more, parseUfw text (word :: more) = some command := by
  have hufw : Shlex.PlainWord "ufw".toList := by decide
  have hplain : ∀ w ∈ ["ufw", word], Shlex.PlainWord w.toList := by
    simpa using ⟨hufw, hword⟩
  obtain ⟨args, hsplit, hparse⟩ := split_of_commandOfLine text h
  obtain ⟨more, hmore⟩ := Shlex.split_words_rest hplain hline hsplit
  obtain rfl : args = word :: more := (List.cons.inj hmore).2
  exact ⟨more, hparse⟩

theorem commandOfLine_ne_reset {line : String} (h : line ∈ (ufwCompile rules ctx).commands.tail) :
    commandOfLine text line ≠ some .reset := by
  obtain ⟨word, hword, rest, hline⟩ := tail_command_start h
  have hstart : ∀ w ∈ startWords, Shlex.PlainWord w.toList := by decide
  intro hreset
  obtain ⟨more, hparse⟩ := commandOfLine_start (hstart word hword) hline hreset
  exact parseUfw_ne_reset hword more hparse

theorem runLines_ufwCompile (hip : text.parseAddr ctx.managerIp = some ip) {fresh final : UfwState}
    (hfresh : fresh.rules = [])
    (hrun : runLines text (ufwCompile rules ctx).commands fresh = some final) :
    ∃ without, runLines text (ufwCompile rules ctx).commands.tail fresh = some without ∧
      final = { without with
        rules := umbilicalRule ip ctx.managerPort.toNat :: without.rules } := by
  have hcompile : (ufwCompile rules ctx).commands =
      umbilicalCommand ctx :: (ufwCompile rules ctx).commands.tail := rfl
  rw [hcompile, runLines, mapM_cons] at hrun
  rw [runLines]
  simp only [Option.map_eq_some_iff, Option.bind_eq_bind, Option.bind_eq_some_iff,
    Option.pure_def, Option.some.injEq] at hrun
  obtain ⟨commands, ⟨first, hfirst, tail, htail, rfl⟩, rfl⟩ := hrun
  rw [commandOfLine_umbilical hip] at hfirst
  split at hfirst
  next hport =>
    obtain rfl : first = _ := (Option.some.inj hfirst).symm
    refine ⟨tail.foldl UfwState.step fresh, by rw [htail]; rfl, ?_⟩
    have hreset : UfwCommand.reset ∉ tail := by
      intro hmem
      obtain ⟨line, hline, hcommand⟩ := exists_line_of_mem text htail hmem
      exact commandOfLine_ne_reset hline hcommand
    have hstep : fresh.step (.add (umbilicalRule ip ctx.managerPort.toNat)) =
        { fresh with rules := umbilicalRule ip ctx.managerPort.toNat :: fresh.rules } := by
      simp [UfwState.step, hfresh]
    rw [foldl_cons, hstep]
    exact foldl_step_cons hreset _ _
  next => cases hfirst

theorem verdict_umbilical_of_not (hip : text.parseAddr ctx.managerIp = some ip) (state : UfwState)
    {packet : Packet} (hpacket : ¬ ToManager text ctx packet) :
    UfwState.verdict
      { state with rules := umbilicalRule ip ctx.managerPort.toNat :: state.rules } packet =
        state.verdict packet := by
  rw [← umbilicalRule_hits_iff hip, Bool.not_eq_true] at hpacket
  rw [UfwState.verdict, FirstMatch.verdict_cons_of_not_hits hpacket]
  cases hflow : packet.flow <;> simp [UfwState.verdict, UfwState.default, hflow]

/-- The umbilical, for every ruleset, every pair of defaults and every context the gate accepts:
if all compiled commands succeed on a freshly reset firewall, all traffic to the manager is
allowed, and every other packet fares as it would without the umbilical. -/
theorem umbilical_guards_manager {rules : List FirewallRule} {ctx : ApplyContext}
    (hgate : managerIpSpecific text ctx.managerIp = true) {fresh final : UfwState}
    (hfresh : fresh.rules = [])
    (hrun : runLines text (ufwCompile rules ctx).commands fresh = some final) :
    (∀ packet, ToManager text ctx packet → final.verdict packet = .allow) ∧
      ∃ without, runLines text (ufwCompile rules ctx).commands.tail fresh = some without ∧
        ∀ packet, ¬ ToManager text ctx packet →
          final.verdict packet = without.verdict packet := by
  obtain ⟨ip, hip, -⟩ := managerIpSpecific_iff.mp hgate
  obtain ⟨without, hwithout, rfl⟩ := runLines_ufwCompile hip hfresh hrun
  refine ⟨fun packet hpacket => ?_, without, hwithout, fun packet hpacket => ?_⟩
  · exact FirstMatch.verdict_cons_of_hits ((umbilicalRule_hits_iff hip packet).mpr hpacket)
  · exact verdict_umbilical_of_not hip without hpacket

/-- A rule that blocks all outbound traffic. -/
def denyOutRule : FirewallRule :=
  { sshRule with
    name := "deny all out", action := .deny, direction := .out, protocol := .any,
    dstPortStart := none, dstPortEnd := none, comment := "deny all out" }

/-- A context that denies both directions by default. -/
def lockdownContext : ApplyContext :=
  ⟨"10.0.0.1", 8443, some "deny", some "deny"⟩

/-- The address of the manager, 10.0.0.1. -/
def lockdownManager : IpAddr :=
  ⟨.v4, 0x0A000001, by decide⟩

/-- The firewall that the lockdown ruleset leaves: the umbilical, then the deny rule. -/
def lockdownState : UfwState where
  rules := [umbilicalRule lockdownManager 8443,
    { blankRule .deny with flow := .outbound }]
  incoming := .deny
  outgoing := .deny

/-- Under a policy that denies everything outbound, by default and by rule, the traffic to the
manager stays allowed. -/
theorem umbilical_guards_manager_in_lockdown :
    managerIpSpecific dottedText lockdownContext.managerIp = true ∧
      runLines dottedText (ufwCompile [denyOutRule] lockdownContext).commands ⟨[], .allow, .allow⟩ =
        some lockdownState ∧
      ∀ packet, ToManager dottedText lockdownContext packet →
        lockdownState.verdict packet = .allow := by
  have hgate : managerIpSpecific dottedText lockdownContext.managerIp = true := by decide
  have hrun : runLines dottedText (ufwCompile [denyOutRule] lockdownContext).commands
      ⟨[], .allow, .allow⟩ = some lockdownState := by decide +kernel
  exact ⟨hgate, hrun, (umbilical_guards_manager hgate rfl hrun).1⟩

end FirewallManager
