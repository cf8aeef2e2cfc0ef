import FirewallManager.Core.Models
import FirewallManager.Lib.FirstMatch
import FirewallManager.Net.Packet

/-!
# UFW as a state machine

What the commands of the backend do to UFW. The firewall keeps its rules in the order they were
added and a default per direction. The first matching rule decides a packet, and the default
of its direction decides it when none matches. A reset clears the rules and leaves the defaults.

`parseUfw` reads the argument words of a `ufw` process: the fixed commands, `default`, and the
rule syntax as a sequence of keyword clauses. Words it does not know make the process fail,
and a failed process changes nothing.
-/

namespace FirewallManager

/-- What a UFW rule does with a packet. -/
inductive UfwAction where
  | allow
  | deny
  | reject
  | limit
  deriving DecidableEq, Repr

/-- The packet does not get through. -/
def UfwAction.blocks : UfwAction → Bool
  | .deny => true
  | .reject => true
  | _ => false

/-- A default policy as the outcome for packets that no rule matches. -/
def defaultOutcome : FirewallDefaultPolicy → UfwAction
  | .allow => .allow
  | .deny => .deny
  | .reject => .reject

/-- The addresses of a `from` or `to` clause. -/
inductive Target where
  | any
  | host (ip : IpAddr)
  | net (network : IpNet)
  deriving DecidableEq

/-- The target covers the address. -/
def Target.covers : Target → IpAddr → Bool
  | .any, _ => true
  | .host ip, other => decide (ip = other)
  | .net network, other => decide (network.Contains other)

/-- The family a target is limited to. -/
def Target.family? : Target → Option IpFamily
  | .any => none
  | .host ip => some ip.family
  | .net network => some network.addr.family

/-- The protocols UFW accepts in a `proto` clause. -/
inductive UfwProtocol where
  | any
  | tcp
  | udp
  | ah
  | esp
  | gre
  deriving DecidableEq, Repr

/-- The clause covers the protocol. -/
def UfwProtocol.covers : UfwProtocol → PacketProtocol → Bool
  | .any, _ => true
  | .tcp, .tcp => true
  | .udp, .udp => true
  | .ah, .ah => true
  | .esp, .esp => true
  | .gre, .gre => true
  | _, _ => false

/-- A rule of the firewall. A port range holds its two ends. -/
structure UfwRule where
  action : UfwAction
  flow : Flow
  log : Bool
  iface : Option String
  protocol : UfwProtocol
  src : Target
  srcPorts : Option (Nat × Nat)
  dst : Target
  dstPorts : Option (Nat × Nat)
  deriving DecidableEq

/-- The range admits the port. Without a range every packet is admitted, also one without
ports. -/
def portsCover : Option (Nat × Nat) → Option Nat → Bool
  | none, _ => true
  | some (start, stop), some port => decide (start ≤ port ∧ port ≤ stop)
  | some _, none => false

/-- The rule matches the packet. -/
def UfwRule.hits (rule : UfwRule) (packet : Packet) : Bool :=
  decide (rule.flow = packet.flow) && rule.iface.all (· == packet.iface) &&
    rule.protocol.covers packet.protocol && rule.src.covers packet.src &&
    rule.dst.covers packet.dst && portsCover rule.srcPorts packet.srcPort &&
    portsCover rule.dstPorts packet.dstPort

/-- The firewall: its rules in the order they were added, and its defaults. -/
structure UfwState where
  rules : List UfwRule
  incoming : FirewallDefaultPolicy
  outgoing : FirewallDefaultPolicy
  deriving DecidableEq

/-- The default of a direction. -/
def UfwState.default (state : UfwState) : Flow → FirewallDefaultPolicy
  | .inbound => state.incoming
  | .outbound => state.outgoing

/-- What the firewall does with a packet. -/
def UfwState.verdict (state : UfwState) (packet : Packet) : UfwAction :=
  FirstMatch.verdict UfwRule.hits UfwRule.action (defaultOutcome (state.default packet.flow))
    state.rules packet

/-- The commands of the firewall. `keep` stands for enable, reload and status, which change
neither rules nor defaults. -/
inductive UfwCommand where
  | reset
  | keep
  | setDefault (policy : FirewallDefaultPolicy) (flow : Flow)
  | add (rule : UfwRule)
  deriving DecidableEq

/-- What a command does. -/
def UfwState.step (state : UfwState) : UfwCommand → UfwState
  | .reset => { state with rules := [] }
  | .keep => state
  | .setDefault policy .inbound => { state with incoming := policy }
  | .setDefault policy .outbound => { state with outgoing := policy }
  | .add rule => { state with rules := state.rules ++ [rule] }

/-- The word of a default policy. -/
def policyOfWord : String → Option FirewallDefaultPolicy
  | "allow" => some .allow
  | "deny" => some .deny
  | "reject" => some .reject
  | _ => none

/-- The word of a direction in a `default` command. -/
def flowOfWord : String → Option Flow
  | "incoming" => some .inbound
  | "outgoing" => some .outbound
  | _ => none

/-- The word that starts a rule. -/
def ufwActionOfWord : String → Option UfwAction
  | "allow" => some .allow
  | "deny" => some .deny
  | "reject" => some .reject
  | "limit" => some .limit
  | _ => none

/-- The value of a `proto` clause. -/
def ufwProtocolOfWord : String → Option UfwProtocol
  | "any" => some .any
  | "tcp" => some .tcp
  | "udp" => some .udp
  | "ah" => some .ah
  | "esp" => some .esp
  | "gre" => some .gre
  | _ => none

/-- The value of a `port` clause: a port, or a range `start:end`. -/
def portsOfWord (word : String) : Option (Nat × Nat) :=
  match (Text.cut ':' word.toList).map fun field => Text.parseDecimal (String.ofList field) with
  | [some port] => if 1 ≤ port ∧ port ≤ 65535 then some (port, port) else none
  | [some start, some stop] =>
    if 1 ≤ start ∧ start < stop ∧ stop ≤ 65535 then some (start, stop) else none
  | _ => none

section Parse

variable (text : AddressText)

/-- The value of a `from` or `to` clause. -/
def targetOfWord (word : String) : Option Target :=
  if word = "any" then some .any
  else
    match text.parseAddr word with
    | some ip => some (.host ip)
    | none => (text.parseNet word).map .net

/-- The side that the next `port` clause belongs to. -/
inductive Side where
  | none
  | src
  | dst
  deriving DecidableEq, Repr

/-- Read the clauses of a rule, one keyword after the other. -/
def parseClauses : List String → Side → UfwRule → Option UfwRule
  | [], _, rule => some rule
  | "in" :: rest, side, rule => parseClauses rest side { rule with flow := .inbound }
  | "out" :: rest, side, rule => parseClauses rest side { rule with flow := .outbound }
  | "log" :: rest, side, rule => parseClauses rest side { rule with log := true }
  | "on" :: name :: rest, side, rule => parseClauses rest side { rule with iface := some name }
  | "proto" :: word :: rest, side, rule => do
      let protocol ← ufwProtocolOfWord word
      parseClauses rest side { rule with protocol := protocol }
  | "from" :: word :: rest, _, rule => do
      let target ← targetOfWord text word
      parseClauses rest .src { rule with src := target }
  | "to" :: word :: rest, _, rule => do
      let target ← targetOfWord text word
      parseClauses rest .dst { rule with dst := target }
  -- A port belongs to the side of the last address before it.
  | "port" :: word :: rest, .src, rule => do
      let ports ← portsOfWord word
      parseClauses rest .src { rule with srcPorts := some ports }
  | "port" :: word :: rest, .dst, rule => do
      let ports ← portsOfWord word
      parseClauses rest .dst { rule with dstPorts := some ports }
  | "comment" :: _ :: rest, side, rule => parseClauses rest side rule
  | _, _, _ => none

section Clauses

variable (word : String) (rest : List String) (side : Side) (rule : UfwRule)

@[simp] theorem parseClauses_nil : parseClauses text [] side rule = some rule :=
  rfl

@[simp] theorem parseClauses_out : parseClauses text ("out" :: rest) side rule =
    parseClauses text rest side { rule with flow := .outbound } :=
  rfl

@[simp] theorem parseClauses_proto : parseClauses text ("proto" :: word :: rest) side rule =
    (ufwProtocolOfWord word).bind fun protocol =>
      parseClauses text rest side { rule with protocol := protocol } :=
  rfl

@[simp] theorem parseClauses_from : parseClauses text ("from" :: word :: rest) side rule =
    (targetOfWord text word).bind fun target =>
      parseClauses text rest .src { rule with src := target } :=
  rfl

@[simp] theorem parseClauses_to : parseClauses text ("to" :: word :: rest) side rule =
    (targetOfWord text word).bind fun target =>
      parseClauses text rest .dst { rule with dst := target } :=
  rfl

@[simp] theorem parseClauses_src_port : parseClauses text ("port" :: word :: rest) .src rule =
    (portsOfWord word).bind fun ports =>
      parseClauses text rest .src { rule with srcPorts := some ports } :=
  rfl

@[simp] theorem parseClauses_dst_port : parseClauses text ("port" :: word :: rest) .dst rule =
    (portsOfWord word).bind fun ports =>
      parseClauses text rest .dst { rule with dstPorts := some ports } :=
  rfl

@[simp] theorem parseClauses_comment : parseClauses text ("comment" :: word :: rest) side rule =
    parseClauses text rest side rule :=
  rfl

end Clauses

/-- UFW takes a port range only with `tcp` or `udp`, no ports with `ah`, `esp` or `gre`, and no
addresses of different families. -/
def UfwRule.accepted (rule : UfwRule) : Bool :=
  let ranges := [rule.srcPorts, rule.dstPorts].filterMap id
  let families := [rule.src.family?, rule.dst.family?].filterMap id
  (rule.protocol == .tcp || rule.protocol == .udp ||
    (rule.protocol == .any && ranges.all fun range => range.1 == range.2) || ranges.isEmpty) &&
  families.all fun family => families.all (· == family)

/-- A rule before its clauses are read: inbound, from anywhere to anywhere. -/
def blankRule (action : UfwAction) : UfwRule :=
  ⟨action, .inbound, false, none, .any, .any, none, .any, none⟩

/-- Read the argument words of a rule command. -/
def parseRule (action : UfwAction) (words : List String) : Option UfwRule :=
  (parseClauses text words .none (blankRule action)).filter UfwRule.accepted

/-- Read the argument words of a `ufw` process. -/
def parseUfw : List String → Option UfwCommand
  | ["--force", "reset"] => some .reset
  | ["--force", "enable"] => some .keep
  | ["reload"] => some .keep
  | "status" :: _ => some .keep
  | "default" :: words =>
    match words with
    | [policy, direction] => do
        let policy ← policyOfWord policy
        let flow ← flowOfWord direction
        some (.setDefault policy flow)
    | _ => none
  | word :: words => do
      let action ← ufwActionOfWord word
      let rule ← parseRule text action words
      some (.add rule)
  | [] => none

theorem parseUfw_action {word : String} {action : UfwAction}
    (h : ufwActionOfWord word = some action) (words : List String) :
    parseUfw text (word :: words) = (parseRule text action words).map .add := by
  have hbind : parseUfw text (word :: words) =
      (parseRule text action words).bind fun rule => some (.add rule) := by
    unfold ufwActionOfWord at h
    split at h <;> cases h <;> rfl
  rw [hbind]
  cases parseRule text action words <;> rfl

theorem parseUfw_default {words : List String} {command : UfwCommand}
    (h : parseUfw text ("default" :: words) = some command) :
    ∃ policy flow, command = .setDefault policy flow := by
  rcases words with _ | ⟨policy, _ | ⟨direction, _ | ⟨extra, words⟩⟩⟩
  · cases h
  · cases h
  · have heq : parseUfw text ["default", policy, direction] =
        (policyOfWord policy).bind fun policy =>
          (flowOfWord direction).bind fun flow => some (.setDefault policy flow) := rfl
    rw [heq] at h
    simp only [Option.bind_eq_some_iff, Option.some.injEq] at h
    obtain ⟨policy, -, flow, -, rfl⟩ := h
    exact ⟨policy, flow, rfl⟩
  · cases h

/-- The UFW command that a compiled command line runs. A line that cannot be split, runs another
program or is not understood fails. -/
def commandOfLine (line : String) : Option UfwCommand :=
  match Shlex.split line with
  | some ("ufw" :: args) => parseUfw text args
  | _ => none

theorem split_of_commandOfLine {line : String} {command : UfwCommand}
    (h : commandOfLine text line = some command) :
    ∃ args, Shlex.split line = some ("ufw" :: args) ∧ parseUfw text args = some command := by
  unfold commandOfLine at h
  split at h
  next args hsplit => exact ⟨args, hsplit, h⟩
  next => cases h

theorem exists_line_of_mem {lines : List String} {commands : List UfwCommand}
    (h : lines.mapM (commandOfLine text) = some commands) {command : UfwCommand}
    (hmem : command ∈ commands) : ∃ line ∈ lines, commandOfLine text line = some command := by
  induction lines generalizing commands with
  | nil =>
    obtain rfl : [] = commands := by simpa using h
    cases hmem
  | cons line lines ih =>
    simp only [List.mapM_cons, Option.bind_eq_bind, Option.bind_eq_some_iff, Option.pure_def,
      Option.some.injEq] at h
    obtain ⟨first, hfirst, rest, hrest, rfl⟩ := h
    rcases List.mem_cons.mp hmem with rfl | hmem
    · exact ⟨line, by simp, hfirst⟩
    · obtain ⟨other, hother, heq⟩ := ih hrest hmem
      exact ⟨other, by simp [hother], heq⟩

/-- Run command lines in order, all of which have to succeed. -/
def runLines (lines : List String) (state : UfwState) : Option UfwState :=
  (lines.mapM (commandOfLine text)).map fun commands => commands.foldl UfwState.step state

@[simp] theorem runLines_nil (state : UfwState) : runLines text [] state = some state :=
  rfl

@[simp] theorem runLines_cons (line : String) (lines : List String) (state : UfwState) :
    runLines text (line :: lines) state =
      (commandOfLine text line).bind fun command => runLines text lines (state.step command) := by
  rw [runLines, List.mapM_cons]
  cases commandOfLine text line with
  | none => rfl
  | some command =>
    rw [Option.bind_some, runLines]
    cases lines.mapM (commandOfLine text) <;> rfl

theorem runLines_append (lines lines' : List String) (state : UfwState) :
    runLines text (lines ++ lines') state =
      (runLines text lines state).bind (runLines text lines') := by
  induction lines generalizing state with
  | nil => rfl
  | cons line lines ih =>
    rw [List.cons_append, runLines_cons, runLines_cons, Option.bind_assoc]
    simp only [ih]

end Parse

theorem foldl_step_cons {commands : List UfwCommand} (h : UfwCommand.reset ∉ commands)
    (rule : UfwRule) (state : UfwState) :
    commands.foldl UfwState.step { state with rules := rule :: state.rules } =
      { commands.foldl UfwState.step state with
        rules := rule :: (commands.foldl UfwState.step state).rules } := by
  induction commands generalizing state with
  | nil => rfl
  | cons command commands ih =>
    simp only [List.mem_cons, not_or] at h
    have hstep : UfwState.step { state with rules := rule :: state.rules } command =
        { state.step command with rules := rule :: (state.step command).rules } := by
      cases command with
      | reset => exact absurd rfl h.1
      | keep => rfl
      | setDefault policy flow => cases flow <;> rfl
      | add new => rfl
    rw [List.foldl_cons, List.foldl_cons, hstep, ih h.2]

end FirewallManager
