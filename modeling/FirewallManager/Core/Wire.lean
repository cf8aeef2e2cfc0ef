import FirewallManager.Core.RulesHash

/-!
# Rules on their way from the database to the agent

A policy rule is stored as a typed row of `firewall_rules`, read by the manager as a row of
texts, sent to the agent as a `RuleDto`, and decoded there into a `FirewallRule`. The
encodings use three separate string tables: the enum labels of the schema, the labels of the
domain model, and the decoding table of the agent.

`decodeStored` is the whole way. It keeps every field that the drift hash covers
(`hashParts_decodeStored`), so the manager's hash over the rows is the agent's hash over the
decoded rules (`expectedHash_eq`).
-/

namespace FirewallManager

/-- A pair of port columns that passes the CHECK constraints of `firewall_rules`. -/
structure PortRange where
  start : Int
  stop : Int
  one_le_start : 1 ≤ start
  start_le_stop : start ≤ stop
  stop_le : stop ≤ 65535
  deriving DecidableEq

/-- The SSH port alone. -/
def PortRange.ssh : PortRange :=
  ⟨22, 22, by decide, by decide, by decide⟩

/-- A row of `firewall_rules`. A port range is absent or complete, as the table's constraints
demand, and the CIDR columns hold the text form of an `inet` value. -/
structure StoredRule where
  id : Uuid
  name : String
  description : String
  action : FirewallAction
  direction : FirewallDirection
  protocol : FirewallProtocol
  srcCidr : Option String
  srcPorts : Option PortRange
  dstCidr : Option String
  dstPorts : Option PortRange
  interfaceIn : Option String
  interfaceOut : Option String
  comment : String
  log : Bool
  priority : Int
  ruleGroupId : Uuid
  groupOrder : Int
  deriving DecidableEq

/-- The stored form of a rule that opens the SSH port. -/
def sshStored : StoredRule where
  id := ⟨22⟩
  name := "ssh"
  description := ""
  action := .allow
  direction := .in
  protocol := .tcp
  srcCidr := none
  srcPorts := none
  dstCidr := none
  dstPorts := some .ssh
  interfaceIn := none
  interfaceOut := none
  comment := ""
  log := false
  priority := 100
  ruleGroupId := ⟨3⟩
  groupOrder := 0

/-- The label of `firewall_action` in the schema. -/
def FirewallAction.sqlLabel : FirewallAction → String
  | .allow => "allow"
  | .deny => "deny"
  | .reject => "reject"
  | .limit => "limit"
  | .masquerade => "masquerade"

/-- The label of `firewall_direction` in the schema. -/
def FirewallDirection.sqlLabel : FirewallDirection → String
  | .in => "in"
  | .out => "out"
  | .forward => "forward"

/-- The label of `firewall_protocol` in the schema. -/
def FirewallProtocol.sqlLabel : FirewallProtocol → String
  | .any => "any"
  | .tcp => "tcp"
  | .udp => "udp"
  | .icmp => "icmp"
  | .icmpv6 => "icmpv6"
  | .gre => "gre"
  | .esp => "esp"
  | .ah => "ah"
  | .sctp => "sctp"

/-- The row of `firewall_rules` as `fetch_rules_for_policy_set` selects it, with the enum
columns cast to text. -/
structure RuleRow where
  id : Uuid
  name : String
  action : String
  direction : String
  protocol : String
  srcCidr : Option String
  srcPortStart : Option Int
  srcPortEnd : Option Int
  dstCidr : Option String
  dstPortStart : Option Int
  dstPortEnd : Option Int
  interfaceIn : Option String
  interfaceOut : Option String
  priority : Int
  log : Bool
  deriving DecidableEq, Repr

/-- The wire form of a rule in a check-in response. -/
structure RuleDto where
  id : Uuid
  name : String
  action : String
  direction : String
  protocol : String
  srcCidr : Option String
  srcPortStart : Option Int
  srcPortEnd : Option Int
  dstCidr : Option String
  dstPortStart : Option Int
  dstPortEnd : Option Int
  interfaceIn : Option String
  interfaceOut : Option String
  priority : Int
  log : Bool
  deriving DecidableEq, Repr

/-- The selected columns of a stored rule. -/
def StoredRule.toRow (rule : StoredRule) : RuleRow where
  id := rule.id
  name := rule.name
  action := rule.action.sqlLabel
  direction := rule.direction.sqlLabel
  protocol := rule.protocol.sqlLabel
  srcCidr := rule.srcCidr
  srcPortStart := rule.srcPorts.map (·.start)
  srcPortEnd := rule.srcPorts.map (·.stop)
  dstCidr := rule.dstCidr
  dstPortStart := rule.dstPorts.map (·.start)
  dstPortEnd := rule.dstPorts.map (·.stop)
  interfaceIn := rule.interfaceIn
  interfaceOut := rule.interfaceOut
  priority := rule.priority
  log := rule.log

/-- The stored rule as the manager's own code reads it, through `FIREWALL_RULE_COLS`. -/
def StoredRule.toModel (rule : StoredRule) : FirewallRule where
  id := rule.id
  name := rule.name
  description := rule.description
  action := rule.action
  direction := rule.direction
  protocol := rule.protocol
  srcCidr := rule.srcCidr
  srcPortStart := rule.srcPorts.map (·.start)
  srcPortEnd := rule.srcPorts.map (·.stop)
  dstCidr := rule.dstCidr
  dstPortStart := rule.dstPorts.map (·.start)
  dstPortEnd := rule.dstPorts.map (·.stop)
  interfaceIn := rule.interfaceIn
  interfaceOut := rule.interfaceOut
  comment := rule.comment
  log := rule.log
  priority := rule.priority

/-- The manager's conversion of a row into its wire form. -/
def ruleToDto (row : RuleRow) : RuleDto where
  id := row.id
  name := row.name
  action := row.action
  direction := row.direction
  protocol := row.protocol
  srcCidr := row.srcCidr
  srcPortStart := row.srcPortStart
  srcPortEnd := row.srcPortEnd
  dstCidr := row.dstCidr
  dstPortStart := row.dstPortStart
  dstPortEnd := row.dstPortEnd
  interfaceIn := row.interfaceIn
  interfaceOut := row.interfaceOut
  priority := row.priority
  log := row.log

/-- The agent's reading of an action text. An unknown text is read as `allow`. -/
def actionOfText : String → FirewallAction
  | "allow" => .allow
  | "deny" => .deny
  | "reject" => .reject
  | "limit" => .limit
  | "masquerade" => .masquerade
  | _ => .allow

/-- The agent's reading of a direction text. An unknown text is read as `in`. -/
def directionOfText : String → FirewallDirection
  | "in" => .in
  | "out" => .out
  | "forward" => .forward
  | _ => .in

/-- The agent's reading of a protocol text. An unknown text is read as `any`. -/
def protocolOfText : String → FirewallProtocol
  | "any" => .any
  | "tcp" => .tcp
  | "udp" => .udp
  | "icmp" => .icmp
  | "icmpv6" => .icmpv6
  | "gre" => .gre
  | "esp" => .esp
  | "ah" => .ah
  | "sctp" => .sctp
  | _ => .any

/-- The agent's conversion of a wire rule into the domain model. The rule's name becomes its
comment, and the description is not sent. -/
def dtoToRule (dto : RuleDto) : FirewallRule where
  id := dto.id
  name := dto.name
  description := ""
  action := actionOfText dto.action
  direction := directionOfText dto.direction
  protocol := protocolOfText dto.protocol
  srcCidr := dto.srcCidr
  srcPortStart := dto.srcPortStart
  srcPortEnd := dto.srcPortEnd
  dstCidr := dto.dstCidr
  dstPortStart := dto.dstPortStart
  dstPortEnd := dto.dstPortEnd
  interfaceIn := dto.interfaceIn
  interfaceOut := dto.interfaceOut
  comment := dto.name
  log := dto.log
  priority := dto.priority

/-- The rule that the agent decodes from a stored rule. -/
def decodeStored (rule : StoredRule) : FirewallRule :=
  dtoToRule (ruleToDto rule.toRow)

/-- The manager's view of a row for the drift hash. -/
def RuleRow.hashParts (row : RuleRow) : RuleHashParts where
  id := row.id
  action := row.action
  direction := row.direction
  protocol := row.protocol
  srcCidr := row.srcCidr
  dstCidr := row.dstCidr
  dstPortStart := row.dstPortStart

/-- The hash the manager expects from a host with the assigned rows. -/
def expectedHash (sha256 : List UInt8 → List UInt8) (rows : List RuleRow) : String :=
  computeRulesHash sha256 (rows.map RuleRow.hashParts)

/-- The hash the agent reports for its cached last-applied ruleset. It is empty when nothing was
ever applied. -/
def reportedRulesHash (sha256 : List UInt8 → List UInt8)
    (lastGood : Option (List FirewallRule)) : String :=
  match lastGood with
  | some applied => computeRulesHash sha256 (applied.map FirewallRule.hashParts)
  | none => ""

/-- The manager's answer to a reported hash. -/
def rulesChanged (reported expected : String) : Bool :=
  reported != expected

@[simp] theorem actionOfText_sqlLabel (action : FirewallAction) :
    actionOfText action.sqlLabel = action := by
  cases action <;> rfl

@[simp] theorem directionOfText_sqlLabel (direction : FirewallDirection) :
    directionOfText direction.sqlLabel = direction := by
  cases direction <;> rfl

@[simp] theorem protocolOfText_sqlLabel (protocol : FirewallProtocol) :
    protocolOfText protocol.sqlLabel = protocol := by
  cases protocol <;> rfl

@[simp] theorem FirewallAction.asStr_eq_sqlLabel (action : FirewallAction) :
    action.asStr = action.sqlLabel := by
  cases action <;> rfl

@[simp] theorem FirewallDirection.asStr_eq_sqlLabel (direction : FirewallDirection) :
    direction.asStr = direction.sqlLabel := by
  cases direction <;> rfl

@[simp] theorem FirewallProtocol.asStr_eq_sqlLabel (protocol : FirewallProtocol) :
    protocol.asStr = protocol.sqlLabel := by
  cases protocol <;> rfl

theorem hashParts_decodeStored (rule : StoredRule) :
    (decodeStored rule).hashParts = rule.toRow.hashParts := by
  simp [decodeStored, dtoToRule, ruleToDto, FirewallRule.hashParts, RuleRow.hashParts,
    StoredRule.toRow]

theorem expectedHash_eq (sha256 : List UInt8 → List UInt8) (policy : List StoredRule) :
    expectedHash sha256 (policy.map StoredRule.toRow) =
      reportedRulesHash sha256 (some (policy.map decodeStored)) := by
  simp only [expectedHash, reportedRulesHash, List.map_map]
  congr 1
  exact List.map_congr_left fun rule _ => (hashParts_decodeStored rule).symm

end FirewallManager
