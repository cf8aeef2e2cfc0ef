import FirewallManager.Core.CheckIn
import FirewallManager.Lib.Table
import Mathlib.Data.List.Sort

/-!
# The manager's database

The tables behind the agent API and the policy administration, as far as the modelled handlers
read or write them. Every table with a primary key is a `Table`, so its keys are distinct.
Logs that are only appended to are lists. Times are seconds.

`compiledRules` is the policy of a set: the rules of its groups, ordered by the position of the
group, the position of the rule in its group, and the rule's priority. The agent API, the
previews and the broad-allow gate all read it.
-/

namespace FirewallManager

/-- A row of `hosts`. -/
structure Host where
  id : Uuid
  agentVersion : Option String
  healthStatus : HostHealthStatus
  lastHealthAt : Option Nat
  deriving DecidableEq, Repr

/-- A row of `groups`. -/
structure Group where
  id : Uuid
  name : String
  description : String
  deriving DecidableEq, Repr

/-- A row of `host_groups`: the host is a member of the group. -/
structure HostGroup where
  hostId : Uuid
  groupId : Uuid
  deriving DecidableEq, Repr

/-- A row of `operator_host_groups`: the operator may act on the group's hosts. -/
structure OperatorHostGroup where
  userId : Uuid
  groupId : Uuid
  deriving DecidableEq, Repr

/-- A row of `firewall_rule_groups`. -/
structure RuleGroup where
  id : Uuid
  name : String
  description : String
  deriving DecidableEq, Repr

/-- A row of `firewall_policy_sets`. An absent default is the system's. -/
structure PolicySet where
  id : Uuid
  name : String
  description : String
  defaultInputPolicy : Option FirewallDefaultPolicy
  defaultOutputPolicy : Option FirewallDefaultPolicy
  deriving DecidableEq, Repr

/-- A row of `firewall_policy_set_rule_groups`: the set includes the group at a position. -/
structure SetGroup where
  policySetId : Uuid
  ruleGroupId : Uuid
  setGroupOrder : Int
  deriving DecidableEq, Repr

/-- A row of `host_policy_assignments`. -/
structure Assignment where
  hostId : Uuid
  policySetId : Uuid
  assignedBy : Option Uuid
  deriving DecidableEq, Repr

/-- A row of `host_config_overrides`. -/
structure HostConfigOverride where
  hostId : Uuid
  checkInIntervalSecs : Int
  pushEnabled : Bool
  safeModeEnabled : Bool
  backendOverride : Option String
  configVersion : Int
  deriving DecidableEq, Repr

/-- A row of `pending_actions`. -/
structure PendingAction where
  id : Uuid
  hostId : Uuid
  actionType : PendingActionType
  payload : String
  reason : String
  priority : Int
  status : PendingActionStatus
  createdAt : Nat
  deliveredAt : Option Nat
  executedAt : Option Nat
  expiresAt : Nat
  deriving DecidableEq, Repr

/-- A row of `agent_check_ins`. -/
structure AgentCheckIn where
  hostId : Uuid
  rulesHash : String
  agentVersion : String
  backendType : String
  osInfo : String
  uptimeSeconds : Int
  configVersion : Int
  checkedInAt : Nat
  deriving DecidableEq, Repr

/-- A row of `drift_snapshots`. -/
structure DriftSnapshot where
  hostId : Uuid
  snapshotHash : String
  ruleCount : Nat
  source : String
  capturedAt : Nat
  deriving DecidableEq, Repr

/-- The tables of the manager. -/
structure Database where
  hosts : Table Host.id
  groups : Table Group.id
  hostGroups : Table fun row : HostGroup => (row.hostId, row.groupId)
  operatorHostGroups : Table fun row : OperatorHostGroup => (row.userId, row.groupId)
  rules : Table StoredRule.id
  ruleGroups : Table RuleGroup.id
  policySets : Table PolicySet.id
  setGroups : Table fun row : SetGroup => (row.policySetId, row.ruleGroupId)
  assignments : Table fun row : Assignment => (row.hostId, row.policySetId)
  configOverrides : Table HostConfigOverride.hostId
  pendingActions : Table PendingAction.id
  checkIns : List AgentCheckIn
  driftSnapshots : List DriftSnapshot

/-- The database without rows. -/
def Database.empty : Database where
  hosts := .empty
  groups := .empty
  hostGroups := .empty
  operatorHostGroups := .empty
  rules := .empty
  ruleGroups := .empty
  policySets := .empty
  setGroups := .empty
  assignments := .empty
  configOverrides := .empty
  pendingActions := .empty
  checkIns := []
  driftSnapshots := []

/-- The errors of the manager's API. A database error carries the violated constraint. -/
inductive AppError where
  | notFound (message : String)
  | forbidden (message : String)
  | badRequest (message : String)
  | conflict (message : String)
  | database (constraint : String)
  deriving DecidableEq, Repr

/-- The database after a delete of the host with its cascades. -/
def Database.without (db : Database) (host : Uuid) : Database :=
  { db with
    hosts := db.hosts.delete fun row => decide (row.id = host)
    hostGroups := db.hostGroups.delete fun row => decide (row.hostId = host)
    assignments := db.assignments.delete fun row => decide (row.hostId = host)
    configOverrides := db.configOverrides.delete fun row => decide (row.hostId = host)
    pendingActions := db.pendingActions.delete fun row => decide (row.hostId = host)
    checkIns := db.checkIns.filter fun row => decide (row.hostId ≠ host)
    driftSnapshots := db.driftSnapshots.filter fun row => decide (row.hostId ≠ host) }

/-- The apply order: by the group in its set, the rule in its group, and the rule's priority. -/
def ApplyBefore (a b : SetGroup × StoredRule) : Prop :=
  a.1.setGroupOrder < b.1.setGroupOrder ∨ a.1.setGroupOrder = b.1.setGroupOrder ∧
    (a.2.groupOrder < b.2.groupOrder ∨ a.2.groupOrder = b.2.groupOrder ∧
      a.2.priority ≤ b.2.priority)

/-- Positions are compared number by number. -/
instance : DecidableRel ApplyBefore :=
  fun _ _ => inferInstanceAs (Decidable (_ ∨ _))

/-- The compiled policy of a set, in apply order. -/
def Database.compiledRules (db : Database) (policySetId : Uuid) : List StoredRule :=
  let links := db.setGroups.select fun link => decide (link.policySetId = policySetId)
  let joined := links.flatMap fun link =>
    (db.rules.select fun rule => decide (rule.ruleGroupId = link.ruleGroupId)).map (link, ·)
  (joined.insertionSort ApplyBefore).map Prod.snd

theorem Database.mem_compiledRules {db : Database} {policySetId : Uuid} {rule : StoredRule} :
    rule ∈ db.compiledRules policySetId ↔
      rule ∈ db.rules.rows ∧ ∃ link ∈ db.setGroups.rows, link.policySetId = policySetId ∧
        link.ruleGroupId = rule.ruleGroupId := by
  simp only [compiledRules, List.mem_map, List.mem_insertionSort, List.mem_flatMap,
    Table.mem_select, decide_eq_true_eq, Prod.exists, Prod.mk.injEq]
  constructor
  · rintro ⟨link, _, ⟨_, ⟨hlink, hset⟩, _, ⟨hrule, hgroup⟩, rfl, rfl⟩, rfl⟩
    exact ⟨hrule, _, hlink, hset, hgroup.symm⟩
  · rintro ⟨hrule, link, hlink, hset, hgroup⟩
    exact ⟨link, rule, ⟨link, ⟨hlink, hset⟩, rule, ⟨hrule, hgroup.symm⟩, rfl, rfl⟩, rfl⟩

end FirewallManager
