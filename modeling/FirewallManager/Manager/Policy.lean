import FirewallManager.Manager.Database

/-!
# Roles and the rule policy engine

What stands between a user and the policy tables: the role of the user, the groups of hosts an
operator may act on, and the check that flags broad allow rules. A flagged rule lets any source
reach any port, and assigning a set that contains one needs an admin.
-/

namespace FirewallManager

/-- The authenticated user of a request. -/
structure AuthUser where
  userId : Uuid
  username : String
  role : UserRole
  deriving DecidableEq, Repr

/-- The user is an admin. -/
def UserRole.isAdmin : UserRole → Bool
  | .admin => true
  | _ => false

/-- Everyone but a reporter may write. -/
def UserRole.canWrite : UserRole → Bool
  | .admin => true
  | .operator => true
  | .breakGlassOperator => true
  | .reporter => false

/-- The user is a break-glass operator. -/
def UserRole.isBreakGlass : UserRole → Bool
  | .breakGlassOperator => true
  | _ => false

/-- The host is in a group that the user was given. -/
def Database.inOperatorGroups (db : Database) (userId host : Uuid) : Bool :=
  db.operatorHostGroups.rows.any fun given =>
    decide (given.userId = userId) && db.hostGroups.rows.any fun member =>
      decide (member.groupId = given.groupId) && decide (member.hostId = host)

/-- Admins and break-glass operators may act on every host, operators on those of their groups. -/
def Database.canAccessHost (db : Database) (user : AuthUser) (host : Uuid) : Bool :=
  if user.role.isAdmin || user.role.isBreakGlass then true
  else if !user.role.canWrite then false
  else db.inOperatorGroups user.userId host

/-- The answer of the policy engine about a rule. -/
structure PolicyCheckResult where
  allowed : Bool
  requiresApproval : Bool
  reason : String
  deriving DecidableEq, Repr

/-- An allow rule from any source to any port requires approval. -/
def checkRule (rule : FirewallRule) : PolicyCheckResult :=
  let isBroadSrc : Bool :=
    match rule.srcCidr with
    | some cidr => cidr == "0.0.0.0/0" || cidr == "::/0" || cidr == "any"
    | none => true
  let isBroadDstPort := rule.dstPortStart.isNone && rule.dstPortEnd.isNone
  if rule.action = .allow ∧ isBroadSrc ∧ isBroadDstPort then
    ⟨true, true, "Broad allow rule (any source, any port) requires admin approval"⟩
  else ⟨true, false, "Auto-approved"⟩

/-- The ids of the rules that require approval. -/
def checkPolicySetForFlagged (rules : List FirewallRule) : List Uuid :=
  (rules.filter fun rule => (checkRule rule).requiresApproval).map FirewallRule.id

/-- The compiled policy of a set in the domain model. -/
def Database.rulesForPolicySet (db : Database) (policySetId : Uuid) : List FirewallRule :=
  (db.compiledRules policySetId).map StoredRule.toModel

/-- The ids of the flagged rules of a set. -/
def Database.flaggedRuleIdsForSet (db : Database) (policySetId : Uuid) : List Uuid :=
  checkPolicySetForFlagged (db.rulesForPolicySet policySetId)

/-- The stored rule requires approval. -/
def StoredRule.flagged (rule : StoredRule) : Bool :=
  (checkRule rule.toModel).requiresApproval

/-- The gate passes exactly the sets without a flagged rule. -/
theorem Database.flaggedRuleIdsForSet_eq_nil_iff {db : Database} {policySetId : Uuid} :
    db.flaggedRuleIdsForSet policySetId = [] ↔
      ∀ rule ∈ db.compiledRules policySetId, rule.flagged = false := by
  simp [flaggedRuleIdsForSet, checkPolicySetForFlagged, rulesForPolicySet, StoredRule.flagged]

end FirewallManager
