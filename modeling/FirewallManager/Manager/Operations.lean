import FirewallManager.Manager.PolicyAdmin

/-!
# The management API as a state machine

Every state-changing operation of the policy administration is an `Operation`, and `perform`
runs one for a user. Identifiers of new rows are drawn by the database and are part of the
operation. A run of the API is a list of calls under `step`.

`requireWrite_keeps` and `requireAdmin_keeps` take the role checks out of every later proof, and
`Hosts.assignPolicySet_keeps` and `Deployment.assignPolicySet_keeps` the broad-allow gate.
-/

namespace FirewallManager

/-- The state-changing operations. -/
inductive Operation where
  | deleteHost (id : Uuid)
  | assignPolicySet (host policySetId : Uuid)
  | unassignPolicySet (host policySetId : Uuid)
  | deploymentAssign (req : Deployment.Request)
  | deploymentUnassign (req : Deployment.Request)
  | createGroup (id : Uuid) (name : String) (description : Option String)
  | deleteGroup (id : Uuid)
  | addHostToGroup (id host : Uuid)
  | removeHostFromGroup (id host : Uuid)
  | createRuleGroup (id : Uuid) (name : String) (description : Option String)
  | updateRuleGroup (id : Uuid) (name description : Option String)
  | deleteRuleGroup (id : Uuid)
  | createRuleInGroup (id groupId : Uuid) (req : RuleGroups.CreateRuleInGroupRequest)
  | reorderGroupRules (groupId : Uuid) (ruleIds : List Uuid)
  | updateRule (id : Uuid) (req : Rules.UpdateRuleRequest)
  | deleteRule (id : Uuid)
  | createPolicySet (id : Uuid) (name : String) (description : Option String)
      (defaultInputPolicy defaultOutputPolicy : Option FirewallDefaultPolicy)
  | updatePolicySet (id : Uuid) (req : PolicySets.UpdatePolicySetRequest)
  | deletePolicySet (id : Uuid)
  | addGroupToSet (id ruleGroupId : Uuid) (setGroupOrder : Option Int)
  | removeGroupFromSet (id groupId : Uuid)
  | reorderGroups (id : Uuid) (ruleGroupIds : List Uuid)
  deriving DecidableEq, Repr

/-- An operation and the user who asks for it. -/
structure ApiCall where
  user : AuthUser
  operation : Operation
  deriving DecidableEq, Repr

/-- Drop the body of an answer. -/
def settle {α : Type} (answer : Except AppError α × Database) : Except AppError Unit × Database :=
  (answer.1.map fun _ => (), answer.2)

variable (inetText : String → Option String)

/-- Run an operation for a user. -/
def perform (user : AuthUser) (operation : Operation) (db : Database) :
    Except AppError Unit × Database :=
  match operation with
  | .deleteHost id => Hosts.deleteHost user id db
  | .assignPolicySet host set => Hosts.assignPolicySet user host set db
  | .unassignPolicySet host set => Hosts.unassignPolicySet user host set db
  | .deploymentAssign req => settle (Deployment.assignPolicySet user req db)
  | .deploymentUnassign req => settle (Deployment.unassignPolicySet user req db)
  | .createGroup id name description => settle (Groups.createGroup user id name description db)
  | .deleteGroup id => Groups.deleteGroup user id db
  | .addHostToGroup id host => Groups.addHostToGroup user id host db
  | .removeHostFromGroup id host => Groups.removeHostFromGroup user id host db
  | .createRuleGroup id name description =>
    settle (RuleGroups.createRuleGroup user id name description db)
  | .updateRuleGroup id name description =>
    RuleGroups.updateRuleGroup user id name description db
  | .deleteRuleGroup id => RuleGroups.deleteRuleGroup user id db
  | .createRuleInGroup id groupId req =>
    settle (RuleGroups.createRuleInGroup inetText user id groupId req db)
  | .reorderGroupRules groupId ruleIds => RuleGroups.reorderGroupRules user groupId ruleIds db
  | .updateRule id req => settle (Rules.updateRule inetText user id req db)
  | .deleteRule id => Rules.deleteRule user id db
  | .createPolicySet id name description input output =>
    settle (PolicySets.createPolicySet user id name description input output db)
  | .updatePolicySet id req => PolicySets.updatePolicySet user id req db
  | .deletePolicySet id => PolicySets.deletePolicySet user id db
  | .addGroupToSet id group order => PolicySets.addGroupToSet user id group order db
  | .removeGroupFromSet id group => PolicySets.removeGroupFromSet user id group db
  | .reorderGroups id groups => PolicySets.reorderGroups user id groups db

/-- The state after a call. -/
def step (db : Database) (call : ApiCall) : Database :=
  (perform inetText call.user call.operation db).2

section Guards

variable {α : Type} {user : AuthUser} {handler : Database → Except AppError α × Database}
  {db : Database} {P : Database → Prop}

/-- What holds before a guarded handler and after its body holds after it. -/
theorem requireWrite_keeps (hdb : P db) (h : P (handler db).2) :
    P (requireWrite user handler db).2 := by
  unfold requireWrite
  split
  · exact h
  · exact hdb

theorem requireAdmin_keeps (hdb : P db) (h : P (handler db).2) :
    P (requireAdmin user handler db).2 := by
  unfold requireAdmin
  split
  · exact h
  · exact hdb

theorem requireAdmin_of_not_admin (h : user.role.isAdmin = false) :
    (requireAdmin user handler db).2 = db := by
  rw [requireAdmin, if_neg (by simp [h])]

/-- With write access, a guarded handler is its body. -/
theorem requireWrite_of_canWrite (h : user.role.canWrite = true) :
    requireWrite user handler db = handler db := by
  rw [requireWrite, if_pos h]

theorem requireWrite_of_not_canWrite (h : user.role.canWrite = false) :
    (requireWrite user handler db).2 = db := by
  rw [requireWrite, if_neg (by simp [h])]

end Guards

theorem perform_of_not_canWrite {inetText : String → Option String} {user : AuthUser}
    (h : user.role.canWrite = false) (op : Operation) (db : Database) :
    (perform inetText user op db).2 = db := by
  have hadmin : user.role.isAdmin = false := by
    cases hrole : user.role <;> simp [UserRole.canWrite, UserRole.isAdmin, hrole] at h ⊢
  cases op with
  | deleteHost | deleteGroup => exact requireAdmin_of_not_admin hadmin
  | deploymentAssign | deploymentUnassign | createGroup | createRuleGroup | createRuleInGroup
  | updateRule | createPolicySet =>
    rw [perform, settle]
    exact requireWrite_of_not_canWrite h
  | _ => exact requireWrite_of_not_canWrite h

variable {P : Database → Prop}

theorem Deployment.assignHosts_keeps (user : AuthUser) (set : Uuid)
    (hstep : ∀ db host db', P db → db.canAccessHost user host = true →
      db.assign host set user.userId = some db' → P db') (hosts : List Uuid) (assigned : Nat)
    (db : Database) (hdb : P db) :
    P (assignHosts user set hosts assigned db).2 := by
  induction hosts generalizing assigned db with
  | nil => exact hdb
  | cons host rest ih =>
    rw [assignHosts]
    split
    next haccess =>
      split
      next => exact hdb
      next db' hassign => exact ih _ _ (hstep db host db' hdb haccess hassign)
    next => exact hdb

theorem Deployment.assignPolicySet_keeps {user : AuthUser} {req : Request} {db : Database}
    (hdb : P db) (hloop : flaggedGate user req.policySetId db = .ok () → ∀ hosts,
      P (assignHosts user req.policySetId hosts 0 db).2) :
    P (assignPolicySet user req db).2 := by
  refine requireWrite_keeps hdb ?_
  split
  next => exact hdb
  next hgate =>
    have hhosts := hloop hgate (resolveHostIds db req.hostIds req.groupIds)
    dsimp only
    split
    next => exact hdb
    next =>
      split
      next heq => simpa only [heq] using hhosts
      next heq => simpa only [heq] using hhosts

theorem Hosts.assignPolicySet_keeps {user : AuthUser} {host set : Uuid} {db : Database} (hdb : P db)
    (hassign : ∀ db', flaggedGate user set db = .ok () →
      db.assign host set user.userId = some db' → P db') :
    P (assignPolicySet user host set db).2 := by
  refine requireWrite_keeps hdb ?_
  split
  next => exact hdb
  next hgate =>
    split
    next => exact hdb
    next db' heq => exact hassign db' hgate heq

theorem Deployment.unassignHosts_keeps (set : Uuid) {hosts : List Uuid}
    (hstep : ∀ db, ∀ host ∈ hosts, P db → P (db.unassign host set)) (db : Database) (hdb : P db) :
    P (unassignHosts set hosts db) := by
  induction hosts generalizing db with
  | nil => exact hdb
  | cons host rest ih =>
    rw [unassignHosts]
    exact ih (fun db' other hother => hstep db' other (by simp [hother])) _
      (hstep db host (by simp) hdb)

end FirewallManager
