import FirewallManager.Manager.Policy

/-!
# Hosts, groups and the assignment of policy sets

The handlers that decide which policy set a host has, and which hosts an operator may act on.
A policy set can be assigned on the page of a host (`Hosts`) or to many hosts at once
(`Deployment`). The second way checks for every host that the user may access it, and stops at
the first one that fails, with the hosts before it assigned.
-/

namespace FirewallManager

/-- Run a handler for users with write access. -/
def requireWrite {α : Type} (user : AuthUser)
    (handler : Database → Except AppError α × Database) (db : Database) :
    Except AppError α × Database :=
  if user.role.canWrite then handler db else (.error (.forbidden "Write access required"), db)

/-- Run a handler for admins. -/
def requireAdmin {α : Type} (user : AuthUser)
    (handler : Database → Except AppError α × Database) (db : Database) :
    Except AppError α × Database :=
  if user.role.isAdmin then handler db else (.error (.forbidden "Admin role required"), db)

namespace Database

/-- Insert an assignment unless it is there. Its host and its set have to exist. -/
def assign (db : Database) (host policySetId assignedBy : Uuid) : Option Database :=
  if db.hosts.has host ∧ db.policySets.has policySetId then
    some { db with
      assignments := db.assignments.insertNew ⟨host, policySetId, some assignedBy⟩ }
  else none

/-- Delete an assignment. -/
def unassign (db : Database) (host policySetId : Uuid) : Database :=
  { db with
    assignments := db.assignments.delete fun row =>
      decide (row.hostId = host) && decide (row.policySetId = policySetId) }

end Database

/-- The gate of both assignment endpoints: only an admin may assign a set with flagged rules. -/
def flaggedGate (user : AuthUser) (policySetId : Uuid) (db : Database) : Except AppError Unit :=
  if user.role.isAdmin then .ok ()
  else
    let flagged := db.flaggedRuleIdsForSet policySetId
    if flagged = [] then .ok ()
    else
      .error (.conflict ("Policy set contains flagged rules requiring admin approval: " ++
        String.intercalate ", " (flagged.map Uuid.text)))

namespace Hosts

/-- `DELETE /hosts/{id}`. -/
def deleteHost (user : AuthUser) (id : Uuid) : Database → Except AppError Unit × Database :=
  requireAdmin user fun db =>
    (.ok (), db.without id)

/-- `POST /hosts/{id}/policy-sets`. -/
def assignPolicySet (user : AuthUser) (id policySetId : Uuid) :
    Database → Except AppError Unit × Database :=
  requireWrite user fun db =>
    match flaggedGate user policySetId db with
    | .error e => (.error e, db)
    | .ok () =>
      match db.assign id policySetId user.userId with
      | none => (.error (.database "host_policy_assignments"), db)
      | some db => (.ok (), db)

/-- `DELETE /hosts/{id}/policy-sets/{policy_set_id}`. -/
def unassignPolicySet (user : AuthUser) (id policySetId : Uuid) :
    Database → Except AppError Unit × Database :=
  requireWrite user fun db =>
    (.ok (), db.unassign id policySetId)

end Hosts

namespace Groups

/-- `POST /groups`. Names are unique. -/
def createGroup (user : AuthUser) (id : Uuid) (name : String) (description : Option String) :
    Database → Except AppError Group × Database :=
  requireWrite user fun db =>
    let group : Group := ⟨id, name, description.getD ""⟩
    if db.groups.rows.any fun row => decide (row.name = name) then
      (.error (.database "groups_name_key"), db)
    else
      match db.groups.insert? group with
      | none => (.error (.database "groups_pkey"), db)
      | some groups => (.ok group, { db with groups := groups })

/-- `DELETE /groups/{id}`, with its cascades. -/
def deleteGroup (user : AuthUser) (id : Uuid) : Database → Except AppError Unit × Database :=
  requireAdmin user fun db =>
    (.ok (), { db with
      groups := db.groups.delete fun row => decide (row.id = id)
      hostGroups := db.hostGroups.delete fun row => decide (row.groupId = id)
      operatorHostGroups := db.operatorHostGroups.delete fun row => decide (row.groupId = id) })

/-- `POST /groups/{id}/hosts/{host_id}`. -/
def addHostToGroup (user : AuthUser) (id hostId : Uuid) :
    Database → Except AppError Unit × Database :=
  requireWrite user fun db =>
    if db.hosts.has hostId ∧ db.groups.has id then
      (.ok (), { db with hostGroups := db.hostGroups.insertNew ⟨hostId, id⟩ })
    else (.error (.database "host_groups"), db)

/-- `DELETE /groups/{id}/hosts/{host_id}`. -/
def removeHostFromGroup (user : AuthUser) (id hostId : Uuid) :
    Database → Except AppError Unit × Database :=
  requireWrite user fun db =>
    (.ok (), { db with
      hostGroups := db.hostGroups.delete fun row =>
        decide (row.hostId = hostId) && decide (row.groupId = id) })

end Groups

namespace Deployment

/-- The hosts of a request: the listed ones and the members of the listed groups, sorted and without
repetitions. -/
def resolveHostIds (db : Database) (hostIds groupIds : List Uuid) : List Uuid :=
  let members := (db.hostGroups.select fun row => decide (row.groupId ∈ groupIds)).map
    HostGroup.hostId
  ((hostIds ++ members).insertionSort fun a b => a.value ≤ b.value).dedup

/-- The body of an assignment or unassignment request. -/
structure Request where
  policySetId : Uuid
  hostIds : List Uuid
  groupIds : List Uuid
  deriving DecidableEq, Repr

/-- The answer to an assignment request. -/
structure AssignResponse where
  policySetId : Uuid
  assignedCount : Nat
  hostIds : List Uuid
  deriving DecidableEq, Repr

/-- The assignment loop. It stops at the first host that the user may not access or that does
not exist. The answer counts the new assignments. -/
def assignHosts (user : AuthUser) (policySetId : Uuid) :
    List Uuid → Nat → Database → Except AppError Nat × Database
  | [], assigned, db => (.ok assigned, db)
  | host :: rest, assigned, db =>
    if db.canAccessHost user host then
      match db.assign host policySetId user.userId with
      | none => (.error (.database "host_policy_assignments"), db)
      | some db' =>
        let isNew := !db.assignments.has (host, policySetId)
        assignHosts user policySetId rest (if isNew then assigned + 1 else assigned) db'
    else
      (.error (.forbidden ("Operator " ++ user.username ++ " cannot access host " ++
        host.text)), db)

/-- `POST /deployment/assign`. -/
def assignPolicySet (user : AuthUser) (req : Request) :
    Database → Except AppError AssignResponse × Database :=
  requireWrite user fun db =>
    match flaggedGate user req.policySetId db with
    | .error e => (.error e, db)
    | .ok () =>
      let hostIds := resolveHostIds db req.hostIds req.groupIds
      if hostIds = [] then (.error (.badRequest "No hosts selected"), db)
      else
        match assignHosts user req.policySetId hostIds 0 db with
        | (.error e, db) => (.error e, db)
        | (.ok assigned, db) => (.ok ⟨req.policySetId, assigned, hostIds⟩, db)

/-- The loop of the statements that unassign. -/
def unassignHosts (policySetId : Uuid) : List Uuid → Database → Database
  | [], db => db
  | host :: rest, db => unassignHosts policySetId rest (db.unassign host policySetId)

/-- `POST /deployment/unassign`. The answer is the number of hosts. -/
def unassignPolicySet (user : AuthUser) (req : Request) :
    Database → Except AppError Nat × Database :=
  requireWrite user fun db =>
    let hostIds := resolveHostIds db req.hostIds req.groupIds
    (.ok hostIds.length, unassignHosts req.policySetId hostIds db)

end Deployment

end FirewallManager
