import FirewallManager.Lib.Runs
import FirewallManager.Manager.Operations

/-!
# The scope of an operator over whole runs

An operator is given groups of hosts and should not be able to change the policy assignments of
any other host. Only the deployment endpoint asks for the scope. The page of a host and the bulk
unassignment do not, the deletion of a policy set takes its assignments along, and an operator
may put a host into one of their own groups first.

`operatorScope_run` says that a run of one operator leaves the assignments of a host outside
their groups alone if none of its calls uses one of these ways (`StaysOut`).
-/

namespace FirewallManager

/-- The assignments of a host. -/
def Database.hostAssignments (db : Database) (host : Uuid) : List Assignment :=
  db.assignments.select fun row => decide (row.hostId = host)

/-- The host is assigned the set. -/
def AssignedTo (db : Database) (host set : Uuid) : Prop :=
  ∃ row ∈ db.assignments.rows, row.hostId = host ∧ row.policySetId = set

/-- The operation does not reach the host past the scope check: the unchecked endpoints do not
change one of its assignments, and the operator does not take it into one of their groups. -/
def StaysOut (user : AuthUser) (host : Uuid) (db : Database) : Operation → Prop
  | .assignPolicySet target set => target = host → AssignedTo db host set
  | .unassignPolicySet target set => target = host → ¬ AssignedTo db host set
  | .deploymentUnassign req =>
    host ∈ Deployment.resolveHostIds db req.hostIds req.groupIds →
      ¬ AssignedTo db host req.policySetId
  | .addHostToGroup group target =>
    target = host → ∀ given ∈ db.operatorHostGroups.rows, given.userId = user.userId →
      given.groupId ≠ group
  | .deletePolicySet set => ¬ AssignedTo db host set
  | _ => True

/-- The host is outside the operator's groups, and its assignments are the given ones. -/
structure OutsideWith (userId host : Uuid) (assignments : List Assignment) (db : Database) :
    Prop where
  outside : db.inOperatorGroups userId host = false
  same : db.hostAssignments host = assignments

theorem inOperatorGroups_eq_false_iff {db : Database} {userId host : Uuid} :
    db.inOperatorGroups userId host = false ↔
      ∀ given ∈ db.operatorHostGroups.rows, given.userId = userId →
        ∀ member ∈ db.hostGroups.rows, member.groupId = given.groupId →
          member.hostId ≠ host := by
  simp [Database.inOperatorGroups]

/-- The tables that say who is assigned what and who may act where are the same. -/
structure SameScope (after before : Database) : Prop where
  assignments : after.assignments = before.assignments
  hostGroups : after.hostGroups = before.hostGroups
  operatorHostGroups : after.operatorHostGroups = before.operatorHostGroups

theorem SameScope.refl (db : Database) : SameScope db db :=
  ⟨rfl, rfl, rfl⟩

theorem SameScope.foldl {α : Type} (statement : Database → α → Database)
    (hstatement : ∀ db entry, SameScope (statement db entry) db) (entries : List α)
    (db : Database) : SameScope (entries.foldl statement db) db := by
  induction entries generalizing db with
  | nil => exact SameScope.refl db
  | cons entry entries ih =>
    have hfirst := hstatement db entry
    have hrest := ih (statement db entry)
    exact ⟨hrest.assignments.trans hfirst.assignments, hrest.hostGroups.trans hfirst.hostGroups,
      hrest.operatorHostGroups.trans hfirst.operatorHostGroups⟩

section Steps

variable {userId host : Uuid} {assignments : List Assignment} {db db' : Database}

theorem OutsideWith.of_same (h : OutsideWith userId host assignments db)
    (hscope : SameScope db' db) : OutsideWith userId host assignments db' := by
  refine ⟨?_, ?_⟩
  · rw [Database.inOperatorGroups, hscope.hostGroups, hscope.operatorHostGroups]
    exact h.outside
  · rw [Database.hostAssignments, hscope.assignments]
    exact h.same

theorem OutsideWith.of_fewer_members (h : OutsideWith userId host assignments db)
    (hassignments : db'.assignments = db.assignments)
    (hhostGroups : db'.hostGroups.rows ⊆ db.hostGroups.rows)
    (hoperator : db'.operatorHostGroups = db.operatorHostGroups) :
    OutsideWith userId host assignments db' := by
  refine ⟨?_, ?_⟩
  · rw [inOperatorGroups_eq_false_iff, hoperator]
    intro given hgiven huser member hmember
    exact inOperatorGroups_eq_false_iff.mp h.outside given hgiven huser member (hhostGroups hmember)
  · rw [Database.hostAssignments, hassignments]
    exact h.same

theorem OutsideWith.assign (h : OutsideWith userId host assignments db) {target set user : Uuid}
    (htarget : target = host → AssignedTo db host set)
    (hassign : db.assign target set user = some db') : OutsideWith userId host assignments db' := by
  unfold Database.assign at hassign
  split at hassign
  next =>
    obtain rfl := Option.some.inj hassign
    refine ⟨h.outside, Eq.trans (Table.select_insertNew fun hfree => ?_) h.same⟩
    refine decide_eq_false fun heq => ?_
    obtain ⟨row, hrow, hhost, hset⟩ := htarget heq
    have htaken : db.assignments.has (target, set) = true :=
      Table.has_eq_true_iff.mpr ⟨row, hrow, congrArg₂ Prod.mk (hhost.trans (Eq.symm heq)) hset⟩
    rw [hfree] at htaken
    cases htaken
  next => cases hassign

theorem OutsideWith.unassign (h : OutsideWith userId host assignments db) {target set : Uuid}
    (htarget : target = host → ¬ AssignedTo db host set) :
    OutsideWith userId host assignments (db.unassign target set) := by
  refine ⟨h.outside, Eq.trans (Table.select_delete fun row hrow hhost => ?_) h.same⟩
  have hrowHost : row.hostId = host := of_decide_eq_true hhost
  simp only [Bool.and_eq_false_iff, decide_eq_false_iff_not]
  by_cases heq : row.hostId = target
  · refine Or.inr fun hset => ?_
    exact htarget (heq.symm.trans hrowHost) ⟨row, hrow, hrowHost, hset⟩
  · exact Or.inl heq

theorem OutsideWith.addMember (h : OutsideWith userId host assignments db) {target group : Uuid}
    (htarget : target = host → ∀ given ∈ db.operatorHostGroups.rows, given.userId = userId →
      given.groupId ≠ group) :
    OutsideWith userId host assignments
      { db with hostGroups := db.hostGroups.insertNew ⟨target, group⟩ } := by
  refine ⟨inOperatorGroups_eq_false_iff.mpr ?_, h.same⟩
  intro given hgiven huser member hmember hgroup
  rcases Table.mem_insertNew.mp hmember with hold | ⟨-, rfl⟩
  · exact inOperatorGroups_eq_false_iff.mp h.outside given hgiven huser member hold hgroup
  · exact fun heq => htarget heq given hgiven huser hgroup.symm

theorem OutsideWith.deleteSet (h : OutsideWith userId host assignments db) {set : Uuid}
    (hset : ¬ AssignedTo db host set)
    (hassignments : db'.assignments = db.assignments.delete fun row =>
      decide (row.policySetId = set))
    (hhostGroups : db'.hostGroups = db.hostGroups)
    (hoperator : db'.operatorHostGroups = db.operatorHostGroups) :
    OutsideWith userId host assignments db' := by
  refine ⟨?_, ?_⟩
  · rw [Database.inOperatorGroups, hhostGroups, hoperator]
    exact h.outside
  · rw [Database.hostAssignments, hassignments]
    refine Eq.trans (Table.select_delete fun row hrow hhost => ?_) h.same
    exact decide_eq_false fun heq => hset ⟨row, hrow, of_decide_eq_true hhost, heq⟩

/-- Bulk assignment stays inside the operator's groups. -/
theorem OutsideWith.assignHosts {user : AuthUser} (hrole : user.role = .operator)
    (h : OutsideWith user.userId host assignments db) (set : Uuid) (hosts : List Uuid) :
    OutsideWith user.userId host assignments (Deployment.assignHosts user set hosts 0 db).2 := by
  refine Deployment.assignHosts_keeps user set (P := OutsideWith user.userId host assignments)
    ?_ hosts 0 db h
  intro state target state' hstate haccess hassign
  -- The access check puts the target inside the operator's groups, so it is another host.
  have hinside : state.inOperatorGroups user.userId target = true := by
    simpa [Database.canAccessHost, hrole, UserRole.isAdmin, UserRole.isBreakGlass,
      UserRole.canWrite] using haccess
  refine (hstate.assign (fun heq => ?_) hassign).of_same ⟨rfl, rfl, rfl⟩
  rw [heq, hstate.outside] at hinside
  cases hinside

theorem OutsideWith.assignedTo_iff (h : OutsideWith userId host assignments db) {set : Uuid} :
    AssignedTo db host set ↔ ∃ row ∈ assignments, row.policySetId = set := by
  rw [← h.same]
  simp [AssignedTo, Database.hostAssignments, Table.mem_select, and_assoc]

theorem OutsideWith.unassignHosts (h : OutsideWith userId host assignments db) {set : Uuid}
    {hosts : List Uuid} (hset : host ∈ hosts → ¬ AssignedTo db host set) :
    OutsideWith userId host assignments (Deployment.unassignHosts set hosts db) := by
  refine Deployment.unassignHosts_keeps set (P := OutsideWith userId host assignments)
    ?_ db h
  intro state target htarget hstate
  refine (hstate.unassign fun heq => ?_).of_same ⟨rfl, rfl, rfl⟩
  rw [hstate.assignedTo_iff, ← h.assignedTo_iff]
  exact hset (heq ▸ htarget)

end Steps

/-- The operations on rules, rule groups and policy sets that keep every set. -/
def Operation.editsContents : Operation → Bool
  | .createRuleGroup .. => true
  | .updateRuleGroup .. => true
  | .deleteRuleGroup .. => true
  | .createRuleInGroup .. => true
  | .reorderGroupRules .. => true
  | .updateRule .. => true
  | .deleteRule .. => true
  | .createPolicySet .. => true
  | .updatePolicySet .. => true
  | .addGroupToSet .. => true
  | .removeGroupFromSet .. => true
  | .reorderGroups .. => true
  | _ => false

theorem sameScope_perform {inetText : String → Option String} {user : AuthUser} {op : Operation}
    (hop : op.editsContents = true) (db : Database) :
    SameScope (perform inetText user op db).2 db := by
  have hwrite {α : Type} {handler : Database → Except AppError α × Database}
      (hhandler : SameScope (handler db).2 db) : SameScope (requireWrite user handler db).2 db :=
    requireWrite_keeps (P := fun state => SameScope state db) (SameScope.refl db) hhandler
  cases op with
  | deleteHost | assignPolicySet | unassignPolicySet | deploymentAssign | deploymentUnassign
  | createGroup | deleteGroup | addHostToGroup | removeHostFromGroup | deletePolicySet => cases hop
  | createRuleGroup id name description =>
    show SameScope (RuleGroups.createRuleGroup user id name description db).2 db
    refine hwrite ?_
    dsimp only
    split <;> exact ⟨rfl, rfl, rfl⟩
  | updateRuleGroup id name description =>
    refine hwrite ?_
    split <;> exact ⟨rfl, rfl, rfl⟩
  | deleteRuleGroup id =>
    refine hwrite ?_
    dsimp only
    split
    · exact SameScope.refl db
    · split <;> exact ⟨rfl, rfl, rfl⟩
  | createRuleInGroup id groupId req =>
    show SameScope (RuleGroups.createRuleInGroup inetText user id groupId req db).2 db
    refine hwrite ?_
    split
    · exact SameScope.refl db
    · split <;> exact ⟨rfl, rfl, rfl⟩
  | reorderGroupRules groupId ruleIds =>
    have hloop := SameScope.foldl (RuleGroups.setRuleOrder groupId)
      (fun _ _ => ⟨rfl, rfl, rfl⟩) ruleIds.zipIdx db
    exact hwrite ⟨hloop.assignments, hloop.hostGroups, hloop.operatorHostGroups⟩
  | updateRule id req =>
    show SameScope (Rules.updateRule inetText user id req db).2 db
    refine hwrite ?_
    split
    · exact SameScope.refl db
    · split <;> exact ⟨rfl, rfl, rfl⟩
  | deleteRule id =>
    refine hwrite ?_
    split <;> exact ⟨rfl, rfl, rfl⟩
  | createPolicySet id name description input output =>
    show SameScope (PolicySets.createPolicySet user id name description input output db).2 db
    refine hwrite ?_
    dsimp only
    split
    · exact SameScope.refl db
    · split <;> exact ⟨rfl, rfl, rfl⟩
  | updatePolicySet id req =>
    refine hwrite ?_
    split
    · exact SameScope.refl db
    · split <;> exact ⟨rfl, rfl, rfl⟩
  | addGroupToSet id group order =>
    refine hwrite ?_
    split
    · exact SameScope.refl db
    · split <;> exact ⟨rfl, rfl, rfl⟩
  | removeGroupFromSet id group => exact hwrite ⟨rfl, rfl, rfl⟩
  | reorderGroups id groups =>
    have hloop := SameScope.foldl (PolicySets.setGroupPosition id)
      (fun _ _ => ⟨rfl, rfl, rfl⟩) groups.zipIdx db
    exact hwrite ⟨hloop.assignments, hloop.hostGroups, hloop.operatorHostGroups⟩

/-- One operation of an operator that stays out leaves the host outside, with its assignments. -/
theorem OutsideWith.perform {inetText : String → Option String} {user : AuthUser} {host : Uuid}
    {assignments : List Assignment} {db : Database} (hrole : user.role = .operator)
    (h : OutsideWith user.userId host assignments db) (op : Operation)
    (hout : StaysOut user host db op) :
    OutsideWith user.userId host assignments (perform inetText user op db).2 := by
  have hwrite {α : Type} {handler : Database → Except AppError α × Database}
      (hhandler : OutsideWith user.userId host assignments (handler db).2) :
      OutsideWith user.userId host assignments (requireWrite user handler db).2 :=
    requireWrite_keeps (P := OutsideWith user.userId host assignments) h hhandler
  have hadmin {α : Type} {handler : Database → Except AppError α × Database} :
      OutsideWith user.userId host assignments (requireAdmin user handler db).2 := by
    rw [requireAdmin_of_not_admin (by rw [hrole]; rfl)]
    exact h
  cases op with
  | deleteHost id => exact hadmin
  | deleteGroup id => exact hadmin
  | assignPolicySet target set =>
    refine Hosts.assignPolicySet_keeps (P := OutsideWith user.userId host assignments) h ?_
    intro state _ hassign
    exact (h.assign hout hassign).of_same ⟨rfl, rfl, rfl⟩
  | unassignPolicySet target set => exact hwrite ((h.unassign hout).of_same ⟨rfl, rfl, rfl⟩)
  | deploymentAssign req =>
    refine Deployment.assignPolicySet_keeps (P := OutsideWith user.userId host assignments) h ?_
    intro _ hosts
    exact h.assignHosts hrole req.policySetId hosts
  | deploymentUnassign req =>
    show OutsideWith _ _ _ (Deployment.unassignPolicySet user req db).2
    exact hwrite (h.unassignHosts hout)
  | createGroup id name description =>
    show OutsideWith _ _ _ (Groups.createGroup user id name description db).2
    refine hwrite ?_
    dsimp only
    split
    · exact h
    · split
      · exact h
      · exact h.of_same ⟨rfl, rfl, rfl⟩
  | addHostToGroup group target =>
    refine hwrite ?_
    split
    next => exact h.addMember hout
    next => exact h
  | removeHostFromGroup group target =>
    exact hwrite (h.of_fewer_members rfl (fun _ hrow => (Table.mem_delete.mp hrow).1) rfl)
  | deletePolicySet set =>
    refine hwrite ?_
    split
    next => exact h.deleteSet hout rfl rfl rfl
    next => exact h
  | createRuleGroup | updateRuleGroup | deleteRuleGroup | createRuleInGroup | reorderGroupRules
  | updateRule | deleteRule | createPolicySet | updatePolicySet | addGroupToSet
  | removeGroupFromSet | reorderGroups =>
    exact h.of_same (sameScope_perform rfl db)

/-- The state after an operation of one user. -/
def stepOf (inetText : String → Option String) (user : AuthUser) (db : Database)
    (op : Operation) : Database :=
  step inetText db ⟨user, op⟩

/-- A run of one operator keeps the assignments of a host outside their groups if every call
stays out. -/
theorem operatorScope_run (inetText : String → Option String) {user : AuthUser} {host : Uuid}
    {db : Database} {ops : List Operation} (hrole : user.role = .operator)
    (houtside : db.inOperatorGroups user.userId host = false)
    (hout : Runs.Meets (stepOf inetText user) (StaysOut user host) db ops) :
    Runs.Throughout (stepOf inetText user)
      (fun state => state.hostAssignments host = db.hostAssignments host) db ops := by
  have hstep (state : Database) (op : Operation)
      (hstate : OutsideWith user.userId host (db.hostAssignments host) state)
      (hop : StaysOut user host state op) :
      OutsideWith user.userId host (db.hostAssignments host) (stepOf inetText user state op) :=
    hstate.perform hrole op hop
  intro n
  exact (Runs.run_invariant hstep ⟨houtside, rfl⟩ hout n).same

/-- Two hosts and a set. The first host is in the group of an operator, the second has the set. -/
def scopedFleet : Database :=
  { Database.empty with
    hosts := (Table.singleton ⟨⟨1⟩, none, .healthy, none⟩).insertNew ⟨⟨2⟩, none, .healthy, none⟩
    groups := .singleton ⟨⟨6⟩, "web", ""⟩
    hostGroups := .singleton ⟨⟨1⟩, ⟨6⟩⟩
    operatorHostGroups := .singleton ⟨⟨9⟩, ⟨6⟩⟩
    policySets := {
      rows := [⟨⟨4⟩, "servers", "", none, none⟩, ⟨⟨5⟩, "lab", "", none, none⟩]
      nodup := by decide }
    assignments := .singleton ⟨⟨2⟩, ⟨4⟩, none⟩ }

/-- The operator of the group. -/
def webOperator : AuthUser :=
  ⟨⟨9⟩, "web-operator", .operator⟩

/-- The second host is outside the operator's groups, and still they can give it a set on its
page or after taking it into their group, and take one away by bulk unassignment or by deleting
the set. -/
theorem operator_reaches_foreign_host :
    webOperator.role = .operator ∧ scopedFleet.inOperatorGroups webOperator.userId ⟨2⟩ = false ∧
      ∀ ops ∈ [[.assignPolicySet ⟨2⟩ ⟨5⟩],
        [.addHostToGroup ⟨6⟩ ⟨2⟩, .deploymentAssign ⟨⟨5⟩, [⟨2⟩], []⟩],
        [.deploymentUnassign ⟨⟨4⟩, [⟨2⟩], []⟩],
        [.deletePolicySet ⟨4⟩]],
        (Runs.run (stepOf some webOperator) scopedFleet ops).hostAssignments ⟨2⟩ ≠
          scopedFleet.hostAssignments ⟨2⟩ := by
  decide

/-- Deploying a set to the own group and taking a host out of it is a run that stays out. -/
theorem operatorScope_run_at_fleet :
    scopedFleet.inOperatorGroups webOperator.userId ⟨2⟩ = false ∧
      Runs.Throughout (stepOf some webOperator)
        (fun state => state.hostAssignments ⟨2⟩ = scopedFleet.hostAssignments ⟨2⟩) scopedFleet
        [.deploymentAssign ⟨⟨5⟩, [], [⟨6⟩]⟩, .removeHostFromGroup ⟨6⟩ ⟨1⟩] := by
  refine ⟨by decide, operatorScope_run some rfl (by decide) ?_⟩
  exact ⟨trivial, trivial, trivial⟩

end FirewallManager
