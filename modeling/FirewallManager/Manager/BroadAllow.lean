import FirewallManager.Lib.Runs
import FirewallManager.Manager.PolicyClean

/-!
# The broad-allow gate over whole runs

The gate refuses the assignment of a set with a flagged rule to everyone but admins. The
policy of a host is a join over three tables, though, and other operations change it after the
assignment: a rule can be created or edited in a group of an assigned set, and a group can be
added to such a set. `StaysClean` is the condition on those three.

`broadAllow_run_iff` says that a run of calls without admins stays clean throughout exactly
when each of its calls meets the condition.
-/

namespace FirewallManager

variable {inetText : String → Option String}

variable {user : AuthUser} {db : Database}

theorem flagged_eq_nil_of_gate {set : Uuid} (hrole : user.role.isAdmin = false)
    (hgate : flaggedGate user set db = .ok ()) :
    db.flaggedRuleIdsForSet set = [] := by
  rw [flaggedGate, if_neg (by simp [hrole])] at hgate
  dsimp only at hgate
  split at hgate
  next h => exact h
  next => cases hgate

theorem PolicyClean.assignPolicySet (h : PolicyClean db) (hrole : user.role.isAdmin = false)
    (host set : Uuid) :
    PolicyClean (Hosts.assignPolicySet user host set db).2 := by
  refine Hosts.assignPolicySet_keeps (P := PolicyClean) h fun db' hgate hassign => ?_
  have hclean : PolicyClean db' := h.assign (flagged_eq_nil_of_gate hrole hgate) hassign
  exact hclean

theorem PolicyClean.deploymentAssign (h : PolicyClean db) (hrole : user.role.isAdmin = false)
    (req : Deployment.Request) :
    PolicyClean (Deployment.assignPolicySet user req db).2 := by
  refine Deployment.assignPolicySet_keeps (P := PolicyClean) h fun hgate hosts => ?_
  -- The loop changes no rule and no group, so the set stays without flagged rules.
  have hstep (state : Database) (host : Uuid) (state' : Database)
      (hstate : PolicyClean state ∧ state.flaggedRuleIdsForSet req.policySetId = [])
      (hassign : state.assign host req.policySetId user.userId = some state') :
      PolicyClean state' ∧ state'.flaggedRuleIdsForSet req.policySetId = [] := by
    refine ⟨hstate.1.assign hstate.2 hassign, ?_⟩
    unfold Database.assign at hassign
    split at hassign
    next =>
      obtain rfl := Option.some.inj hassign
      exact hstate.2
    next => cases hassign
  exact (Deployment.assignHosts_keeps user req.policySetId
    (P := fun state => PolicyClean state ∧ state.flaggedRuleIdsForSet req.policySetId = [])
    (fun state host state' hstate _ hassign => hstep state host state' hstate hassign)
    hosts 0 db ⟨h, flagged_eq_nil_of_gate hrole hgate⟩).1

theorem newRule_spec {id groupId : Uuid} {req : RuleGroups.CreateRuleInGroupRequest}
    {rule : StoredRule} (h : RuleGroups.newRule inetText id groupId req db = some rule) :
    rule.id = id ∧ rule.ruleGroupId = groupId := by
  simp only [RuleGroups.newRule, Option.bind_eq_bind, Option.bind_eq_some_iff] at h
  obtain ⟨_, -, _, -, _, -, _, -, _, -, hrow⟩ := h
  split at hrow
  next =>
    cases hrow
    exact ⟨rfl, rfl⟩
  next => cases hrow

theorem updatedRule_spec {req : Rules.UpdateRuleRequest} {old rule : StoredRule}
    (h : Rules.updatedRule inetText req old db = some rule) :
    rule.id = old.id ∧ rule.ruleGroupId = old.ruleGroupId := by
  simp only [Rules.updatedRule, Option.bind_eq_bind, Option.bind_eq_some_iff] at h
  obtain ⟨_, -, _, -, _, -, _, -, hrow⟩ := h
  split at hrow
  next => cases hrow
  next =>
    cases hrow
    exact ⟨rfl, rfl⟩

/-- Some host is assigned the set. -/
def SetAssigned (db : Database) (set : Uuid) : Prop :=
  ∃ row ∈ db.assignments.rows, row.policySetId = set

variable (inetText) in
/-- The call stores no flagged rule in a deployed group, and adds no group with one to an assigned
set. -/
def StaysClean (db : Database) (call : ApiCall) : Prop :=
  call.user.role.canWrite = true →
    match call.operation with
    | .createRuleInGroup id groupId req =>
      ∀ rule, RuleGroups.newRule inetText id groupId req db = some rule →
        db.rules.has id = false → rule.flagged = true → ¬ GroupDeployed db groupId
    | .updateRule id req =>
      ∀ old, db.rules.find? id = some old →
        ∀ rule, Rules.updatedRule inetText req old db = some rule → rule.flagged = true →
          ¬ GroupDeployed db old.ruleGroupId
    | .addGroupToSet id groupId order =>
      db.policySets.has id = true → db.ruleGroups.has groupId = true →
        (PolicySets.groupPosition id order db).isSome = true → SetAssigned db id →
          ∀ rule ∈ db.rules.rows, rule.ruleGroupId = groupId → rule.flagged = false
    | _ => True

theorem createRuleInGroup_clean_iff (hclean : PolicyClean db) (hwrite : user.role.canWrite = true)
    (id groupId : Uuid) (req : RuleGroups.CreateRuleInGroupRequest) :
    PolicyClean (RuleGroups.createRuleInGroup inetText user id groupId req db).2 ↔
      ∀ rule, RuleGroups.newRule inetText id groupId req db = some rule →
        db.rules.has id = false → rule.flagged = true → ¬ GroupDeployed db groupId := by
  rw [RuleGroups.createRuleInGroup, requireWrite_of_canWrite hwrite]
  cases hrule : RuleGroups.newRule inetText id groupId req db with
  | none => exact ⟨fun _ _ => nofun, fun _ => hclean⟩
  | some rule =>
    obtain ⟨rfl, rfl⟩ := newRule_spec hrule
    simp only [Option.some.injEq, forall_eq']
    cases hinsert : db.rules.insert? rule with
    | none =>
      have htaken : db.rules.has rule.id = true := by simpa [Table.insert?] using hinsert
      refine ⟨fun _ hfree => ?_, fun _ => hclean⟩
      rw [htaken] at hfree
      cases hfree
    | some rules =>
      obtain ⟨hfree, hrows⟩ := Table.insert?_eq_some_iff.mp hinsert
      refine Iff.trans (policyClean_iff_of_same db ?_ ?_) ?_
      · rfl
      · rfl
      show (∀ row ∈ rules.rows, _) ↔ _
      rw [hrows]
      constructor
      · intro h _ hflagged
        exact h rule (by simp) hflagged
      · intro h row hrow hflagged
        rcases List.mem_append.mp hrow with hold | hnew
        · exact policyClean_iff.mp hclean row hold hflagged
        · obtain rfl := List.mem_singleton.mp hnew
          exact h hfree hflagged

theorem updateRule_clean_iff (hclean : PolicyClean db) (hwrite : user.role.canWrite = true)
    (id : Uuid) (req : Rules.UpdateRuleRequest) :
    PolicyClean (Rules.updateRule inetText user id req db).2 ↔
      ∀ old, db.rules.find? id = some old →
        ∀ rule, Rules.updatedRule inetText req old db = some rule → rule.flagged = true →
          ¬ GroupDeployed db old.ruleGroupId := by
  rw [Rules.updateRule, requireWrite_of_canWrite hwrite]
  cases hfind : db.rules.find? id with
  | none =>
    refine ⟨fun _ => ?_, fun _ => hclean⟩
    intro _ hold
    cases hold
  | some old =>
    simp only [Option.some.injEq, forall_eq']
    cases hrule : Rules.updatedRule inetText req old db with
    | none =>
      refine ⟨fun _ => ?_, fun _ => hclean⟩
      intro _ hnew
      cases hnew
    | some rule =>
      obtain ⟨hold, rfl⟩ := Table.mem_of_find? hfind
      obtain ⟨-, hgroup⟩ := updatedRule_spec hrule
      simp only [Option.some.injEq, forall_eq']
      refine Iff.trans (policyClean_iff_of_same db ?_ ?_) ?_
      · rfl
      · rfl
      constructor
      · intro h hflagged
        rw [← hgroup]
        refine h { rule with id := old.id } ?_ hflagged
        exact List.mem_map.mpr ⟨old, hold, if_pos (decide_eq_true rfl)⟩
      · intro h row hrow hflagged
        obtain ⟨other, hother, rfl⟩ := List.mem_map.mp hrow
        split at hflagged
        next hid =>
          rw [if_pos hid]
          show ¬ GroupDeployed db rule.ruleGroupId
          rw [hgroup]
          exact h hflagged
        next hid =>
          rw [if_neg hid]
          exact policyClean_iff.mp hclean other hother hflagged

theorem groupDeployed_upsert_iff (db after : Database) {id groupId : Uuid} {order : Int}
    (hassignments : after.assignments = db.assignments)
    (hsetGroups : after.setGroups = db.setGroups.upsert ⟨id, groupId, order⟩
      (fun row => { row with setGroupOrder := order }) fun _ => rfl) (other : Uuid) :
    GroupDeployed after other ↔
      GroupDeployed db other ∨ (SetAssigned db id ∧ groupId = other) := by
  have hkeys (set : Uuid) :
      (∃ link ∈ after.setGroups.rows, link.policySetId = set ∧ link.ruleGroupId = other) ↔
        (∃ link ∈ db.setGroups.rows, link.policySetId = set ∧ link.ruleGroupId = other) ∨
          (id = set ∧ groupId = other) := by
    have hupsert := Table.exists_key_upsert db.setGroups ⟨id, groupId, order⟩
      (fun row => { row with setGroupOrder := order }) (fun _ => rfl) (set, other)
    simpa only [hsetGroups, Prod.mk.injEq] using hupsert
  simp only [GroupDeployed, SetAssigned, hassignments, hkeys]
  constructor
  · rintro ⟨row, hrow, hold | ⟨rfl, rfl⟩⟩
    · exact Or.inl ⟨row, hrow, hold⟩
    · exact Or.inr ⟨⟨row, hrow, rfl⟩, rfl⟩
  · rintro (⟨row, hrow, hold⟩ | ⟨⟨row, hrow, rfl⟩, rfl⟩)
    · exact ⟨row, hrow, Or.inl hold⟩
    · exact ⟨row, hrow, Or.inr ⟨rfl, rfl⟩⟩

theorem addGroupToSet_clean_iff (hclean : PolicyClean db) (hwrite : user.role.canWrite = true)
    (id groupId : Uuid) (order : Option Int) :
    PolicyClean (PolicySets.addGroupToSet user id groupId order db).2 ↔
      (db.policySets.has id = true → db.ruleGroups.has groupId = true →
        (PolicySets.groupPosition id order db).isSome = true → SetAssigned db id →
          ∀ rule ∈ db.rules.rows, rule.ruleGroupId = groupId → rule.flagged = false) := by
  rw [PolicySets.addGroupToSet, requireWrite_of_canWrite hwrite]
  cases hposition : PolicySets.groupPosition id order db with
  | none => exact ⟨fun _ _ _ => nofun, fun _ => hclean⟩
  | some position =>
    by_cases hexist : db.policySets.has id = true ∧ db.ruleGroups.has groupId = true
    · simp only [hexist, and_self, if_true, true_implies, Option.isSome_some]
      rw [policyClean_iff]
      have hdeployed (other : Uuid) := groupDeployed_upsert_iff db
        { db with
          setGroups := db.setGroups.upsert ⟨id, groupId, position⟩
            (fun row => { row with setGroupOrder := position }) fun _ => rfl } rfl rfl other
      simp only [hdeployed, not_or, not_and]
      constructor
      · intro h hassigned rule hrule hgroup
        cases hflagged : rule.flagged with
        | false => rfl
        | true => exact absurd hgroup.symm ((h rule hrule hflagged).2 hassigned)
      · intro h rule hrule hflagged
        refine ⟨policyClean_iff.mp hclean rule hrule hflagged, fun hassigned hgroup => ?_⟩
        have hfalse := h hassigned rule hrule hgroup.symm
        rw [hflagged] at hfalse
        cases hfalse
    · simp only [hexist, if_false]
      exact ⟨fun _ hset hgroup => absurd ⟨hset, hgroup⟩ hexist, fun _ => hclean⟩

/-- Without the admin role, a call keeps the policy clean exactly when it meets the condition. -/
theorem step_clean_iff (hclean : PolicyClean db) {call : ApiCall}
    (hrole : call.user.role.isAdmin = false) :
    PolicyClean (step inetText db call) ↔ StaysClean inetText db call := by
  obtain ⟨user, op⟩ := call
  cases hwrite : user.role.canWrite with
  | false =>
    have hsame : step inetText db ⟨user, op⟩ = db := perform_of_not_canWrite hwrite op db
    rw [hsame, StaysClean]
    exact ⟨fun _ h => absurd h (by simp [hwrite]), fun _ => hclean⟩
  | true =>
    refine Iff.trans ?_ (forall_prop_of_true hwrite).symm
    -- The two assignments are gated. The three edits after them can reach a set that is assigned
    -- already, which no gate looks at, and have a condition.
    cases op with
    | assignPolicySet host set =>
      exact ⟨fun _ => trivial, fun _ => hclean.assignPolicySet hrole host set⟩
    | deploymentAssign req =>
      exact ⟨fun _ => trivial, fun _ => hclean.deploymentAssign hrole req⟩
    | createRuleInGroup id groupId req =>
      exact createRuleInGroup_clean_iff hclean hwrite id groupId req
    | updateRule id req => exact updateRule_clean_iff hclean hwrite id req
    | addGroupToSet id groupId order =>
      exact addGroupToSet_clean_iff hclean hwrite id groupId order
    | _ => exact ⟨fun _ => trivial, fun _ => hclean.of_tamer (tamer_perform rfl db)⟩

/-- A run of calls without admins, from a clean state, stays clean throughout exactly when every
call meets the condition in the state it is made in. -/
theorem broadAllow_run_iff (inetText : String → Option String) {db : Database}
    (hclean : PolicyClean db) {calls : List ApiCall}
    (hroles : ∀ call ∈ calls, call.user.role.isAdmin = false) :
    Runs.Throughout (step inetText) PolicyClean db calls ↔
      Runs.Meets (step inetText) (StaysClean inetText) db calls := by
  have hstep (state : Database) (call : ApiCall) (hstate : PolicyClean state)
      (hcall : call.user.role.isAdmin = false) :
      PolicyClean (step inetText state call) ↔ StaysClean inetText state call :=
    step_clean_iff hstate hcall
  exact Runs.throughout_iff_meets hstep hclean hroles

/-- Two hosts, the first assigned a set whose only group has no rule yet. -/
def smallFleet : Database :=
  { Database.empty with
    hosts := (Table.singleton ⟨⟨1⟩, none, .healthy, none⟩).insertNew ⟨⟨2⟩, none, .healthy, none⟩
    ruleGroups := .singleton ⟨⟨3⟩, "base", ""⟩
    policySets := .singleton ⟨⟨4⟩, "servers", "", none, none⟩
    setGroups := .singleton ⟨⟨4⟩, ⟨3⟩, 0⟩
    assignments := .singleton ⟨⟨1⟩, ⟨4⟩, none⟩ }

/-- An operator. -/
def someOperator : AuthUser :=
  ⟨⟨9⟩, "operator", .operator⟩

/-- The request for a rule that allows everything. -/
def allowAnyRequest : RuleGroups.CreateRuleInGroupRequest where
  name := "allow-any"
  description := none
  action := .allow
  direction := .in
  protocol := .any
  srcCidr := none
  srcPortStart := none
  srcPortEnd := none
  dstCidr := none
  dstPortStart := none
  dstPortEnd := none
  interfaceIn := none
  interfaceOut := none
  comment := none
  log := none
  priority := none
  groupOrder := none

/-- An operator puts an allow-everything rule into the policy of a host with one call. -/
theorem operator_deploys_broad_allow :
    PolicyClean smallFleet ∧ someOperator.role.isAdmin = false ∧
      ¬ PolicyClean (step some smallFleet
        ⟨someOperator, .createRuleInGroup ⟨5⟩ ⟨3⟩ allowAnyRequest⟩) := by
  decide

/-- The fleet with an SSH rule in its policy, and with a group that is in no set. -/
def labFleet : Database :=
  step some { smallFleet with ruleGroups := smallFleet.ruleGroups.insertNew ⟨⟨6⟩, "lab", ""⟩ }
    ⟨someOperator, .createRuleInGroup ⟨5⟩ ⟨3⟩
      { allowAnyRequest with
        name := "ssh", protocol := .tcp, dstPortStart := some 22, dstPortEnd := some 22 }⟩

/-- An operator assigns the set to the second host, puts an allow-everything rule into the group
that is in no set, and reorders the groups of the set. The policy stays clean. -/
theorem broadAllow_run_at_fleet :
    labFleet.rules.rows.map StoredRule.name = ["ssh"] ∧ PolicyClean labFleet ∧
      Runs.Throughout (step some) PolicyClean labFleet
        [⟨someOperator, .assignPolicySet ⟨2⟩ ⟨4⟩⟩,
          ⟨someOperator, .createRuleInGroup ⟨7⟩ ⟨6⟩ allowAnyRequest⟩,
          ⟨someOperator, .reorderGroups ⟨4⟩ [⟨3⟩]⟩] := by
  have hclean : PolicyClean labFleet := by decide
  refine ⟨by decide, hclean, (broadAllow_run_iff some hclean ?_).mpr ?_⟩
  · decide
  · refine ⟨fun _ => trivial, fun _ rule _ _ _ => ?_, fun _ => trivial, trivial⟩
    decide

end FirewallManager
