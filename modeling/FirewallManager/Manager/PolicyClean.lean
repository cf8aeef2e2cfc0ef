import FirewallManager.Manager.Operations

/-!
# Policies without flagged rules

`PolicyClean` says that no set assigned to a host has a flagged rule. A change of the database
is tame if it adds no assignment, no group link and no rule, up to fields that the gate does not
look at. Tame changes keep the policy clean, and most operations are tame (`tamer_perform`).
-/

namespace FirewallManager

/-- No host has a flagged rule in the compiled policy of a set it is assigned. -/
def PolicyClean (db : Database) : Prop :=
  ∀ row ∈ db.assignments.rows, ∀ rule ∈ db.compiledRules row.policySetId, rule.flagged = false

/-- Cleanness is decided by going through the assignments and their policies. -/
instance (db : Database) : Decidable (PolicyClean db) :=
  inferInstanceAs (Decidable (∀ row ∈ db.assignments.rows,
    ∀ rule ∈ db.compiledRules row.policySetId, rule.flagged = false))

/-- The group is in a set that is assigned to a host. -/
def GroupDeployed (db : Database) (groupId : Uuid) : Prop :=
  ∃ row ∈ db.assignments.rows, ∃ link ∈ db.setGroups.rows,
    link.policySetId = row.policySetId ∧ link.ruleGroupId = groupId

instance (db : Database) (groupId : Uuid) : Decidable (GroupDeployed db groupId) :=
  inferInstanceAs (Decidable (∃ row ∈ db.assignments.rows, ∃ link ∈ db.setGroups.rows,
    link.policySetId = row.policySetId ∧ link.ruleGroupId = groupId))

theorem policyClean_iff {db : Database} :
    PolicyClean db ↔
      ∀ rule ∈ db.rules.rows, rule.flagged = true → ¬ GroupDeployed db rule.ruleGroupId := by
  constructor
  · rintro h rule hrule hflagged ⟨row, hrow, link, hlink, hset, hgroup⟩
    have hclean := h row hrow rule
      (Database.mem_compiledRules.mpr ⟨hrule, link, hlink, hset, hgroup⟩)
    rw [hflagged] at hclean
    cases hclean
  · intro h row hrow rule hmem
    obtain ⟨hrule, link, hlink, hset, hgroup⟩ := Database.mem_compiledRules.mp hmem
    cases hflagged : rule.flagged with
    | false => rfl
    | true => exact absurd ⟨row, hrow, link, hlink, hset, hgroup⟩ (h rule hrule hflagged)

theorem policyClean_iff_of_same (db : Database) {db' : Database}
    (hassignments : db'.assignments = db.assignments) (hsetGroups : db'.setGroups = db.setGroups) :
    PolicyClean db' ↔
      ∀ rule ∈ db'.rules.rows, rule.flagged = true → ¬ GroupDeployed db rule.ruleGroupId := by
  rw [policyClean_iff]
  simp only [GroupDeployed, hassignments, hsetGroups]

/-- Every assignment, group link and rule of `after` was there in `before`, up to fields that the
gate does not look at. -/
structure Tamer (after before : Database) : Prop where
  assignments : ∀ row ∈ after.assignments.rows,
    ∃ old ∈ before.assignments.rows, old.policySetId = row.policySetId
  setGroups : ∀ link ∈ after.setGroups.rows, ∃ old ∈ before.setGroups.rows,
    old.policySetId = link.policySetId ∧ old.ruleGroupId = link.ruleGroupId
  rules : ∀ rule ∈ after.rules.rows, ∃ old ∈ before.rules.rows,
    old.ruleGroupId = rule.ruleGroupId ∧ old.flagged = rule.flagged

theorem Tamer.refl (db : Database) : Tamer db db where
  assignments := fun row hrow => ⟨row, hrow, rfl⟩
  setGroups := fun link hlink => ⟨link, hlink, rfl, rfl⟩
  rules := fun rule hrule => ⟨rule, hrule, rfl, rfl⟩

variable {after before : Database}

theorem Tamer.of_subset (hassignments : after.assignments.rows ⊆ before.assignments.rows)
    (hsetGroups : after.setGroups.rows ⊆ before.setGroups.rows)
    (hrules : after.rules.rows ⊆ before.rules.rows) : Tamer after before where
  assignments := fun row hrow => ⟨row, hassignments hrow, rfl⟩
  setGroups := fun link hlink => ⟨link, hsetGroups hlink, rfl, rfl⟩
  rules := fun rule hrule => ⟨rule, hrules hrule, rfl, rfl⟩

theorem Tamer.trans {last middle first : Database} (h : Tamer last middle)
    (h' : Tamer middle first) : Tamer last first where
  assignments := fun row hrow => by
    obtain ⟨mid, hmid, heq⟩ := h.assignments row hrow
    obtain ⟨old, hold, heq'⟩ := h'.assignments mid hmid
    exact ⟨old, hold, heq'.trans heq⟩
  setGroups := fun link hlink => by
    obtain ⟨mid, hmid, hset, hgroup⟩ := h.setGroups link hlink
    obtain ⟨old, hold, hset', hgroup'⟩ := h'.setGroups mid hmid
    exact ⟨old, hold, hset'.trans hset, hgroup'.trans hgroup⟩
  rules := fun rule hrule => by
    obtain ⟨mid, hmid, hgroup, hflagged⟩ := h.rules rule hrule
    obtain ⟨old, hold, hgroup', hflagged'⟩ := h'.rules mid hmid
    exact ⟨old, hold, hgroup'.trans hgroup, hflagged'.trans hflagged⟩

theorem GroupDeployed.of_tamer {groupId : Uuid} (h : GroupDeployed after groupId)
    (htamer : Tamer after before) :
    GroupDeployed before groupId := by
  obtain ⟨row, hrow, link, hlink, hset, hgroup⟩ := h
  obtain ⟨oldRow, hold, hrowSet⟩ := htamer.assignments row hrow
  obtain ⟨oldLink, hlinkMem, hlinkSet, hlinkGroup⟩ := htamer.setGroups link hlink
  exact ⟨oldRow, hold, oldLink, hlinkMem, hlinkSet.trans (hset.trans hrowSet.symm),
    hlinkGroup.trans hgroup⟩

theorem PolicyClean.of_tamer (h : PolicyClean before) (htamer : Tamer after before) :
    PolicyClean after := by
  rw [policyClean_iff] at h ⊢
  intro rule hrule hflagged hdeployed
  obtain ⟨old, hold, hgroup, hsame⟩ := htamer.rules rule hrule
  refine h old hold (hsame.trans hflagged) ?_
  rw [hgroup]
  exact hdeployed.of_tamer htamer

theorem PolicyClean.assign {db db' : Database} {host set user : Uuid} (h : PolicyClean db)
    (hgate : db.flaggedRuleIdsForSet set = []) (hassign : db.assign host set user = some db') :
    PolicyClean db' := by
  unfold Database.assign at hassign
  split at hassign
  next =>
    obtain rfl := Option.some.inj hassign
    intro row hrow rule hrule
    rcases Table.mem_insertNew.mp hrow with hold | ⟨-, rfl⟩
    · exact h row hold rule hrule
    · exact Database.flaggedRuleIdsForSet_eq_nil_iff.mp hgate rule hrule
  next => cases hassign

theorem Tamer.foldl {α : Type} {statement : Database → α → Database}
    (hstatement : ∀ db entry, Tamer (statement db entry) db) (entries : List α) (db : Database) :
    Tamer (entries.foldl statement db) db := by
  induction entries generalizing db with
  | nil => exact Tamer.refl db
  | cons entry entries ih => exact (ih (statement db entry)).trans (hstatement db entry)

theorem tamer_setRuleOrder (groupId : Uuid) (db : Database) (entry : Uuid × Nat) :
    Tamer (RuleGroups.setRuleOrder groupId db entry) db where
  assignments := fun row hrow => ⟨row, hrow, rfl⟩
  setGroups := fun link hlink => ⟨link, hlink, rfl, rfl⟩
  rules := fun rule hrule => by
    obtain ⟨old, hold, rfl⟩ := List.mem_map.mp hrule
    refine ⟨old, hold, ?_⟩
    split <;> exact ⟨rfl, rfl⟩

theorem tamer_setGroupPosition (id : Uuid) (db : Database) (entry : Uuid × Nat) :
    Tamer (PolicySets.setGroupPosition id db entry) db where
  assignments := fun row hrow => ⟨row, hrow, rfl⟩
  setGroups := fun link hlink => by
    obtain ⟨old, hold, rfl⟩ := List.mem_map.mp hlink
    refine ⟨old, hold, ?_⟩
    split <;> exact ⟨rfl, rfl⟩
  rules := fun rule hrule => ⟨rule, hrule, rfl, rfl⟩

theorem tamer_unassign (db : Database) (host set : Uuid) : Tamer (db.unassign host set) db :=
  Tamer.of_subset (fun _ hrow => (Table.mem_delete.mp hrow).1) (fun _ h => h) fun _ h => h

/-- The operations that can add an assignment, a group link or a rule, or edit a rule. -/
def Operation.extends : Operation → Bool
  | .assignPolicySet .. => true
  | .deploymentAssign .. => true
  | .createRuleInGroup .. => true
  | .updateRule .. => true
  | .addGroupToSet .. => true
  | _ => false

section Steps

variable {inetText : String → Option String}

theorem tamer_perform {user : AuthUser} {op : Operation} (h : op.extends = false)
    (db : Database) : Tamer (perform inetText user op db).2 db := by
  have hsame {db' : Database} (hassignments : db'.assignments = db.assignments)
      (hsetGroups : db'.setGroups = db.setGroups) (hrules : db'.rules = db.rules) :
      Tamer db' db := by
    refine Tamer.of_subset ?_ ?_ ?_
    · rw [hassignments]
      exact fun _ h => h
    · rw [hsetGroups]
      exact fun _ h => h
    · rw [hrules]
      exact fun _ h => h
  have hwrite {α : Type} {handler : Database → Except AppError α × Database}
      (hhandler : Tamer (handler db).2 db) : Tamer (requireWrite user handler db).2 db :=
    requireWrite_keeps (P := fun state => Tamer state db) (Tamer.refl db) hhandler
  have hadmin {α : Type} {handler : Database → Except AppError α × Database}
      (hhandler : Tamer (handler db).2 db) : Tamer (requireAdmin user handler db).2 db :=
    requireAdmin_keeps (P := fun state => Tamer state db) (Tamer.refl db) hhandler
  cases op with
  | assignPolicySet | deploymentAssign | createRuleInGroup | updateRule | addGroupToSet => cases h
  | deleteHost id =>
    refine hadmin (Tamer.of_subset ?_ (fun _ h => h) fun _ h => h)
    exact fun _ hrow => (Table.mem_delete.mp hrow).1
  | unassignPolicySet host set =>
    exact hwrite (tamer_unassign db host set)
  | deploymentUnassign req =>
    show Tamer (Deployment.unassignPolicySet user req db).2 db
    refine hwrite ?_
    refine Deployment.unassignHosts_keeps req.policySetId (P := fun state => Tamer state db)
      ?_ db (Tamer.refl db)
    exact fun state host _ hstate => (tamer_unassign state host req.policySetId).trans hstate
  | createGroup id name description =>
    show Tamer (Groups.createGroup user id name description db).2 db
    refine hwrite ?_
    dsimp only
    split
    · exact Tamer.refl db
    · split
      · exact Tamer.refl db
      · exact hsame rfl rfl rfl
  | deleteGroup id => exact hadmin (hsame rfl rfl rfl)
  | addHostToGroup id host =>
    refine hwrite ?_
    split
    · exact hsame rfl rfl rfl
    · exact Tamer.refl db
  | removeHostFromGroup id host => exact hwrite (hsame rfl rfl rfl)
  | createRuleGroup id name description =>
    show Tamer (RuleGroups.createRuleGroup user id name description db).2 db
    refine hwrite ?_
    dsimp only
    split
    · exact Tamer.refl db
    · exact hsame rfl rfl rfl
  | updateRuleGroup id name description =>
    refine hwrite ?_
    split
    · exact hsame rfl rfl rfl
    · exact Tamer.refl db
  | deleteRuleGroup id =>
    refine hwrite ?_
    dsimp only
    split
    · exact Tamer.refl db
    · split
      · exact Tamer.of_subset (fun _ h => h) (fun _ h => h)
          fun _ hrule => (Table.mem_delete.mp hrule).1
      · exact Tamer.refl db
  | reorderGroupRules groupId ruleIds =>
    exact hwrite (Tamer.foldl (tamer_setRuleOrder groupId) _ db)
  | deleteRule id =>
    refine hwrite ?_
    split
    · exact Tamer.of_subset (fun _ h => h) (fun _ h => h)
        fun _ hrule => (Table.mem_delete.mp hrule).1
    · exact Tamer.refl db
  | createPolicySet id name description input output =>
    show Tamer (PolicySets.createPolicySet user id name description input output db).2 db
    refine hwrite ?_
    dsimp only
    split
    · exact Tamer.refl db
    · split
      · exact Tamer.refl db
      · exact hsame rfl rfl rfl
  | updatePolicySet id req =>
    refine hwrite ?_
    split
    · exact Tamer.refl db
    · split
      · exact Tamer.refl db
      · exact hsame rfl rfl rfl
  | deletePolicySet id =>
    refine hwrite ?_
    split
    · exact Tamer.of_subset (fun _ hrow => (Table.mem_delete.mp hrow).1)
        (fun _ hlink => (Table.mem_delete.mp hlink).1) fun _ h => h
    · exact Tamer.refl db
  | removeGroupFromSet id group =>
    exact hwrite
      (Tamer.of_subset (fun _ h => h) (fun _ hlink => (Table.mem_delete.mp hlink).1) fun _ h => h)
  | reorderGroups id groups =>
    exact hwrite (Tamer.foldl (tamer_setGroupPosition id) _ db)

end Steps

end FirewallManager
