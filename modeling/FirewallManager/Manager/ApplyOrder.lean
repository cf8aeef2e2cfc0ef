import FirewallManager.Lib.Positions
import FirewallManager.Manager.RuleEdit

/-!
# The apply order

The compiled policy is ordered by the positions of the groups in their set and of the rules in their
group. A position is given by the caller, taken after the last one, or written by a reordering that
sends one update statement per entry and commits them together.

`orderStep` interleaves the statements of these handlers. `determined_step_iff` says which of them
keep the positions distinct, and `apply_order_iff` says it for whole runs. `compiledRules_unique`
says why it matters: with distinct positions the query has one result.
-/

namespace FirewallManager

open List

/-- The positions of the rules in their groups. -/
def rulePositions : Positions StoredRule Uuid Uuid where
  owner := StoredRule.ruleGroupId
  member := StoredRule.id
  position := StoredRule.groupOrder
  place n row := { row with groupOrder := n }
  owner_place _ _ := rfl
  member_place _ _ := rfl
  position_place _ _ := rfl
  place_place _ _ _ := rfl

/-- The positions of the groups in their sets. -/
def groupPositions : Positions SetGroup Uuid Uuid where
  owner := SetGroup.policySetId
  member := SetGroup.ruleGroupId
  position := SetGroup.setGroupOrder
  place n row := { row with setGroupOrder := n }
  owner_place _ _ := rfl
  member_place _ _ := rfl
  position_place _ _ := rfl
  place_place _ _ _ := rfl

/-- The rules of a group have distinct positions, and so have the groups of a set. -/
def Database.Determined (db : Database) : Prop :=
  rulePositions.Distinct db.rules.rows ∧ groupPositions.Distinct db.setGroups.rows

/-- Both tables are searched. -/
instance (db : Database) : Decidable db.Determined :=
  inferInstanceAs (Decidable (_ ∧ _))

/-! ## The query -/

/-- The rows that the query sorts. -/
def Database.joinedRules (db : Database) (policySetId : Uuid) : List (SetGroup × StoredRule) :=
  (db.setGroups.select fun link => decide (link.policySetId = policySetId)).flatMap fun link =>
    (db.rules.select fun rule => decide (rule.ruleGroupId = link.ruleGroupId)).map (link, ·)

instance : Std.Total ApplyBefore where
  total a b := by
    unfold ApplyBefore
    omega

instance : IsTrans (SetGroup × StoredRule) ApplyBefore where
  trans a b c := by
    unfold ApplyBefore
    omega

theorem Database.mem_joinedRules {db : Database} {policySetId : Uuid}
    {row : SetGroup × StoredRule} :
    row ∈ db.joinedRules policySetId ↔
      (row.1 ∈ db.setGroups.rows ∧ row.1.policySetId = policySetId) ∧
        row.2 ∈ db.rules.rows ∧ row.2.ruleGroupId = row.1.ruleGroupId := by
  cases row with
  | mk link rule => simp [joinedRules]

theorem compiledRules_unique {db : Database} (h : db.Determined) (policySetId : Uuid)
    {rows : List (SetGroup × StoredRule)} (hrows : rows.Perm (db.joinedRules policySetId))
    (hsorted : rows.Pairwise ApplyBefore) : rows.map Prod.snd = db.compiledRules policySetId := by
  suffices heq : rows = (db.joinedRules policySetId).insertionSort ApplyBefore by
    rw [heq]
    rfl
  refine List.Perm.eq_of_pairwise ?_ hsorted (pairwise_insertionSort _ _)
    (hrows.trans (perm_insertionSort _ _).symm)
  intro a b ha hb hab hba
  obtain ⟨⟨hlink, hset⟩, hrule, hgroup⟩ := Database.mem_joinedRules.mp (hrows.mem_iff.mp ha)
  obtain ⟨⟨hlink', hset'⟩, hrule', hgroup'⟩ :=
    Database.mem_joinedRules.mp ((mem_insertionSort _).mp hb)
  unfold ApplyBefore at hab hba
  have hfirst : a.1 = b.1 := h.2 a.1 hlink b.1 hlink' (hset.trans hset'.symm)
    (show a.1.setGroupOrder = b.1.setGroupOrder by omega)
  have howner : a.2.ruleGroupId = b.2.ruleGroupId := by
    rw [hgroup, hgroup', hfirst]
  have hsecond : a.2 = b.2 := h.1 a.2 hrule b.2 hrule' howner
    (show a.2.groupOrder = b.2.groupOrder by omega)
  exact Prod.ext hfirst hsecond

/-! ## The statements -/

/-- What a reordering writes. -/
inductive OrderTarget where
  | rulesOf (groupId : Uuid)
  | groupsOf (policySetId : Uuid)
  deriving DecidableEq

/-- The row that an update statement looks for exists. -/
def OrderTarget.has (target : OrderTarget) (db : Database) (id : Uuid) : Bool :=
  match target with
  | rulesOf groupId => db.rules.rows.any fun row => decide (row.ruleGroupId = groupId ∧ row.id = id)
  | groupsOf policySetId => db.setGroups.has (policySetId, id)

/-- The effect of an update statement. -/
def OrderTarget.write : OrderTarget → Database → Uuid × Nat → Database
  | rulesOf groupId => RuleGroups.setRuleOrder groupId
  | groupsOf policySetId => PolicySets.setGroupPosition policySetId

/-- An open transaction of a reordering: the statements to come, and those that found a row. Their
effect is not visible to others before the commit. -/
structure Reorder where
  target : OrderTarget
  remaining : List (Uuid × Nat)
  written : List (Uuid × Nat)
  deriving DecidableEq

/-- The committed tables and the open transactions. -/
structure OrderState where
  db : Database
  reorders : Nat → Option Reorder

/-- A statement of one of the handlers. A reordering begins, sends its update statements one by one,
and ends with a commit or is rolled back. -/
inductive OrderStep where
  | createRule (user : AuthUser) (id groupId : Uuid) (req : RuleGroups.CreateRuleInGroupRequest)
  | deleteRule (user : AuthUser) (id : Uuid)
  | addGroup (user : AuthUser) (id ruleGroupId : Uuid) (setGroupOrder : Option Int)
  | removeGroup (user : AuthUser) (id groupId : Uuid)
  | begin (txn : Nat) (user : AuthUser) (target : OrderTarget) (ids : List Uuid)
  | statement (txn : Nat)
  | commit (txn : Nat)
  | rollback (txn : Nat)

/-- The next statement of a transaction. -/
def Reorder.advance (reorder : Reorder) (db : Database) : Reorder :=
  match reorder.remaining with
  | [] => reorder
  | entry :: rest =>
    { reorder with
      remaining := rest
      written :=
        if reorder.target.has db entry.1 then reorder.written ++ [entry]
        else reorder.written }

/-- The tables after the commit of a transaction. -/
def Reorder.commit (reorder : Reorder) (db : Database) : Database :=
  reorder.written.foldl reorder.target.write db

section Steps

variable (inetText : String → Option String)

/-- One statement. -/
def orderStep (state : OrderState) : OrderStep → OrderState
  | .createRule user id groupId req =>
    { state with db := (RuleGroups.createRuleInGroup inetText user id groupId req state.db).2 }
  | .deleteRule user id => { state with db := (Rules.deleteRule user id state.db).2 }
  | .addGroup user id ruleGroupId setGroupOrder =>
    { state with db := (PolicySets.addGroupToSet user id ruleGroupId setGroupOrder state.db).2 }
  | .removeGroup user id groupId =>
    { state with db := (PolicySets.removeGroupFromSet user id groupId state.db).2 }
  | .begin txn user target ids =>
    if user.role.canWrite = true ∧ state.reorders txn = none then
      { state with
        reorders := Function.update state.reorders txn (some ⟨target, ids.zipIdx, []⟩) }
    else state
  | .statement txn =>
    match state.reorders txn with
    | none => state
    | some reorder =>
      { state with
        reorders := Function.update state.reorders txn (some (reorder.advance state.db)) }
  | .commit txn =>
    match state.reorders txn with
    | none => state
    | some reorder =>
      if reorder.remaining = [] then
        ⟨reorder.commit state.db, Function.update state.reorders txn none⟩
      else state
  | .rollback txn => { state with reorders := Function.update state.reorders txn none }

/-- No row that the transaction leaves alone has a position that it writes. -/
def Reorder.Clear (reorder : Reorder) (db : Database) : Prop :=
  match reorder.target with
  | .rulesOf groupId => rulePositions.Clear groupId reorder.written db.rules.rows
  | .groupsOf policySetId => groupPositions.Clear policySetId reorder.written db.setGroups.rows

/-- The statement puts nothing on a taken position: a position that the caller gives is free, and a
reordering is clear of the rows that it leaves alone. -/
def Separates (state : OrderState) : OrderStep → Prop
  | .createRule user id groupId req =>
    ∀ order rule, req.groupOrder = some order →
      (RuleGroups.createRuleInGroup inetText user id groupId req state.db).1 = .ok rule →
      ∀ row ∈ state.db.rules.rows, row.ruleGroupId = groupId → row.groupOrder ≠ order
  | .addGroup user id ruleGroupId setGroupOrder =>
    ∀ order, setGroupOrder = some order →
      (PolicySets.addGroupToSet user id ruleGroupId setGroupOrder state.db).1 = .ok () →
      ∀ row ∈ state.db.setGroups.rows, row.policySetId = id → row.ruleGroupId ≠ ruleGroupId →
        row.setGroupOrder ≠ order
  | .commit txn =>
    ∀ reorder, state.reorders txn = some reorder → reorder.remaining = [] →
      reorder.Clear state.db
  | _ => True

end Steps

theorem lt_of_nextOrder {orders : List Int} {n : Int} (h : nextOrder none orders = some n) :
    ∀ order ∈ orders, order < n := by
  intro order horder
  unfold nextOrder at h
  dsimp only at h
  split at h
  next hlast =>
    cases h
    cases hmax : orders.max? with
    | none =>
      rw [max?_eq_none_iff.mp hmax] at horder
      cases horder
    | some last =>
      have hle := (max?_eq_some_iff.mp hmax).2 order horder
      show order < last + 1
      omega
  next => cases h

theorem rulePositions_keyed (db : Database) : rulePositions.Keyed db.rules.rows :=
  fun _ hrow _ hother _ hid => Table.eq_of_key_eq hrow hother hid

theorem groupPositions_keyed (db : Database) : groupPositions.Keyed db.setGroups.rows :=
  fun _ hrow _ hother hset hgroup => Table.eq_of_key_eq hrow hother (Prod.ext hset hgroup)

section Statements

variable {inetText : String → Option String} {db : Database}

theorem newRule_position {id groupId : Uuid} {req : RuleGroups.CreateRuleInGroupRequest}
    {rule : StoredRule} (h : RuleGroups.newRule inetText id groupId req db = some rule) :
    rule.ruleGroupId = groupId ∧
      nextOrder req.groupOrder ((db.rules.select fun row =>
        decide (row.ruleGroupId = groupId)).map StoredRule.groupOrder) = some rule.groupOrder := by
  simp only [RuleGroups.newRule, Option.bind_eq_bind, Option.bind_eq_some_iff] at h
  obtain ⟨_, -, _, -, _, -, _, -, order, horder, hrow⟩ := h
  split at hrow
  next =>
    cases hrow
    exact ⟨rfl, horder⟩
  next => cases hrow

theorem createRuleInGroup_cases (user : AuthUser) (id groupId : Uuid)
    (req : RuleGroups.CreateRuleInGroupRequest) (db : Database) :
    (∃ e, RuleGroups.createRuleInGroup inetText user id groupId req db = (.error e, db)) ∨
      ∃ rule db', RuleGroups.createRuleInGroup inetText user id groupId req db =
          (.ok rule.toModel, db') ∧
        RuleGroups.newRule inetText id groupId req db = some rule ∧
        db.rules.has rule.id = false ∧ db'.rules.rows = db.rules.rows ++ [rule] ∧
        db'.setGroups = db.setGroups := by
  rw [RuleGroups.createRuleInGroup, requireWrite]
  by_cases hwrite : user.role.canWrite = true
  · rw [if_pos hwrite]
    cases hrule : RuleGroups.newRule inetText id groupId req db with
    | none => exact .inl ⟨_, rfl⟩
    | some rule =>
      dsimp only
      cases hinsert : db.rules.insert? rule with
      | none => exact .inl ⟨_, rfl⟩
      | some rules =>
        obtain ⟨hfree, hrows⟩ := Table.insert?_eq_some_iff.mp hinsert
        exact .inr ⟨rule, _, rfl, rfl, hfree, hrows, rfl⟩
  · rw [if_neg hwrite]
    exact .inl ⟨_, rfl⟩

/-- A created rule keeps the positions distinct exactly if a given position is free. -/
theorem determined_createRule_iff (h : db.Determined) (user : AuthUser) (id groupId : Uuid)
    (req : RuleGroups.CreateRuleInGroupRequest) :
    (RuleGroups.createRuleInGroup inetText user id groupId req db).2.Determined ↔
      ∀ order rule, req.groupOrder = some order →
        (RuleGroups.createRuleInGroup inetText user id groupId req db).1 = .ok rule →
        ∀ row ∈ db.rules.rows, row.ruleGroupId = groupId → row.groupOrder ≠ order := by
  rcases createRuleInGroup_cases user id groupId req db with
    ⟨e, hfail⟩ | ⟨rule, db', hok, hrule, hfree, hrows, hgroups⟩
  · rw [hfail]
    exact ⟨fun _ order rule _ hrule => (nomatch hrule), fun _ => h⟩
  · rw [hok]
    obtain ⟨hgroup, horder⟩ := newRule_position hrule
    have hnew : rule ∉ db.rules.rows := fun hmem => by
      rw [Table.has_eq_true_iff.mpr ⟨rule, hmem, rfl⟩] at hfree
      cases hfree
    have hiff := Positions.distinct_append_iff hnew h.1
    rw [Database.Determined, hrows, hgroups, hiff]
    constructor
    · rintro ⟨hown, -⟩ order _ hgiven - row hrow howner hposition
      rw [hgiven] at horder
      obtain rfl : order = rule.groupOrder := Option.some.inj horder
      exact hown row hrow (howner.trans hgroup.symm) hposition
    · intro hgiven
      refine ⟨fun row hrow howner hposition => ?_, h.2⟩
      have howner' : row.ruleGroupId = groupId := Eq.trans howner hgroup
      cases hreq : req.groupOrder with
      | some order =>
        rw [hreq] at horder
        obtain rfl : order = rule.groupOrder := Option.some.inj horder
        exact hgiven rule.groupOrder rule.toModel hreq rfl row hrow howner' hposition
      | none =>
        -- The new rule is placed after all rules of its group.
        rw [hreq] at horder
        have hmem : row.groupOrder ∈ (db.rules.select fun row =>
            decide (row.ruleGroupId = groupId)).map StoredRule.groupOrder :=
          mem_map_of_mem (Table.mem_select.mpr ⟨hrow, decide_eq_true howner'⟩)
        have hlt := lt_of_nextOrder horder row.groupOrder hmem
        have heq : row.groupOrder = rule.groupOrder := hposition
        omega

theorem determined_deleteRule (h : db.Determined) (user : AuthUser) (id : Uuid) :
    (Rules.deleteRule user id db).2.Determined := by
  rw [Rules.deleteRule, requireWrite]
  by_cases hwrite : user.role.canWrite = true
  · rw [if_pos hwrite]
    by_cases hhas : db.rules.has id = true
    · rw [if_pos hhas]
      exact ⟨h.1.subset fun row hrow => (Table.mem_delete.mp hrow).1, h.2⟩
    · rw [if_neg hhas]
      exact h
  · rw [if_neg hwrite]
    exact h

theorem determined_removeGroup (h : db.Determined) (user : AuthUser) (id groupId : Uuid) :
    (PolicySets.removeGroupFromSet user id groupId db).2.Determined := by
  rw [PolicySets.removeGroupFromSet, requireWrite]
  by_cases hwrite : user.role.canWrite = true
  · rw [if_pos hwrite]
    exact ⟨h.1, h.2.subset fun row hrow => (Table.mem_delete.mp hrow).1⟩
  · rw [if_neg hwrite]
    exact h

theorem addGroupToSet_cases (user : AuthUser) (id ruleGroupId : Uuid)
    (setGroupOrder : Option Int) (db : Database) :
    (∃ e, PolicySets.addGroupToSet user id ruleGroupId setGroupOrder db = (.error e, db)) ∨
      ∃ order db', PolicySets.addGroupToSet user id ruleGroupId setGroupOrder db = (.ok (), db') ∧
        PolicySets.groupPosition id setGroupOrder db = some order ∧ db'.rules = db.rules ∧
        db'.setGroups = db.setGroups.upsert ⟨id, ruleGroupId, order⟩
          (fun row => { row with setGroupOrder := order }) fun _ => rfl := by
  rw [PolicySets.addGroupToSet, requireWrite]
  by_cases hwrite : user.role.canWrite = true
  · rw [if_pos hwrite]
    cases horder : PolicySets.groupPosition id setGroupOrder db with
    | none => exact .inl ⟨_, rfl⟩
    | some order =>
      dsimp only
      split
      next => exact .inr ⟨order, _, rfl, rfl, rfl, rfl⟩
      next => exact .inl ⟨_, rfl⟩
  · rw [if_neg hwrite]
    exact .inl ⟨_, rfl⟩

/-- Where the update of an existing row puts the groups. -/
def groupTarget (id ruleGroupId : Uuid) (order : Int) (row : SetGroup) : Option Int :=
  if (row.policySetId, row.ruleGroupId) = (id, ruleGroupId) then some order else none

theorem groupTarget_eq_some {id ruleGroupId : Uuid} {order n : Int} {row : SetGroup}
    (h : groupTarget id ruleGroupId order row = some n) :
    (row.policySetId, row.ruleGroupId) = (id, ruleGroupId) ∧ n = order := by
  unfold groupTarget at h
  split at h
  next hkey => exact ⟨hkey, (Option.some.inj h).symm⟩
  next => cases h

theorem update_rows_moved (id ruleGroupId : Uuid) (order : Int) :
    (db.setGroups.update (fun row => decide ((row.policySetId, row.ruleGroupId) =
        (id, ruleGroupId))) (fun row => { row with setGroupOrder := order }) fun _ => rfl).rows =
      db.setGroups.rows.map (groupPositions.moved (groupTarget id ruleGroupId order)) := by
  refine map_congr_left fun row _ => ?_
  unfold Positions.moved groupTarget
  by_cases hkey : (row.policySetId, row.ruleGroupId) = (id, ruleGroupId)
  · rw [if_pos (decide_eq_true hkey), if_pos hkey]
    rfl
  · rw [if_neg fun h => hkey (of_decide_eq_true h), if_neg hkey]

theorem distinct_upsert_iff (h : groupPositions.Distinct db.setGroups.rows) (id ruleGroupId : Uuid)
    (order : Int) :
    groupPositions.Distinct (db.setGroups.upsert ⟨id, ruleGroupId, order⟩
        (fun row => { row with setGroupOrder := order }) fun _ => rfl).rows ↔
      ∀ row ∈ db.setGroups.rows, row.policySetId = id → row.ruleGroupId ≠ ruleGroupId →
        row.setGroupOrder ≠ order := by
  unfold Table.upsert
  split
  next hfree =>
    have hnone : ∀ row ∈ db.setGroups.rows, row.policySetId = id →
        row.ruleGroupId ≠ ruleGroupId := by
      intro row hrow hset hgroup
      rw [Table.has_eq_true_iff.mpr ⟨row, hrow, Prod.ext hset hgroup⟩] at hfree
      cases hfree
    have hnew : (⟨id, ruleGroupId, order⟩ : SetGroup) ∉ db.setGroups.rows :=
      fun hmem => hnone _ hmem rfl rfl
    refine (Positions.distinct_append_iff hnew h).trans ?_
    constructor
    · exact fun hown row hrow hset _ => hown row hrow hset
    · exact fun hown row hrow hset => hown row hrow hset (hnone row hrow hset)
  next htaken =>
    have htaken' : db.setGroups.has (id, ruleGroupId) = true := by
      rw [← Bool.not_eq_false]
      exact htaken
    obtain ⟨there, hthere, hkey⟩ := Table.has_eq_true_iff.mp htaken'
    have hthereset : there.policySetId = id := congrArg Prod.fst hkey
    have htheregroup : there.ruleGroupId = ruleGroupId := congrArg Prod.snd hkey
    have hown : ∀ row ∈ db.setGroups.rows, ∀ other ∈ db.setGroups.rows, ∀ n,
        row.policySetId = other.policySetId → groupTarget id ruleGroupId order row = some n →
        groupTarget id ruleGroupId order other = some n → row = other := by
      intro row hrow other hother n _ hfirst hsecond
      exact Table.eq_of_key_eq hrow hother
        ((groupTarget_eq_some hfirst).1.trans (groupTarget_eq_some hsecond).1.symm)
    rw [update_rows_moved]
    refine (Positions.distinct_moved_iff (groupPositions_keyed db) h hown).trans ?_
    constructor
    · intro hclear row hrow hset hgroup hposition
      refine hclear row hrow there hthere order (hset.trans hthereset.symm) ?_ ?_ hposition
      · exact if_neg fun hkey' => hgroup (congrArg Prod.snd hkey')
      · exact if_pos hkey
    · intro hother row hrow other hmem n howner hstays hmoves hposition
      obtain ⟨hkey', rfl⟩ := groupTarget_eq_some hmoves
      have hset : row.policySetId = id := Eq.trans howner (congrArg Prod.fst hkey')
      refine hother row hrow hset (fun hgroup => ?_) hposition
      rw [groupTarget, if_pos (Prod.ext hset hgroup)] at hstays
      cases hstays

theorem determined_addGroup_iff (h : db.Determined) (user : AuthUser) (id ruleGroupId : Uuid)
    (setGroupOrder : Option Int) :
    (PolicySets.addGroupToSet user id ruleGroupId setGroupOrder db).2.Determined ↔
      ∀ order, setGroupOrder = some order →
        (PolicySets.addGroupToSet user id ruleGroupId setGroupOrder db).1 = .ok () →
        ∀ row ∈ db.setGroups.rows, row.policySetId = id → row.ruleGroupId ≠ ruleGroupId →
          row.setGroupOrder ≠ order := by
  rcases addGroupToSet_cases user id ruleGroupId setGroupOrder db with
    ⟨e, hfail⟩ | ⟨order, db', hok, horder, hrules, hgroups⟩
  · rw [hfail]
    exact ⟨fun _ order _ hok => (nomatch hok), fun _ => h⟩
  · rw [hok, Database.Determined, hrules, hgroups, distinct_upsert_iff h.2]
    constructor
    · rintro ⟨-, hfree⟩ given rfl -
      obtain rfl : given = order := Option.some.inj horder
      exact hfree
    · intro hgiven
      refine ⟨h.1, ?_⟩
      cases setGroupOrder with
      | some given =>
        obtain rfl : given = order := Option.some.inj horder
        exact hgiven given rfl rfl
      | none =>
        -- The group is placed after all groups of the set.
        intro row hrow hset _
        have hmem : row.setGroupOrder ∈ (db.setGroups.select fun row =>
            decide (row.policySetId = id)).map SetGroup.setGroupOrder :=
          mem_map_of_mem (Table.mem_select.mpr ⟨hrow, decide_eq_true hset⟩)
        exact (lt_of_nextOrder horder row.setGroupOrder hmem).ne

theorem setRuleOrder_writes (groupId : Uuid) (entries : List (Uuid × Nat)) (db : Database) :
    (entries.foldl (RuleGroups.setRuleOrder groupId) db).rules.rows =
        db.rules.rows.map (rulePositions.moved (rulePositions.targetOf groupId entries)) ∧
      (entries.foldl (RuleGroups.setRuleOrder groupId) db).setGroups = db.setGroups := by
  rw [← Positions.foldl_write]
  induction entries generalizing db with
  | nil => exact ⟨rfl, rfl⟩
  | cons entry rest ih =>
    obtain ⟨hrules, hgroups⟩ := ih (RuleGroups.setRuleOrder groupId db entry)
    refine ⟨hrules.trans ?_, hgroups⟩
    rw [foldl_cons]
    congr 1
    refine map_congr_left fun row _ => if_congr ?_ rfl rfl
    rw [Bool.and_eq_true, decide_eq_true_iff, decide_eq_true_iff]
    rfl

theorem setGroupPosition_writes (policySetId : Uuid) (entries : List (Uuid × Nat))
    (db : Database) :
    (entries.foldl (PolicySets.setGroupPosition policySetId) db).setGroups.rows =
        db.setGroups.rows.map (groupPositions.moved
          (groupPositions.targetOf policySetId entries)) ∧
      (entries.foldl (PolicySets.setGroupPosition policySetId) db).rules = db.rules := by
  rw [← Positions.foldl_write]
  induction entries generalizing db with
  | nil => exact ⟨rfl, rfl⟩
  | cons entry rest ih =>
    obtain ⟨hgroups, hrules⟩ := ih (PolicySets.setGroupPosition policySetId db entry)
    refine ⟨hgroups.trans ?_, hrules⟩
    rw [foldl_cons]
    congr 1
    refine map_congr_left fun row _ => if_congr ?_ rfl rfl
    rw [Bool.and_eq_true, decide_eq_true_iff, decide_eq_true_iff]
    rfl

/-- A commit keeps the positions distinct exactly if it is clear of the rows it leaves alone. -/
theorem determined_commit_iff (h : db.Determined) {reorder : Reorder}
    (hpositions : (reorder.written.map Prod.snd).Nodup) :
    (reorder.commit db).Determined ↔ reorder.Clear db := by
  cases reorder with
  | mk target remaining written =>
    cases target with
    | rulesOf groupId =>
      obtain ⟨hrules, hgroups⟩ := setRuleOrder_writes groupId written db
      show rulePositions.Distinct
          (written.foldl (RuleGroups.setRuleOrder groupId) db).rules.rows ∧
        groupPositions.Distinct
          (written.foldl (RuleGroups.setRuleOrder groupId) db).setGroups.rows ↔ _
      rw [hrules, hgroups,
        Positions.distinct_writes_iff (rulePositions_keyed db) h.1 hpositions]
      exact and_iff_left h.2
    | groupsOf policySetId =>
      obtain ⟨hgroups, hrules⟩ := setGroupPosition_writes policySetId written db
      show rulePositions.Distinct
          (written.foldl (PolicySets.setGroupPosition policySetId) db).rules.rows ∧
        groupPositions.Distinct
          (written.foldl (PolicySets.setGroupPosition policySetId) db).setGroups.rows ↔ _
      rw [hrules, hgroups,
        Positions.distinct_writes_iff (groupPositions_keyed db) h.2 hpositions]
      exact and_iff_right h.1

end Statements

/-! ## Runs -/

/-- The transactions write different positions, since they number a list. -/
def OrderState.Numbered (state : OrderState) : Prop :=
  ∀ txn reorder, state.reorders txn = some reorder →
    ((reorder.written ++ reorder.remaining).map Prod.snd).Nodup

/-- A statement of a transaction is taken from those to come. -/
theorem Reorder.advance_sublist (reorder : Reorder) (db : Database) :
    ((reorder.advance db).written ++ (reorder.advance db).remaining).Sublist
      (reorder.written ++ reorder.remaining) := by
  cases reorder with
  | mk target remaining written =>
    cases remaining with
    | nil => exact List.Sublist.refl _
    | cons entry rest =>
      unfold advance
      dsimp only
      split
      next =>
        rw [append_assoc]
        exact List.Sublist.refl _
      next => exact (sublist_cons_self entry rest).append_left written

section Runs

variable {inetText : String → Option String}

theorem numbered_step {state : OrderState} (h : state.Numbered) (step : OrderStep) :
    (orderStep inetText state step).Numbered := by
  have hupdate (txn : Nat) (entry : Option Reorder) (hentry : ∀ reorder, entry = some reorder →
      ((reorder.written ++ reorder.remaining).map Prod.snd).Nodup) (db : Database) :
      (OrderState.mk db (Function.update state.reorders txn entry)).Numbered := by
    intro other reorder hreorder
    have hfound : Function.update state.reorders txn entry other = some reorder := hreorder
    by_cases hsame : other = txn
    · rw [hsame, Function.update_self] at hfound
      exact hentry reorder hfound
    · rw [Function.update_of_ne hsame] at hfound
      exact h other reorder hfound
  cases step with
  | createRule user id groupId req => exact h
  | deleteRule user id => exact h
  | addGroup user id ruleGroupId setGroupOrder => exact h
  | removeGroup user id groupId => exact h
  | begin txn user target ids =>
    rw [orderStep]
    split
    · refine hupdate txn _ (fun reorder hreorder => ?_) state.db
      cases hreorder
      show (ids.zipIdx.map Prod.snd).Nodup
      rw [zipIdx_map_snd]
      exact nodup_range'
    · exact h
  | statement txn =>
    rw [orderStep]
    split
    · exact h
    next reorder hreorder =>
      refine hupdate txn _ (fun next hnext => ?_) state.db
      cases hnext
      exact (h txn reorder hreorder).sublist ((reorder.advance_sublist state.db).map _)
  | commit txn =>
    rw [orderStep]
    split
    · exact h
    · split
      · exact hupdate txn none (fun _ => nofun) _
      · exact h
  | rollback txn => exact hupdate txn none (fun _ => nofun) state.db

/-- Which statements keep the positions distinct. -/
theorem determined_step_iff {state : OrderState} (h : state.db.Determined)
    (hnumbered : state.Numbered) (step : OrderStep) :
    (orderStep inetText state step).db.Determined ↔ Separates inetText state step := by
  cases step with
  | createRule user id groupId req => exact determined_createRule_iff h user id groupId req
  | deleteRule user id => exact iff_of_true (determined_deleteRule h user id) trivial
  | addGroup user id ruleGroupId setGroupOrder =>
    exact determined_addGroup_iff h user id ruleGroupId setGroupOrder
  | removeGroup user id groupId =>
    exact iff_of_true (determined_removeGroup h user id groupId) trivial
  | begin txn user target ids =>
    refine iff_of_true ?_ trivial
    rw [orderStep]
    split
    · exact h
    · exact h
  | statement txn =>
    refine iff_of_true ?_ trivial
    rw [orderStep]
    split
    · exact h
    · exact h
  | commit txn =>
    rw [orderStep, Separates]
    cases hreorder : state.reorders txn with
    | none => exact iff_of_true h fun _ => nofun
    | some reorder =>
      dsimp only
      by_cases hdone : reorder.remaining = []
      · have hnodup := hnumbered txn reorder hreorder
        rw [hdone, append_nil] at hnodup
        rw [if_pos hdone]
        refine (determined_commit_iff h hnodup).trans ⟨?_, ?_⟩
        · rintro hclear _ ⟨⟩ -
          exact hclear
        · exact fun hall => hall reorder rfl hdone
      · rw [if_neg hdone]
        refine iff_of_true h ?_
        rintro _ ⟨⟩ hdone'
        exact absurd hdone' hdone
  | rollback txn => exact iff_of_true h trivial

/-- The handler of a reordering. -/
def OrderTarget.handler (user : AuthUser) (ids : List Uuid) :
    OrderTarget → Database → Except AppError Unit × Database
  | rulesOf groupId => RuleGroups.reorderGroupRules user groupId ids
  | groupsOf policySetId => PolicySets.reorderGroups user policySetId ids

theorem OrderTarget.write_of_not_has {target : OrderTarget} {db : Database} {entry : Uuid × Nat}
    (h : target.has db entry.1 = false) : target.write db entry = db := by
  cases target with
  | rulesOf groupId =>
    show { db with rules := _ } = db
    rw [Table.update_eq_self]
    intro row hrow
    have hnot := any_eq_false.mp h row hrow
    rw [← Bool.not_eq_true, Bool.and_eq_true, decide_eq_true_iff, decide_eq_true_iff]
    exact fun hboth => hnot (decide_eq_true hboth)
  | groupsOf policySetId =>
    show { db with setGroups := _ } = db
    rw [Table.update_eq_self]
    intro row hrow
    rw [← Bool.not_eq_true, Bool.and_eq_true, decide_eq_true_iff, decide_eq_true_iff]
    rintro ⟨hset, hgroup⟩
    have hhas : db.setGroups.has (policySetId, entry.1) = true :=
      Table.has_eq_true_iff.mpr ⟨row, hrow, Prod.ext hset hgroup⟩
    exact Bool.false_ne_true (h.symm.trans hhas)

/-- A statement leaves the rows that the others look for. -/
theorem OrderTarget.has_write (target : OrderTarget) (db : Database) (entry : Uuid × Nat)
    (id : Uuid) : target.has (target.write db entry) id = target.has db id := by
  cases target with
  | rulesOf groupId =>
    show (List.map _ db.rules.rows).any _ = db.rules.rows.any _
    rw [any_map]
    congr 1
    funext row
    rw [Function.comp_apply]
    split
    · rfl
    · rfl
  | groupsOf policySetId =>
    have hkey : ∀ row : SetGroup, ({ row with setGroupOrder := entry.2 : SetGroup }.policySetId,
        { row with setGroupOrder := entry.2 : SetGroup }.ruleGroupId) =
        (row.policySetId, row.ruleGroupId) := fun _ => rfl
    exact Table.has_update hkey (policySetId, id)

/-- Only the statements that find their row matter. -/
theorem OrderTarget.foldl_filter_has (target : OrderTarget) (entries : List (Uuid × Nat))
    (db : Database) :
    (entries.filter fun entry => target.has db entry.1).foldl target.write db =
      entries.foldl target.write db := by
  suffices hsame : ∀ db', (∀ id, target.has db' id = target.has db id) →
      (entries.filter fun entry => target.has db entry.1).foldl target.write db' =
        entries.foldl target.write db' from hsame db fun _ => rfl
  induction entries with
  | nil => exact fun _ _ => rfl
  | cons entry rest ih =>
    intro db' hhas
    rw [foldl_cons]
    by_cases hfound : target.has db entry.1 = true
    · rw [filter_cons, if_pos hfound, foldl_cons]
      exact ih _ fun id => (target.has_write db' entry id).trans (hhas id)
    · have hnot : target.has db' entry.1 = false := by
        rw [hhas]
        exact Bool.eq_false_iff.mpr hfound
      rw [filter_cons, if_neg hfound, write_of_not_has hnot]
      exact ih db' hhas

theorem run_statements (inetText : String → Option String) (db : Database) {txn : Nat}
    {target : OrderTarget} (entries : List (Uuid × Nat))
    {reorders : Nat → Option Reorder} {written : List (Uuid × Nat)}
    (hopen : reorders txn = some ⟨target, entries, written⟩) :
    ∃ reorders', Runs.run (orderStep inetText) ⟨db, reorders⟩
        (List.replicate entries.length (.statement txn)) = ⟨db, reorders'⟩ ∧
      reorders' txn = some ⟨target, [],
        written ++ entries.filter fun entry => target.has db entry.1⟩ := by
  induction entries generalizing reorders written with
  | nil =>
    refine ⟨reorders, rfl, ?_⟩
    rw [hopen, filter_nil, append_nil]
  | cons entry rest ih =>
    have hstep : orderStep inetText ⟨db, reorders⟩ (.statement txn) =
        ⟨db, Function.update reorders txn (some ⟨target, rest,
          if target.has db entry.1 then written ++ [entry] else written⟩)⟩ := by
      rw [orderStep]
      dsimp only
      rw [hopen]
      rfl
    obtain ⟨reorders', hrun, hopen'⟩ := ih (Function.update_self txn _ reorders)
    refine ⟨reorders', ?_, hopen'.trans ?_⟩
    · rw [length_cons, replicate_succ, Runs.run, foldl_cons, hstep]
      exact hrun
    · congr 2
      by_cases hfound : target.has db entry.1 = true
      · rw [if_pos hfound, filter_cons, if_pos hfound, append_assoc]
        rfl
      · rw [if_neg hfound, filter_cons, if_neg hfound]

/-- A reordering whose transaction meets no other call does what the handler does. -/
theorem run_reorder {user : AuthUser} (hwrite : user.role.canWrite = true) {state : OrderState}
    {txn : Nat} (hfree : state.reorders txn = none) (target : OrderTarget) (ids : List Uuid) :
    (Runs.run (orderStep inetText) state (.begin txn user target ids ::
        (List.replicate ids.length (.statement txn) ++ [.commit txn]))).db =
      (target.handler user ids state.db).2 := by
  have hbegin : orderStep inetText state (.begin txn user target ids) =
      ⟨state.db, Function.update state.reorders txn (some ⟨target, ids.zipIdx, []⟩)⟩ :=
    if_pos ⟨hwrite, hfree⟩
  obtain ⟨reorders, hrun, hopen⟩ := run_statements inetText state.db ids.zipIdx
    (Function.update_self txn (some ⟨target, ids.zipIdx, []⟩) state.reorders)
  rw [length_zipIdx] at hrun
  have hcommit : orderStep inetText ⟨state.db, reorders⟩ (.commit txn) =
      ⟨ids.zipIdx.foldl target.write state.db, Function.update reorders txn none⟩ := by
    rw [orderStep]
    dsimp only
    rw [hopen]
    dsimp only
    rw [if_pos rfl, Reorder.commit, nil_append, target.foldl_filter_has]
  rw [Runs.run, foldl_cons, hbegin, ← Runs.run, Runs.run_concat, hrun, hcommit]
  cases target with
  | rulesOf groupId =>
    show _ = (RuleGroups.reorderGroupRules user groupId ids state.db).2
    rw [RuleGroups.reorderGroupRules, requireWrite_of_canWrite hwrite]
    rfl
  | groupsOf policySetId =>
    show _ = (PolicySets.reorderGroups user policySetId ids state.db).2
    rw [PolicySets.reorderGroups, requireWrite_of_canWrite hwrite]
    rfl

theorem run_reorder_at_editedFleet :
    (Runs.run (orderStep some) ⟨editedFleet, fun _ => none⟩
        [.begin 0 someOperator (.rulesOf ⟨3⟩) [⟨5⟩, ⟨6⟩], .statement 0, .statement 0,
          .commit 0]).db =
      (RuleGroups.reorderGroupRules someOperator ⟨3⟩ [⟨5⟩, ⟨6⟩] editedFleet).2 :=
  run_reorder rfl rfl (.rulesOf ⟨3⟩) [⟨5⟩, ⟨6⟩]

/-- The order is determined throughout a run exactly if every statement separates what it places,
and where it is determined the query has one result. -/
theorem apply_order_iff (inetText : String → Option String) (db : Database) (hstart : db.Determined)
    (steps : List OrderStep) :
    (Runs.Throughout (orderStep inetText) (fun state => state.db.Determined)
        ⟨db, fun _ => none⟩ steps ↔
      Runs.Meets (orderStep inetText) (Separates inetText) ⟨db, fun _ => none⟩ steps) ∧
    ∀ db' : Database, db'.Determined → ∀ policySetId (rows : List (SetGroup × StoredRule)),
      rows.Perm (db'.joinedRules policySetId) → rows.Pairwise ApplyBefore →
      rows.map Prod.snd = db'.compiledRules policySetId := by
  refine ⟨?_, fun db' h policySetId rows => compiledRules_unique h policySetId⟩
  have hfirst : db.Determined ∧ (OrderState.mk db fun _ => none).Numbered :=
    ⟨hstart, fun _ _ => nofun⟩
  have hstep : ∀ (state : OrderState) (step : OrderStep),
      state.db.Determined ∧ state.Numbered → True →
      ((orderStep inetText state step).db.Determined ∧ (orderStep inetText state step).Numbered ↔
        Separates inetText state step) := fun state step h _ =>
    (and_iff_left (numbered_step h.2 step)).trans (determined_step_iff h.1 h.2 step)
  have hrun : Runs.Throughout (orderStep inetText)
      (fun state => state.db.Determined ∧ state.Numbered) ⟨db, fun _ => none⟩ steps ↔
      Runs.Meets (orderStep inetText) (Separates inetText) ⟨db, fun _ => none⟩ steps :=
    Runs.throughout_iff_meets hstep hfirst fun _ _ => trivial
  rw [← hrun]
  constructor
  · exact Runs.throughout_of_step
      (fun state step h hnext => ⟨hnext, numbered_step h.2 step⟩) hfirst
  · exact fun h n => (h n).1

/-- The request for a rule at the position of the rule that the fleet has. -/
def takenPosition : RuleGroups.CreateRuleInGroupRequest :=
  { allowAnyRequest with groupOrder := some 0 }

/-- The fleet after that rule is created. -/
def tiedFleet : Database :=
  (Runs.run (orderStep some) ⟨editedFleet, fun _ => none⟩
    [.createRule someOperator ⟨6⟩ ⟨3⟩ takenPosition]).db

/-- The order of the two rules is up to the database. -/
theorem given_position_tied :
    editedFleet.Determined ∧ ¬ tiedFleet.Determined ∧
      (tiedFleet.joinedRules ⟨4⟩).Pairwise ApplyBefore ∧
      (tiedFleet.joinedRules ⟨4⟩).reverse.Pairwise ApplyBefore ∧
      (tiedFleet.joinedRules ⟨4⟩).reverse.map Prod.snd ≠
        (tiedFleet.joinedRules ⟨4⟩).map Prod.snd := by
  decide

/-- A rule without a given position is created and moved to the front, and the other is deleted. -/
def moveToFront : List OrderStep :=
  [.createRule someOperator ⟨6⟩ ⟨3⟩ allowAnyRequest,
    .begin 0 someOperator (.rulesOf ⟨3⟩) [⟨6⟩, ⟨5⟩], .statement 0, .statement 0, .commit 0,
    .deleteRule someOperator ⟨5⟩]

/-- The order stays determined. -/
theorem appended_rule_determined :
    Runs.Throughout (orderStep some) (fun state => state.db.Determined)
      ⟨editedFleet, fun _ => none⟩ moveToFront := by
  refine (apply_order_iff some editedFleet (by decide) _).1.mpr
    ⟨fun _ _ => nofun, trivial, trivial, trivial, ?_, trivial, trivial⟩
  -- The reordering writes every rule of the group.
  have hwritten : ∀ row ∈ (Runs.run (orderStep some) ⟨editedFleet, fun _ => none⟩
      (moveToFront.take 4)).db.rules.rows,
      Positions.lastWrite [((⟨6⟩ : Uuid), 0), (⟨5⟩, 1)] row.id ≠ none := by
    decide
  intro reorder hreorder _
  obtain rfl := Option.some.inj hreorder
  intro row hrow _ _ _ _ _ hnone _ _
  exact hwritten row hrow hnone

end Runs

end FirewallManager
