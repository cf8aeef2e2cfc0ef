import FirewallManager.Manager.ApplyOrder

/-!
# What a reordering does to the compiled policies

Reordering the groups of a set numbers its links, and reordering the rules of a group numbers its
rules. The compiled policy of a set is a query with an order by three columns, over tables that many
sets share, and rows that are equal in all three come in any order. `MayCompile` is the relation
between a database and the lists that the query may give.

A compiled list consists of blocks, the rules of one group each. `block_unique` says that a group
without ties has one block, and `reorder_exact` that the two handlers arrange the blocks and the
rules of a block as they are told, and change nothing else.
-/

namespace FirewallManager

open List

/-- The query of a set may give the rules: they are in apply order, and ties are in any order. -/
def Database.MayCompile (db : Database) (policySetId : Uuid) (rules : List StoredRule) : Prop :=
  ∃ rows : List (SetGroup × StoredRule), rows.Perm (db.joinedRules policySetId) ∧
    rows.Pairwise ApplyBefore ∧ rules = rows.map Prod.snd

/-- The links of a set. -/
def Database.linksOf (db : Database) (policySetId : Uuid) : List SetGroup :=
  db.setGroups.select fun link => decide (link.policySetId = policySetId)

/-- The ids of the groups of a set. -/
def Database.groupIds (db : Database) (policySetId : Uuid) : List Uuid :=
  (db.linksOf policySetId).map SetGroup.ruleGroupId

/-- The rules of a group. -/
def Database.rulesOf (db : Database) (groupId : Uuid) : List StoredRule :=
  db.rules.select fun rule => decide (rule.ruleGroupId = groupId)

/-- The ids of the rules of a group. -/
def Database.ruleIds (db : Database) (groupId : Uuid) : List Uuid :=
  (db.rulesOf groupId).map StoredRule.id

/-- No two rules of the group have the same position and the same priority. -/
def Database.TieFree (db : Database) (groupId : Uuid) : Prop :=
  ∀ rule ∈ db.rulesOf groupId, ∀ other ∈ db.rulesOf groupId,
    rule.groupOrder = other.groupOrder → rule.priority = other.priority → rule = other

instance (db : Database) (groupId : Uuid) : Decidable (db.TieFree groupId) :=
  inferInstanceAs (Decidable (∀ rule ∈ db.rulesOf groupId, ∀ other ∈ db.rulesOf groupId,
    rule.groupOrder = other.groupOrder → rule.priority = other.priority → rule = other))

/-- No two groups of the set have the same position. -/
def Database.GroupsApart (db : Database) (policySetId : Uuid) : Prop :=
  ∀ link ∈ db.linksOf policySetId, ∀ other ∈ db.linksOf policySetId,
    link.setGroupOrder = other.setGroupOrder → link = other

/-- The rules of a group in a compiled list. -/
def block (rules : List StoredRule) (groupId : Uuid) : List StoredRule :=
  rules.filter fun rule => rule.ruleGroupId = groupId

/-- The order within a group. -/
def GroupBefore (a b : StoredRule) : Prop :=
  a.groupOrder < b.groupOrder ∨ a.groupOrder = b.groupOrder ∧ a.priority ≤ b.priority

/-! ## Compiled lists -/

section Compiled

variable {db : Database} {set : Uuid} {rules : List StoredRule}

theorem Database.mem_linksOf {link : SetGroup} :
    link ∈ db.linksOf set ↔ link ∈ db.setGroups.rows ∧ link.policySetId = set := by
  rw [linksOf, Table.mem_select, decide_eq_true_eq]

theorem Database.mem_rulesOf {groupId : Uuid} {rule : StoredRule} :
    rule ∈ db.rulesOf groupId ↔ rule ∈ db.rules.rows ∧ rule.ruleGroupId = groupId := by
  rw [rulesOf, Table.mem_select, decide_eq_true_eq]

theorem Database.eq_of_linksOf {link other : SetGroup} (h : link ∈ db.linksOf set)
    (h' : other ∈ db.linksOf set) (hgroup : link.ruleGroupId = other.ruleGroupId) :
    link = other := by
  obtain ⟨hlink, hset⟩ := mem_linksOf.mp h
  obtain ⟨hother, hset'⟩ := mem_linksOf.mp h'
  exact Table.eq_of_key_eq hlink hother (Prod.ext (hset.trans hset'.symm) hgroup)

theorem Database.nodup_groupIds (db : Database) (set : Uuid) : (db.groupIds set).Nodup := by
  have hlinks : (db.linksOf set).Nodup := db.setGroups.nodup.of_map.filter _
  exact hlinks.map_on fun link hlink other hother hgroup => eq_of_linksOf hlink hother hgroup

theorem Database.nodup_ruleIds (db : Database) (groupId : Uuid) : (db.ruleIds groupId).Nodup :=
  db.rules.nodup.sublist (filter_sublist.map StoredRule.id)

theorem Database.nodup_joinedRules (db : Database) (set : Uuid) :
    ((db.joinedRules set).map Prod.snd).Nodup := by
  have hjoined : (db.joinedRules set).map Prod.snd =
      (db.groupIds set).flatMap fun groupId => db.rulesOf groupId := by
    rw [joinedRules, map_flatMap, groupIds, flatMap_map]
    refine flatMap_congr ?_
    intro link _
    rw [map_map]
    exact map_id _
  rw [hjoined, nodup_flatMap]
  refine ⟨fun groupId _ => db.rules.nodup.of_map.filter _, ?_⟩
  refine (db.nodup_groupIds set).imp ?_
  intro first second hne rule hfirst hsecond
  exact hne ((mem_rulesOf.mp hfirst).2.symm.trans (mem_rulesOf.mp hsecond).2)

theorem Database.mayCompile_compiledRules (db : Database) (set : Uuid) :
    db.MayCompile set (db.compiledRules set) :=
  ⟨(db.joinedRules set).insertionSort ApplyBefore, perm_insertionSort _ _,
    pairwise_insertionSort _ _, rfl⟩

namespace Database.MayCompile

variable (h : db.MayCompile set rules)

include h

theorem nodup : rules.Nodup := by
  obtain ⟨rows, hrows, -, rfl⟩ := h
  exact ((hrows.map Prod.snd).nodup_iff).mpr (db.nodup_joinedRules set)

theorem mem_iff {rule : StoredRule} :
    rule ∈ rules ↔ rule ∈ db.rules.rows ∧ rule.ruleGroupId ∈ db.groupIds set := by
  obtain ⟨rows, hrows, -, rfl⟩ := h
  rw [(hrows.map Prod.snd).mem_iff, mem_map]
  constructor
  · rintro ⟨row, hrow, rfl⟩
    obtain ⟨hlink, hrule, hgroup⟩ := mem_joinedRules.mp hrow
    exact ⟨hrule, mem_map.mpr ⟨row.1, mem_linksOf.mpr hlink, hgroup.symm⟩⟩
  · rintro ⟨hrule, hgroup⟩
    obtain ⟨link, hlink, hsame⟩ := mem_map.mp hgroup
    exact ⟨(link, rule), mem_joinedRules.mpr ⟨mem_linksOf.mp hlink, hrule, hsame.symm⟩, rfl⟩

theorem block_perm {groupId : Uuid} (hgroup : groupId ∈ db.groupIds set) :
    (block rules groupId).Perm (db.rulesOf groupId) := by
  refine (perm_ext_iff_of_nodup (h.nodup.filter _) (db.rules.nodup.of_map.filter _)).mpr ?_
  intro rule
  rw [mem_filter, decide_eq_true_eq, h.mem_iff]
  constructor
  · rintro ⟨⟨hrule, -⟩, hsame⟩
    exact mem_rulesOf.mpr ⟨hrule, hsame⟩
  · intro hmem
    obtain ⟨hrule, hsame⟩ := mem_rulesOf.mp hmem
    exact ⟨⟨hrule, hsame ▸ hgroup⟩, hsame⟩

theorem block_eq_nil {groupId : Uuid} (hgroup : groupId ∉ db.groupIds set) :
    block rules groupId = [] := by
  rw [block, filter_eq_nil_iff]
  intro rule hrule hsame
  rw [decide_eq_true_eq] at hsame
  exact hgroup (hsame ▸ (h.mem_iff.mp hrule).2)

theorem block_sorted (groupId : Uuid) : (block rules groupId).Pairwise GroupBefore := by
  obtain ⟨rows, hrows, hsorted, rfl⟩ := h
  rw [block, filter_map, pairwise_map]
  refine (hsorted.filter _).imp_of_mem ?_
  intro a b ha hb hbefore
  obtain ⟨ha', hagroup⟩ := mem_filter.mp ha
  obtain ⟨hb', hbgroup⟩ := mem_filter.mp hb
  obtain ⟨halink, -, hasame⟩ := mem_joinedRules.mp (hrows.mem_iff.mp ha')
  obtain ⟨hblink, -, hbsame⟩ := mem_joinedRules.mp (hrows.mem_iff.mp hb')
  have hgroup : a.1.ruleGroupId = b.1.ruleGroupId := by
    rw [← hasame, ← hbsame]
    exact (of_decide_eq_true hagroup).trans (of_decide_eq_true hbgroup).symm
  have hlink : a.1 = b.1 :=
    eq_of_linksOf (mem_linksOf.mpr halink) (mem_linksOf.mpr hblink) hgroup
  unfold ApplyBefore at hbefore
  rw [hlink] at hbefore
  unfold GroupBefore
  omega

theorem eq_flatMap {order : List Uuid} {rank : Uuid → Int}
    (horder : order.Pairwise fun a b => rank a < rank b)
    (hmem : ∀ groupId ∈ db.groupIds set, groupId ∈ order)
    (hrank : ∀ link ∈ db.linksOf set, link.setGroupOrder = rank link.ruleGroupId) :
    rules = order.flatMap (block rules) := by
  refine eq_flatMap_blocks horder (fun rule hrule => hmem _ (h.mem_iff.mp hrule).2) ?_
  obtain ⟨rows, hrows, hsorted, rfl⟩ := h
  rw [pairwise_map]
  refine hsorted.imp_of_mem ?_
  intro a b ha hb hbefore
  obtain ⟨halink, -, hasame⟩ := mem_joinedRules.mp (hrows.mem_iff.mp ha)
  obtain ⟨hblink, -, hbsame⟩ := mem_joinedRules.mp (hrows.mem_iff.mp hb)
  rw [hasame, hbsame, ← hrank _ (mem_linksOf.mpr halink), ← hrank _ (mem_linksOf.mpr hblink)]
  unfold ApplyBefore at hbefore
  omega

end Database.MayCompile

theorem block_unique {db' : Database} {set' groupId : Uuid} {rules' : List StoredRule}
    (h : db.MayCompile set rules) (h' : db'.MayCompile set' rules')
    (hgroup : groupId ∈ db.groupIds set) (hgroup' : groupId ∈ db'.groupIds set')
    (hsame : db'.rulesOf groupId = db.rulesOf groupId) (hfree : db.TieFree groupId) :
    block rules' groupId = block rules groupId := by
  have hperm : (block rules' groupId).Perm (db.rulesOf groupId) := by
    rw [← hsame]
    exact h'.block_perm hgroup'
  refine List.Perm.eq_of_pairwise ?_ (h'.block_sorted groupId) (h.block_sorted groupId)
    (hperm.trans (h.block_perm hgroup).symm)
  intro a b ha hb hab hba
  unfold GroupBefore at hab hba
  refine hfree a (hperm.mem_iff.mp ha) b ((h.block_perm hgroup).mem_iff.mp hb) ?_ ?_ <;> omega

end Compiled

/-! ## The two handlers -/

/-- What a reordering of the groups of a set does: the compiled list is the concatenation of the
blocks it had, in the order of the ids, and the other sets may compile to what they could before. -/
structure GroupsReordered (before after : Database) (set : Uuid) (ids : List Uuid) : Prop where
  concatenated : ∀ rules rules', before.MayCompile set rules → after.MayCompile set rules' →
    rules' = ids.flatMap (block rules)
  others : ∀ other, other ≠ set →
    after.rulesForPolicySet other = before.rulesForPolicySet other ∧
      ∀ rules, after.MayCompile other rules ↔ before.MayCompile other rules

/-- What a reordering of the rules of a group does: in every set with the group its block is in the
order of the ids, the blocks of other groups are as before, and the blocks stay in their places. The
other sets may compile to what they could before. -/
structure RulesReordered (before after : Database) (group : Uuid) (ids : List Uuid) : Prop where
  ordered : ∀ set rules', group ∈ before.groupIds set → after.MayCompile set rules' →
    (block rules' group).map StoredRule.toModel =
      ids.filterMap fun id => (before.rules.find? id).map StoredRule.toModel
  others : ∀ set rules rules', before.MayCompile set rules → after.MayCompile set rules' →
    ∀ other, other ≠ group → before.TieFree other → block rules' other = block rules other
  places : ∀ set, before.GroupsApart set → ∃ order : List Uuid,
    order.Perm (before.groupIds set) ∧
      (∀ rules, before.MayCompile set rules → rules = order.flatMap (block rules)) ∧
      ∀ rules', after.MayCompile set rules' → rules' = order.flatMap (block rules')
  unaffected : ∀ set, group ∉ before.groupIds set →
    after.rulesForPolicySet set = before.rulesForPolicySet set ∧
      ∀ rules, after.MayCompile set rules ↔ before.MayCompile set rules

section Handlers

variable {user : AuthUser} {db : Database} {ids : List Uuid}

theorem same_of_joinedRules {before after : Database} {set : Uuid}
    (h : after.joinedRules set = before.joinedRules set) :
    after.rulesForPolicySet set = before.rulesForPolicySet set ∧
      ∀ rules, after.MayCompile set rules ↔ before.MayCompile set rules := by
  have hcompiled : after.compiledRules set = before.compiledRules set := by
    show ((after.joinedRules set).insertionSort ApplyBefore).map Prod.snd = _
    rw [h]
    rfl
  refine ⟨?_, fun rules => ?_⟩
  · rw [Database.rulesForPolicySet, hcompiled]
    rfl
  · rw [Database.MayCompile, h]
    rfl

theorem reorderGroups_tables (hwrite : user.role.canWrite = true) (set : Uuid) (ids : List Uuid)
    (db : Database) :
    (PolicySets.reorderGroups user set ids db).2.setGroups.rows = db.setGroups.rows.map
        (groupPositions.moved (groupPositions.targetOf set ids.zipIdx)) ∧
      (PolicySets.reorderGroups user set ids db).2.rules = db.rules := by
  rw [PolicySets.reorderGroups, requireWrite_of_canWrite hwrite]
  exact setGroupPosition_writes set ids.zipIdx db

theorem reorderGroupRules_tables (hwrite : user.role.canWrite = true) (group : Uuid)
    (ids : List Uuid) (db : Database) :
    (RuleGroups.reorderGroupRules user group ids db).2.rules.rows = db.rules.rows.map
        (rulePositions.moved (rulePositions.targetOf group ids.zipIdx)) ∧
      (RuleGroups.reorderGroupRules user group ids db).2.setGroups = db.setGroups := by
  rw [RuleGroups.reorderGroupRules, requireWrite_of_canWrite hwrite]
  exact setRuleOrder_writes group ids.zipIdx db

theorem groupsReordered (hwrite : user.role.canWrite = true) {set : Uuid}
    (hids : ids.Perm (db.groupIds set)) (hfree : ∀ groupId ∈ db.groupIds set, db.TieFree groupId) :
    GroupsReordered db (PolicySets.reorderGroups user set ids db).2 set ids := by
  obtain ⟨hlinks, hrules⟩ := reorderGroups_tables hwrite set ids db
  generalize (PolicySets.reorderGroups user set ids db).2 = after at hlinks hrules
  have hnodup : ids.Nodup := hids.nodup_iff.mpr (db.nodup_groupIds set)
  have hgroups : after.groupIds set = db.groupIds set := by
    rw [Database.groupIds, Database.linksOf, Table.select, hlinks]
    exact Positions.map_member_filter_moved (P := groupPositions) _ set db.setGroups.rows
  have hplaces : ∀ link ∈ after.linksOf set,
      link.setGroupOrder = Positions.rank ids link.ruleGroupId := by
    intro link hlink
    rw [Database.linksOf, Table.select, hlinks] at hlink
    refine (Positions.position_numbered (P := groupPositions) hnodup ?_ hlink).2
    intro row hrow howner
    exact hids.mem_iff.mpr (mem_map_of_mem (Database.mem_linksOf.mpr ⟨hrow, howner⟩))
  constructor
  · intro rules rules' hbefore hafter
    have hup : ids.Pairwise fun a b =>
        (Positions.rank ids a : Int) < (Positions.rank ids b : Int) :=
      (Positions.pairwise_rank hnodup).imp fun hlt => Int.ofNat_lt.mpr hlt
    have hblocks : rules' = ids.flatMap (block rules') := by
      refine hafter.eq_flatMap hup ?_ hplaces
      intro groupId hgroup
      exact hids.mem_iff.mpr (hgroups ▸ hgroup)
    have hsame : ids.flatMap (block rules') = ids.flatMap (block rules) := by
      refine flatMap_congr ?_
      intro groupId hid
      have hgroup := hids.mem_iff.mp hid
      refine block_unique hbefore hafter hgroup (hgroups ▸ hgroup) ?_ (hfree groupId hgroup)
      rw [Database.rulesOf, hrules]
      rfl
    exact hblocks.trans hsame
  · intro other hne
    refine same_of_joinedRules ?_
    have hselect : (after.setGroups.select fun link => decide (link.policySetId = other)) =
        db.setGroups.select fun link => decide (link.policySetId = other) := by
      rw [Table.select, hlinks]
      exact Positions.filter_moved_of_ne (P := groupPositions) hne ids.zipIdx db.setGroups.rows
    rw [Database.joinedRules, hselect, hrules]
    rfl

theorem find?_moved {after : Database} {target : StoredRule → Option Int}
    (hrules : after.rules.rows = db.rules.rows.map (rulePositions.moved target))
    {rule : StoredRule} (hrule : rule ∈ after.rules.rows) :
    (db.rules.find? rule.id).map StoredRule.toModel = some rule.toModel := by
  rw [hrules] at hrule
  obtain ⟨old, hold, rfl⟩ := mem_map.mp hrule
  have hid : (rulePositions.moved target old).id = old.id :=
    Positions.member_moved (P := rulePositions) target old
  rw [hid, Table.find?_eq_some_iff.mpr ⟨hold, rfl⟩, Option.map_some]
  unfold Positions.moved
  split
  next => rfl
  next => rfl

theorem block_reordered {after : Database} {set group : Uuid} {rules' : List StoredRule}
    (hids : ids.Perm (db.ruleIds group))
    (hrules : after.rules.rows = db.rules.rows.map
      (rulePositions.moved (rulePositions.targetOf group ids.zipIdx)))
    (hgroup : group ∈ after.groupIds set) (hafter : after.MayCompile set rules') :
    (block rules' group).map StoredRule.toModel =
      ids.filterMap fun id => (db.rules.find? id).map StoredRule.toModel := by
  have hnodup : ids.Nodup := hids.nodup_iff.mpr (db.nodup_ruleIds group)
  have hperm := hafter.block_perm hgroup
  have hplace (rule : StoredRule) (hrule : rule ∈ block rules' group) :
      rule.id ∈ ids ∧ rule.groupOrder = Positions.rank ids rule.id := by
    have hmoved := hperm.mem_iff.mp hrule
    rw [Database.rulesOf, Table.select, hrules] at hmoved
    refine Positions.position_numbered (P := rulePositions) hnodup ?_ hmoved
    intro row hrow howner
    exact hids.mem_iff.mpr (mem_map_of_mem (Database.mem_rulesOf.mpr ⟨hrow, howner⟩))
  have hmembers : (after.rulesOf group).map StoredRule.id = db.ruleIds group := by
    rw [Database.rulesOf, Table.select, hrules]
    exact Positions.map_member_filter_moved (P := rulePositions) _ group db.rules.rows
  have hsorted : ((block rules' group).map StoredRule.id).Pairwise fun a b =>
      Positions.rank ids a ≤ Positions.rank ids b := by
    rw [pairwise_map]
    refine (hafter.block_sorted group).imp_of_mem ?_
    intro a b ha hb hbefore
    have haorder := (hplace a ha).2
    have hborder := (hplace b hb).2
    unfold GroupBefore at hbefore
    omega
  have horder : (block rules' group).map StoredRule.id = ids := by
    refine List.Perm.eq_of_pairwise ?_ hsorted ((Positions.pairwise_rank hnodup).imp le_of_lt) ?_
    · intro a b ha hb hab hba
      obtain ⟨rule, hrule, rfl⟩ := mem_map.mp ha
      exact Positions.rank_inj hnodup (hplace rule hrule).1 hb (Nat.le_antisymm hab hba)
    · have hmapped := hperm.map StoredRule.id
      rw [hmembers] at hmapped
      exact hmapped.trans hids.symm
  calc (block rules' group).map StoredRule.toModel
      = (block rules' group).filterMap fun rule =>
          (db.rules.find? rule.id).map StoredRule.toModel := by
        rw [← filterMap_eq_map]
        refine (filterMap_congr fun rule hrule => ?_).symm
        exact find?_moved hrules (Database.mem_rulesOf.mp (hperm.mem_iff.mp hrule)).1
    _ = ((block rules' group).map StoredRule.id).filterMap fun id =>
          (db.rules.find? id).map StoredRule.toModel := by
        rw [filterMap_map]
        rfl
    _ = ids.filterMap fun id => (db.rules.find? id).map StoredRule.toModel := by
        rw [horder]

/-- The order of the positions of links. -/
def LinkBefore (a b : SetGroup) : Prop :=
  a.setGroupOrder ≤ b.setGroupOrder

instance : DecidableRel LinkBefore :=
  fun a b => inferInstanceAs (Decidable (a.setGroupOrder ≤ b.setGroupOrder))

instance : Std.Total LinkBefore where
  total a b := Int.le_total a.setGroupOrder b.setGroupOrder

instance : IsTrans SetGroup LinkBefore where
  trans _ _ _ := Int.le_trans

/-- The position of a group in a set. -/
def Database.groupPosition (db : Database) (set groupId : Uuid) : Int :=
  ((db.setGroups.find? (set, groupId)).map SetGroup.setGroupOrder).getD 0

theorem exists_order {set : Uuid} (hapart : db.GroupsApart set) :
    ∃ order : List Uuid, order.Perm (db.groupIds set) ∧
      ∀ after : Database, after.setGroups = db.setGroups →
        ∀ rules, after.MayCompile set rules → rules = order.flatMap (block rules) := by
  obtain ⟨sorted, hperm, hsorted⟩ : ∃ sorted : List SetGroup,
      sorted.Perm (db.linksOf set) ∧ sorted.Pairwise LinkBefore :=
    ⟨_, perm_insertionSort _ _, pairwise_insertionSort _ _⟩
  refine ⟨sorted.map SetGroup.ruleGroupId, hperm.map _, ?_⟩
  intro after hlinks rules hafter
  have hsame : after.linksOf set = db.linksOf set := by
    rw [Database.linksOf, hlinks]
    rfl
  have hposition : ∀ link ∈ db.linksOf set,
      link.setGroupOrder = db.groupPosition set link.ruleGroupId := by
    intro link hlink
    obtain ⟨hrow, hset⟩ := Database.mem_linksOf.mp hlink
    rw [← hset, Database.groupPosition, Table.find?_eq_some_iff.mpr ⟨hrow, rfl⟩]
    rfl
  have hup : (sorted.map SetGroup.ruleGroupId).Pairwise
      fun a b => db.groupPosition set a < db.groupPosition set b := by
    have hnodup : sorted.Nodup := hperm.nodup_iff.mpr (db.setGroups.nodup.of_map.filter _)
    rw [pairwise_map]
    refine (hsorted.and hnodup).imp_of_mem ?_
    intro a b ha hb hboth
    have ha' := hperm.mem_iff.mp ha
    have hb' := hperm.mem_iff.mp hb
    rw [← hposition a ha', ← hposition b hb']
    have hne : a.setGroupOrder ≠ b.setGroupOrder := fun heq => hboth.2 (hapart a ha' b hb' heq)
    have hle : a.setGroupOrder ≤ b.setGroupOrder := hboth.1
    omega
  refine hafter.eq_flatMap hup ?_ ?_
  · intro groupId hgroup
    rw [Database.groupIds, hsame] at hgroup
    exact (hperm.map SetGroup.ruleGroupId).mem_iff.mpr hgroup
  · intro link hlink
    rw [hsame] at hlink
    exact hposition link hlink

theorem rulesReordered (hwrite : user.role.canWrite = true) {group : Uuid}
    (hids : ids.Perm (db.ruleIds group)) :
    RulesReordered db (RuleGroups.reorderGroupRules user group ids db).2 group ids := by
  obtain ⟨hrules, hlinks⟩ := reorderGroupRules_tables hwrite group ids db
  generalize (RuleGroups.reorderGroupRules user group ids db).2 = after at hrules hlinks
  have hgroups (set : Uuid) : after.groupIds set = db.groupIds set := by
    rw [Database.groupIds, Database.linksOf, hlinks]
    rfl
  have hother {other : Uuid} (hne : other ≠ group) : after.rulesOf other = db.rulesOf other := by
    rw [Database.rulesOf, Table.select, hrules]
    exact Positions.filter_moved_of_ne (P := rulePositions) hne ids.zipIdx db.rules.rows
  constructor
  · intro set rules' hgroup hafter
    exact block_reordered hids hrules ((hgroups set).symm ▸ hgroup) hafter
  · intro set rules rules' hbefore hafter other hne hfree
    by_cases hgroup : other ∈ db.groupIds set
    · exact block_unique hbefore hafter hgroup ((hgroups set).symm ▸ hgroup) (hother hne) hfree
    · have hgroup' : other ∉ after.groupIds set := (hgroups set).symm ▸ hgroup
      rw [hbefore.block_eq_nil hgroup, hafter.block_eq_nil hgroup']
  · intro set hapart
    obtain ⟨order, hperm, hall⟩ := exists_order hapart
    exact ⟨order, hperm, hall db rfl, hall after hlinks⟩
  · intro set hgroup
    refine same_of_joinedRules ?_
    rw [Database.joinedRules, hlinks]
    refine flatMap_congr ?_
    intro link hlink
    have hne : link.ruleGroupId ≠ group := by
      intro hsame
      exact hgroup (mem_map.mpr ⟨link, hlink, hsame⟩)
    exact congrArg _ (hother hne)

end Handlers

/-- **A reordering does what it says.** A user who may write reorders the groups of a set without
ties by all their ids: every list that the set may compile to is then the concatenation of the
blocks of the list before, in the given order, and the other sets are as before. Reordering the
rules of a group puts its block in the given order in every set that has it, and leaves all other
blocks. The compiled policy of the model is one of the lists. -/
theorem reorder_exact (user : AuthUser) (hwrite : user.role.canWrite = true) (db : Database) :
    (∀ set, db.MayCompile set (db.compiledRules set)) ∧
      (∀ set ids, ids.Perm (db.groupIds set) →
        (∀ groupId ∈ db.groupIds set, db.TieFree groupId) →
          GroupsReordered db (PolicySets.reorderGroups user set ids db).2 set ids) ∧
      ∀ group ids, ids.Perm (db.ruleIds group) →
        RulesReordered db (RuleGroups.reorderGroupRules user group ids db).2 group ids :=
  ⟨db.mayCompile_compiledRules, fun _ _ hids hfree => groupsReordered hwrite hids hfree,
    fun _ _ hids => rulesReordered hwrite hids⟩

/-- A set with two groups, the first of two rules. -/
def stackedFleet : Database :=
  { editedFleet with
    rules := ((Table.singleton insideRule).insertNew
      { insideRule with id := ⟨6⟩, groupOrder := 1 }).insertNew
      { insideRule with id := ⟨8⟩, ruleGroupId := ⟨7⟩ }
    setGroups := (Table.singleton ⟨⟨4⟩, ⟨3⟩, 0⟩).insertNew ⟨⟨4⟩, ⟨7⟩, 1⟩ }

/-- The second group first, and then the rules of the other one the other way around. -/
theorem fleet_reordered :
    (stackedFleet.compiledRules ⟨4⟩).map StoredRule.id = [⟨5⟩, ⟨6⟩, ⟨8⟩] ∧
      (PolicySets.reorderGroups someOperator ⟨4⟩ [⟨7⟩, ⟨3⟩] stackedFleet).2.compiledRules ⟨4⟩ =
        [⟨7⟩, ⟨3⟩].flatMap (block (stackedFleet.compiledRules ⟨4⟩)) ∧
      (block ((RuleGroups.reorderGroupRules someOperator ⟨3⟩ [⟨6⟩, ⟨5⟩]
          stackedFleet).2.compiledRules ⟨4⟩) ⟨3⟩).map StoredRule.toModel =
        [⟨6⟩, ⟨5⟩].filterMap fun id => (stackedFleet.rules.find? id).map StoredRule.toModel := by
  obtain ⟨hcompiled, hgroups, hrules⟩ := reorder_exact someOperator rfl stackedFleet
  have hafter := (reorder_exact someOperator rfl
    (PolicySets.reorderGroups someOperator ⟨4⟩ [⟨7⟩, ⟨3⟩] stackedFleet).2).1 ⟨4⟩
  have hafter' := (reorder_exact someOperator rfl
    (RuleGroups.reorderGroupRules someOperator ⟨3⟩ [⟨6⟩, ⟨5⟩] stackedFleet).2).1 ⟨4⟩
  refine ⟨by decide, ?_, ?_⟩
  · exact (hgroups ⟨4⟩ [⟨7⟩, ⟨3⟩] (by decide) (by decide)).concatenated _ _ (hcompiled ⟨4⟩) hafter
  · exact (hrules ⟨3⟩ [⟨6⟩, ⟨5⟩] (by decide)).ordered ⟨4⟩ _ (by decide) hafter'

end FirewallManager
