import FirewallManager.Manager.RuleEdit
import FirewallManager.Lib.Lists

/-!
# The migration to rule groups

Migration 033 replaces the direct attachment of rules to policy sets by rule groups. It goes over
the sets in the order of their creation, makes a group for each set that has rules, and goes over
the rules of the set. A rule that no set has taken before is moved into the group, and another one
is copied into it under a new name. Rules without a set go to a group of their own.

`Placed` says where the rules are after some of the attachments, and `Migrated` what the tables are
after some of the sets. `placed_step` is one round of the inner loop, `migrated_step` one of the
outer loop, and `migrate_finished` the whole migration.
-/

namespace FirewallManager

open List

namespace GroupMigration

/-- The columns of `firewall_rules` that both schemas have, except the id. -/
structure RuleColumns where
  form : RuleForm
  createdBy : Option Uuid
  createdAt : Nat
  updatedAt : Nat
  deriving DecidableEq

/-- The columns under another name. -/
def RuleColumns.named (columns : RuleColumns) (name : String) : RuleColumns :=
  { columns with form := { columns.form with name := name } }

/-- A row of `firewall_rules` before the migration. -/
structure OldRule where
  id : Uuid
  columns : RuleColumns
  deriving DecidableEq

/-- A row of `firewall_policy_sets`, as far as the migration reads it. -/
structure OldSet where
  id : Uuid
  name : String
  createdAt : Nat
  deriving DecidableEq

/-- A row of `firewall_policy_set_rules`. -/
structure SetRule where
  policySetId : Uuid
  ruleId : Uuid
  ruleOrder : Int
  deriving DecidableEq

/-- The tables before the migration, with their unique names and foreign keys. -/
structure OldDatabase where
  policySets : Table OldSet.id
  rules : Table OldRule.id
  setRules : Table fun row : SetRule => (row.policySetId, row.ruleId)
  names_nodup : (rules.rows.map fun row => row.columns.form.name).Nodup
  sets_exist : ∀ link ∈ setRules.rows, ∃ set ∈ policySets.rows, set.id = link.policySetId
  rules_exist : ∀ link ∈ setRules.rows, ∃ rule ∈ rules.rows, rule.id = link.ruleId

/-- A row of `firewall_rules` with the new columns. The group may be absent until the end of the
migration. -/
structure NewRule where
  id : Uuid
  columns : RuleColumns
  ruleGroupId : Option Uuid
  groupOrder : Int
  deriving DecidableEq

/-- The tables that the migration writes. -/
structure NewDatabase where
  rules : Table NewRule.id
  ruleGroups : Table RuleGroup.id
  setGroups : Table fun row : SetGroup => (row.policySetId, row.ruleGroupId)

/-- What `gen_random_uuid` gives: the id of the group without a set, that of the group of a set, and
the id of the copy for an attachment and the UUID from which its name is made. -/
structure Draws where
  unassigned : Uuid
  group : Uuid → Uuid
  copy : SetRule → Uuid
  suffix : SetRule → Uuid

/-- The name of a copy. -/
def copyName (name : String) (drawn : Uuid) : String :=
  name ++ " (copy " ++ String.ofList (drawn.text.toList.take 8) ++ ")"

/-! ## The statements -/

/-- The attachments of a set, in their order. -/
def OldDatabase.links (old : OldDatabase) (policySetId : Uuid) : List SetRule :=
  (old.setRules.select fun link => decide (link.policySetId = policySetId)).insertionSort
    fun a b => a.ruleOrder ≤ b.ruleOrder

/-- The rules that no set has. -/
def OldDatabase.unattached (old : OldDatabase) : List OldRule :=
  old.rules.select fun rule => decide (∀ link ∈ old.setRules.rows, link.ruleId ≠ rule.id)

/-- Insert a rule. Its name and its id have to be free. -/
def NewDatabase.insertRule (db : NewDatabase) (row : NewRule) : Option NewDatabase :=
  if db.rules.rows.any fun other => decide (other.columns.form.name = row.columns.form.name) then
    none
  else (db.rules.insert? row).map fun rules => { db with rules := rules }

/-- Insert a group. -/
def NewDatabase.insertGroup (db : NewDatabase) (group : RuleGroup) : Option NewDatabase :=
  (db.ruleGroups.insert? group).map fun ruleGroups => { db with ruleGroups := ruleGroups }

/-- Add a group to a set. -/
def NewDatabase.insertSetGroup (db : NewDatabase) (row : SetGroup) : Option NewDatabase :=
  (db.setGroups.insert? row).map fun setGroups => { db with setGroups := setGroups }

/-- Move the rule with the id into a group. -/
def NewDatabase.claim (db : NewDatabase) (group : Uuid) (link : SetRule) : NewDatabase :=
  { db with
    rules := db.rules.update (fun row => decide (row.id = link.ruleId))
      (fun row => { row with ruleGroupId := some group, groupOrder := link.ruleOrder })
      fun _ => rfl }

/-- One round of the inner loop: move the rule of the attachment, or copy it. -/
def migrateRule (draws : Draws) (group : Uuid) (db : NewDatabase) (link : SetRule) :
    Option NewDatabase :=
  if db.rules.rows.any fun row => decide (row.id = link.ruleId ∧ row.ruleGroupId = none) then
    some (db.claim group link)
  else
    match db.rules.find? link.ruleId with
    | none => some db
    | some row =>
      db.insertRule {
        id := draws.copy link
        columns := row.columns.named (copyName row.columns.form.name (draws.suffix link))
        ruleGroupId := some group
        groupOrder := link.ruleOrder }

/-- The group that a set gets. -/
def OldSet.autoGroup (set : OldSet) (draws : Draws) : RuleGroup :=
  ⟨draws.group set.id, set.name ++ " (auto)", "Migrated from direct policy-set rules"⟩

/-- One round of the outer loop. A set without rules is skipped. -/
def migrateSet (draws : Draws) (old : OldDatabase) (db : NewDatabase) (set : OldSet) :
    Option NewDatabase :=
  if old.links set.id = [] then some db
  else do
    let db ← db.insertGroup (set.autoGroup draws)
    let db ← (old.links set.id).foldlM (migrateRule draws (draws.group set.id)) db
    db.insertSetGroup ⟨set.id, draws.group set.id, 0⟩

/-- A rule with the new columns at their defaults. -/
def OldRule.start (rule : OldRule) : NewRule where
  id := rule.id
  columns := rule.columns
  ruleGroupId := none
  groupOrder := 0

/-- The tables when the data migration starts. -/
def OldDatabase.start (old : OldDatabase) : NewDatabase where
  rules := {
    rows := old.rules.rows.map OldRule.start
    nodup := by
      rw [map_map]
      exact old.rules.nodup }
  ruleGroups := .empty
  setGroups := .empty

/-- Move the rules without a group into one. -/
def NewDatabase.assignRest (db : NewDatabase) (group : Uuid) : NewDatabase :=
  { db with
    rules := db.rules.update (fun row => decide (row.ruleGroupId = none))
      (fun row => { row with ruleGroupId := some group }) fun _ => rfl }

/-- The group for the rules without a set, if there are such rules. -/
def OldDatabase.withUnassigned (old : OldDatabase) (draws : Draws) : Option NewDatabase :=
  if old.unattached = [] then some old.start
  else
    old.start.insertGroup
      ⟨draws.unassigned, "Unassigned rules (auto)", "Rules with no policy set at migration"⟩

/-- The sets in the order of their creation. -/
def OldDatabase.sets (old : OldDatabase) : List OldSet :=
  old.policySets.rows.insertionSort fun a b => a.createdAt ≤ b.createdAt

/-- The data migration. It fails if an insert violates a constraint, or if a rule is left without a
group when the column becomes `NOT NULL`. -/
def migrate (draws : Draws) (old : OldDatabase) : Option NewDatabase := do
  let db ← old.withUnassigned draws
  let db ← old.sets.foldlM (migrateSet draws old) db
  let db := if old.unattached = [] then db else db.assignRest draws.unassigned
  if db.rules.rows.all fun row => row.ruleGroupId.isSome then some db else none

/-- The drawn ids and the names of the copies are new. -/
structure Draws.Fresh (draws : Draws) (old : OldDatabase) : Prop where
  group_inj : ∀ set ∈ old.policySets.rows, ∀ other ∈ old.policySets.rows,
    draws.group set.id = draws.group other.id → set = other
  group_ne : ∀ set ∈ old.policySets.rows, draws.group set.id ≠ draws.unassigned
  copy_inj : ∀ link ∈ old.setRules.rows, ∀ other ∈ old.setRules.rows,
    draws.copy link = draws.copy other → link = other
  copy_ne : ∀ link ∈ old.setRules.rows, ∀ rule ∈ old.rules.rows, draws.copy link ≠ rule.id
  name_inj : ∀ link ∈ old.setRules.rows, ∀ other ∈ old.setRules.rows,
    ∀ rule ∈ old.rules.rows, ∀ rule' ∈ old.rules.rows,
      rule.id = link.ruleId → rule'.id = other.ruleId →
        copyName rule.columns.form.name (draws.suffix link) =
          copyName rule'.columns.form.name (draws.suffix other) → link = other
  name_ne : ∀ link ∈ old.setRules.rows, ∀ rule ∈ old.rules.rows, rule.id = link.ruleId →
    ∀ other ∈ old.rules.rows,
      copyName rule.columns.form.name (draws.suffix link) ≠ other.columns.form.name

/-! ## Where the rules are -/

/-- The rule, moved into the group of the attachment's set. -/
def OldRule.moved (rule : OldRule) (draws : Draws) (link : SetRule) : NewRule where
  id := rule.id
  columns := rule.columns
  ruleGroupId := some (draws.group link.policySetId)
  groupOrder := link.ruleOrder

/-- The copy of the rule in the group of the attachment's set. -/
def OldRule.copied (rule : OldRule) (draws : Draws) (link : SetRule) : NewRule where
  id := draws.copy link
  columns := rule.columns.named (copyName rule.columns.form.name (draws.suffix link))
  ruleGroupId := some (draws.group link.policySetId)
  groupOrder := link.ruleOrder

/-- The row that the migration makes of an attachment. -/
def MadeOf (draws : Draws) (old : OldDatabase) (link : SetRule) (row : NewRule) : Prop :=
  ∃ rule ∈ old.rules.rows,
    rule.id = link.ruleId ∧ (row = rule.moved draws link ∨ row = rule.copied draws link)

/-- The rules that the attachments do not use. -/
def OldDatabase.others (old : OldDatabase) (done : List SetRule) : List OldRule :=
  old.rules.select fun rule => decide (rule.id ∉ done.map SetRule.ruleId)

/-- Where the rules are when the attachments `done` have been gone over: each attachment has its
row, a used rule has been moved, and the other rules are as they were. -/
structure Placed (draws : Draws) (old : OldDatabase) (done : List SetRule)
    (rules : Table NewRule.id) : Prop where
  rows : ∃ made, List.Forall₂ (MadeOf draws old) done made ∧
    rules.rows.Perm (made ++ (old.others done).map OldRule.start)
  used : ∀ rule ∈ old.rules.rows, rule.id ∈ done.map SetRule.ruleId →
    ∃ link ∈ done, link.ruleId = rule.id ∧ rule.moved draws link ∈ rules.rows

variable {old : OldDatabase} {done : List SetRule}

theorem OldDatabase.mem_others {rule : OldRule} :
    rule ∈ old.others done ↔ rule ∈ old.rules.rows ∧ rule.id ∉ done.map SetRule.ruleId := by
  rw [others, Table.mem_select, decide_eq_true_iff]

theorem placed_start (draws : Draws) (old : OldDatabase) :
    Placed draws old [] old.start.rules where
  rows := by
    refine ⟨[], .nil, ?_⟩
    have hall : old.others [] = old.rules.rows :=
      filter_eq_self.mpr fun rule _ => decide_eq_true not_mem_nil
    rw [hall]
    exact List.Perm.refl _
  used := fun rule _ hmem => absurd hmem not_mem_nil

variable {draws : Draws}

theorem Placed.row_cases {rules : Table NewRule.id} (h : Placed draws old done rules)
    {row : NewRule} (hrow : row ∈ rules.rows) :
    (∃ link ∈ done, MadeOf draws old link row) ∨
      ∃ rule ∈ old.others done, row = rule.start := by
  obtain ⟨made, hmade, hperm⟩ := h.rows
  rcases mem_append.mp (hperm.mem_iff.mp hrow) with hmem | hmem
  · exact .inl (Lists.exists_of_forall₂ hmade hmem)
  · obtain ⟨rule, hrule, rfl⟩ := mem_map.mp hmem
    exact .inr ⟨rule, hrule, rfl⟩

variable {link : SetRule}

/-- One more attachment of a rule that has been used. -/
theorem OldDatabase.others_concat_of_mem (h : link.ruleId ∈ done.map SetRule.ruleId) :
    old.others (done ++ [link]) = old.others done := by
  refine filter_congr fun rule _ => ?_
  rw [decide_eq_decide, map_append, mem_append, map_singleton, mem_singleton]
  refine not_congr ⟨?_, Or.inl⟩
  rintro (hdone | heq)
  · exact hdone
  · rw [heq]
    exact h

theorem OldDatabase.others_perm {rule : OldRule} (hrule : rule ∈ old.others done)
    (hid : rule.id = link.ruleId) :
    (old.others done).Perm (rule :: old.others (done ++ [link])) := by
  have hnodup : ((old.others done).map OldRule.id).Nodup :=
    old.rules.nodup.sublist (filter_sublist.map _)
  have hrest : ((old.others done).filter fun other => decide (other.id ≠ rule.id)) =
      old.others (done ++ [link]) := by
    rw [others, others, Table.select, Table.select, filter_filter]
    refine filter_congr fun other _ => ?_
    rw [Bool.eq_iff_iff, Bool.and_eq_true, decide_eq_true_iff, decide_eq_true_iff,
      decide_eq_true_iff, map_append, mem_append, map_singleton,
      mem_singleton, hid, not_or, and_comm]
  rw [← hrest]
  exact Table.perm_cons_filter hnodup hrule

section Round

variable {draws : Draws} {old : OldDatabase} {done : List SetRule} {rules : Table NewRule.id}

theorem Placed.ungrouped (h : Placed draws old done rules) {row : NewRule}
    (hrow : row ∈ rules.rows) (hnone : row.ruleGroupId = none) :
    ∃ rule ∈ old.others done, row = rule.start := by
  rcases h.row_cases hrow with ⟨link, -, rule, -, -, rfl | rfl⟩ | hstart
  · cases hnone
  · cases hnone
  · exact hstart

theorem Placed.copy_free (h : Placed draws old done rules) (hfresh : draws.Fresh old)
    (hdone : ∀ other ∈ done, other ∈ old.setRules.rows) {link : SetRule}
    (hlink : link ∈ old.setRules.rows) (hnew : link ∉ done) :
    rules.has (draws.copy link) = false := by
  rw [Bool.eq_false_iff, Ne, Table.has_eq_true_iff]
  rintro ⟨row, hrow, hid⟩
  rcases h.row_cases hrow with ⟨other, hother, rule, hrule, -, rfl | rfl⟩ | ⟨rule, hrule, rfl⟩
  · exact hfresh.copy_ne link hlink rule hrule hid.symm
  · have hsame := hfresh.copy_inj link hlink other (hdone other hother) hid.symm
    exact hnew (hsame ▸ hother)
  · exact hfresh.copy_ne link hlink rule (OldDatabase.mem_others.mp hrule).1 hid.symm

theorem Placed.name_free (h : Placed draws old done rules) (hfresh : draws.Fresh old)
    (hdone : ∀ other ∈ done, other ∈ old.setRules.rows) {link : SetRule}
    (hlink : link ∈ old.setRules.rows) (hnew : link ∉ done) {rule : OldRule}
    (hrule : rule ∈ old.rules.rows) (hid : rule.id = link.ruleId) :
    ∀ row ∈ rules.rows,
      row.columns.form.name ≠ copyName rule.columns.form.name (draws.suffix link) := by
  intro row hrow hname
  rcases h.row_cases hrow with
    ⟨other, hother, rule', hrule', hid', rfl | rfl⟩ | ⟨rule', hrule', rfl⟩
  · exact hfresh.name_ne link hlink rule hrule hid rule' hrule' hname.symm
  · have hsame := hfresh.name_inj link hlink other (hdone other hother) rule hrule rule' hrule' hid
      hid' hname.symm
    exact hnew (hsame ▸ hother)
  · exact hfresh.name_ne link hlink rule hrule hid rule' (OldDatabase.mem_others.mp hrule').1
      hname.symm

theorem Placed.claim {db : NewDatabase} (h : Placed draws old done db.rules) {link : SetRule}
    {rule : OldRule} (hrule : rule ∈ old.others done) (hid : rule.id = link.ruleId) :
    Placed draws old (done ++ [link]) (db.claim (draws.group link.policySetId) link).rules := by
  obtain ⟨hmem, hunused⟩ := OldDatabase.mem_others.mp hrule
  obtain ⟨made, hmade, hperm⟩ := h.rows
  have hfirst : db.rules.rows.Perm
      (rule.start :: (made ++ (old.others (done ++ [link])).map OldRule.start)) := by
    refine hperm.trans ?_
    refine (((OldDatabase.others_perm hrule hid).map OldRule.start).append_left made).trans ?_
    exact perm_middle
  have hrows : (db.claim (draws.group link.policySetId) link).rules.rows.Perm
      (rule.moved draws link :: (made ++ (old.others (done ++ [link])).map OldRule.start)) := by
    have hupdate := Table.update_perm hfirst (fun row => { row with
      ruleGroupId := some (draws.group link.policySetId), groupOrder := link.ruleOrder })
      fun _ => rfl
    rw [NewDatabase.claim, ← hid]
    exact hupdate
  refine ⟨⟨made ++ [rule.moved draws link], ?_, ?_⟩, ?_⟩
  · exact rel_append hmade (.cons ⟨rule, hmem, hid, .inl rfl⟩ .nil)
  · rw [append_assoc]
    exact hrows.trans perm_middle.symm
  · intro other hother hused
    rw [map_append, mem_append, map_singleton, mem_singleton] at hused
    rcases hused with hused | hused
    · -- A rule that was moved before is not touched by the update.
      obtain ⟨link', hlink', hid', hmoved⟩ := h.used other hother hused
      refine ⟨link', mem_append_left _ hlink', hid', ?_⟩
      have hmem' := hfirst.mem_iff.mp hmoved
      have hne : other.moved draws link' ≠ rule.start := fun heq => by
        cases congrArg NewRule.ruleGroupId heq
      exact hrows.mem_iff.mpr
        (mem_cons_of_mem _ ((mem_cons.mp hmem').resolve_left hne))
    · obtain rfl : other = rule := Table.eq_of_key_eq hother hmem (hused.trans hid.symm)
      exact ⟨link, mem_append_right _ mem_cons_self, hid.symm,
        hrows.mem_iff.mpr mem_cons_self⟩

theorem Placed.copy (h : Placed draws old done rules) {link : SetRule} {rule : OldRule}
    (hrule : rule ∈ old.rules.rows) (hid : rule.id = link.ruleId)
    (hused : link.ruleId ∈ done.map SetRule.ruleId) {rules' : Table NewRule.id}
    (hrows : rules'.rows = rules.rows ++ [rule.copied draws link]) :
    Placed draws old (done ++ [link]) rules' := by
  obtain ⟨made, hmade, hperm⟩ := h.rows
  refine ⟨⟨made ++ [rule.copied draws link], ?_, ?_⟩, ?_⟩
  · exact rel_append hmade (.cons ⟨rule, hrule, hid, .inr rfl⟩ .nil)
  · rw [hrows, OldDatabase.others_concat_of_mem hused, append_assoc]
    refine (hperm.append_right _).trans ?_
    rw [append_assoc]
    exact (perm_append_comm).append_left made
  · intro other hother hmem
    have hmem' : other.id ∈ done.map SetRule.ruleId := by
      rw [map_append, mem_append, map_singleton, mem_singleton] at hmem
      rcases hmem with hmem | hmem
      · exact hmem
      · exact hmem ▸ hused
    obtain ⟨link', hlink', hid', hmoved⟩ := h.used other hother hmem'
    exact ⟨link', mem_append_left _ hlink', hid', hrows ▸ mem_append_left _ hmoved⟩

end Round

variable {db : NewDatabase}

/-- One round of the inner loop. -/
theorem placed_step (hfresh : draws.Fresh old) (hdone : ∀ other ∈ done, other ∈ old.setRules.rows)
    (hlink : link ∈ old.setRules.rows) (hnew : link ∉ done) (h : Placed draws old done db.rules) :
    ∃ rules, migrateRule draws (draws.group link.policySetId) db link =
        some { db with rules := rules } ∧
      Placed draws old (done ++ [link]) rules := by
  obtain ⟨rule, hrule, hid⟩ := old.rules_exist link hlink
  by_cases hused : link.ruleId ∈ done.map SetRule.ruleId
  · -- The rule has a group, so the search for one without a group fails.
    have htaken : (db.rules.rows.any fun row =>
        decide (row.id = link.ruleId ∧ row.ruleGroupId = none)) = false := by
      rw [any_eq_false]
      intro row hrow hcond
      obtain ⟨hsame, hnone⟩ := of_decide_eq_true hcond
      obtain ⟨other, hother, rfl⟩ := h.ungrouped hrow hnone
      have hid' : other.id = link.ruleId := hsame
      exact (OldDatabase.mem_others.mp hother).2 (hid' ▸ hused)
    obtain ⟨link', -, -, hmoved⟩ := h.used rule hrule (hid ▸ hused)
    have hfind : db.rules.find? link.ruleId = some (rule.moved draws link') :=
      Table.find?_eq_some_iff.mpr ⟨hmoved, hid⟩
    have hname : (db.rules.rows.any fun other => decide (other.columns.form.name =
        (rule.copied draws link).columns.form.name)) = false := by
      rw [any_eq_false]
      intro row hrow hcond
      exact h.name_free hfresh hdone hlink hnew hrule hid row hrow (of_decide_eq_true hcond)
    have hfree : db.rules.has (rule.copied draws link).id = false :=
      h.copy_free hfresh hdone hlink hnew
    refine ⟨db.rules.append (rule.copied draws link) hfree, ?_, h.copy hrule hid hused rfl⟩
    rw [migrateRule, htaken, if_neg Bool.false_ne_true, hfind]
    show db.insertRule (rule.copied draws link) = _
    rw [NewDatabase.insertRule, hname, if_neg Bool.false_ne_true, Table.insert?, dif_pos hfree]
    rfl
  · have hother : rule ∈ old.others done :=
      OldDatabase.mem_others.mpr ⟨hrule, fun hmem => hused (hid ▸ hmem)⟩
    obtain ⟨made, -, hperm⟩ := h.rows
    have hstart : rule.start ∈ db.rules.rows :=
      hperm.mem_iff.mpr (mem_append_right _ (mem_map_of_mem hother))
    have hfree : (db.rules.rows.any fun row =>
        decide (row.id = link.ruleId ∧ row.ruleGroupId = none)) = true :=
      any_eq_true.mpr ⟨rule.start, hstart, decide_eq_true ⟨hid, rfl⟩⟩
    refine ⟨_, ?_, h.claim hother hid⟩
    rw [migrateRule, hfree, if_pos rfl]
    rfl

/-! ## The sets and their attachments -/

/-- The attachments in the order in which the loops go over them. -/
def OldDatabase.attachments (old : OldDatabase) (sets : List OldSet) : List SetRule :=
  sets.flatMap fun set => old.links set.id

/-- The sets that have rules. -/
def OldDatabase.withRules (old : OldDatabase) (sets : List OldSet) : List OldSet :=
  sets.filter fun set => decide (old.links set.id ≠ [])

theorem OldDatabase.mem_links {id : Uuid} :
    link ∈ old.links id ↔ link ∈ old.setRules.rows ∧ link.policySetId = id := by
  rw [links, mem_insertionSort, Table.mem_select, decide_eq_true_iff]

theorem OldDatabase.mem_sets {set : OldSet} :
    set ∈ old.sets ↔ set ∈ old.policySets.rows :=
  mem_insertionSort _

theorem OldDatabase.links_nodup (old : OldDatabase) (id : Uuid) : (old.links id).Nodup :=
  (perm_insertionSort _ _).nodup_iff.mpr (old.setRules.nodup.of_map.filter _)

theorem OldDatabase.sets_nodup (old : OldDatabase) : old.sets.Nodup :=
  (perm_insertionSort _ _).nodup_iff.mpr old.policySets.nodup.of_map

theorem OldDatabase.mem_attachments :
    link ∈ old.attachments old.sets ↔ link ∈ old.setRules.rows := by
  rw [attachments, mem_flatMap]
  constructor
  · rintro ⟨set, -, hlink⟩
    exact (mem_links.mp hlink).1
  · intro hlink
    obtain ⟨set, hset, hid⟩ := old.sets_exist link hlink
    exact ⟨set, mem_sets.mpr hset, mem_links.mpr ⟨hlink, hid.symm⟩⟩

theorem OldDatabase.attachments_nodup (old : OldDatabase) : (old.attachments old.sets).Nodup := by
  refine nodup_flatMap.mpr ⟨fun set _ => old.links_nodup set.id, ?_⟩
  refine old.sets_nodup.imp_of_mem fun {set other} hset hother hne => ?_
  intro link hlink hlink'
  have hsame : set.id = other.id := (mem_links.mp hlink).2.symm.trans (mem_links.mp hlink').2
  exact hne (Table.eq_of_key_eq (mem_sets.mp hset) (mem_sets.mp hother) hsame)

theorem OldDatabase.attachments_filter (old : OldDatabase) {set : OldSet} :
    ((old.attachments old.sets).filter fun link => decide (link.policySetId = set.id)).Perm
      (old.links set.id) := by
  refine (perm_ext_iff_of_nodup (old.attachments_nodup.filter _)
    (old.links_nodup set.id)).mpr fun link => ?_
  rw [mem_filter, mem_attachments, mem_links, decide_eq_true_iff]

/-! ## The loop over the sets -/

/-- The tables when the sets `sets` have been gone over. -/
structure Migrated (draws : Draws) (old : OldDatabase) (sets : List OldSet) (db : NewDatabase) :
    Prop where
  placed : Placed draws old (old.attachments sets) db.rules
  groups : db.ruleGroups.rows.map RuleGroup.id =
    (if old.unattached = [] then [] else [draws.unassigned]) ++
      (old.withRules sets).map fun set => draws.group set.id
  attached : db.setGroups.rows =
    (old.withRules sets).map fun set => ⟨set.id, draws.group set.id, 0⟩

theorem migrated_start (draws : Draws) (old : OldDatabase) :
    ∃ db, old.withUnassigned draws = some db ∧ Migrated draws old [] db := by
  by_cases hnone : old.unattached = []
  · refine ⟨old.start, if_pos hnone, placed_start draws old, ?_, rfl⟩
    rw [if_pos hnone]
    rfl
  · refine ⟨_, if_neg hnone, placed_start draws old, ?_, rfl⟩
    rw [if_neg hnone]
    rfl

theorem NewDatabase.insertGroup_of_free {group : RuleGroup}
    (h : db.ruleGroups.has group.id = false) :
    db.insertGroup group = some { db with ruleGroups := db.ruleGroups.append group h } := by
  rw [insertGroup, Table.insert?, dif_pos h]
  rfl

theorem NewDatabase.insertSetGroup_of_free {row : SetGroup}
    (h : db.setGroups.has (row.policySetId, row.ruleGroupId) = false) :
    db.insertSetGroup row = some { db with setGroups := db.setGroups.append row h } := by
  rw [insertSetGroup, Table.insert?, dif_pos h]
  rfl

theorem placed_links (hfresh : draws.Fresh old) {done rest : List OldSet} {set : OldSet}
    (hsets : old.sets = done ++ set :: rest)
    (h : Placed draws old (old.attachments done) db.rules) :
    ∃ rules, (old.links set.id).foldlM (migrateRule draws (draws.group set.id)) db =
        some { db with rules := rules } ∧
      Placed draws old (old.attachments (done ++ [set])) rules := by
  have hall : old.attachments old.sets =
      old.attachments done ++ (old.links set.id ++ old.attachments rest) := by
    rw [hsets, OldDatabase.attachments, flatMap_append, flatMap_cons]
    rfl
  have hround : ∀ before link after (next : NewDatabase),
      old.links set.id = before ++ link :: after →
      (∃ rules, next = { db with rules := rules } ∧
        Placed draws old (old.attachments done ++ before) rules) →
      ∃ next', migrateRule draws (draws.group set.id) next link = some next' ∧
        ∃ rules, next' = { db with rules := rules } ∧
          Placed draws old (old.attachments done ++ (before ++ [link])) rules := by
    rintro before link after _ hlinks ⟨rules, rfl, hplaced⟩
    have hlink : link ∈ old.links set.id := hlinks ▸ mem_append_right _ mem_cons_self
    obtain ⟨hmem, hset⟩ := OldDatabase.mem_links.mp hlink
    have hsplit : old.attachments old.sets =
        (old.attachments done ++ before) ++ link :: (after ++ old.attachments rest) := by
      rw [hall, hlinks, append_assoc, append_assoc, cons_append]
    have hnodup := old.attachments_nodup
    rw [hsplit] at hnodup
    have hnew : link ∉ old.attachments done ++ before := fun hbefore =>
      (nodup_append.mp hnodup).2.2 link hbefore link mem_cons_self rfl
    have hdone : ∀ other ∈ old.attachments done ++ before, other ∈ old.setRules.rows := by
      intro other hother
      rw [← OldDatabase.mem_attachments, hsplit]
      exact mem_append_left _ hother
    have hplaced' : Placed draws old (old.attachments done ++ before)
        { db with rules := rules : NewDatabase }.rules := hplaced
    obtain ⟨rules', hstep, hnext⟩ := placed_step hfresh hdone hmem hnew hplaced'
    rw [hset] at hstep
    refine ⟨_, hstep, rules', rfl, ?_⟩
    rw [← append_assoc]
    exact hnext
  have hstart : Placed draws old (old.attachments done ++ []) db.rules := by
    rw [append_nil]
    exact h
  obtain ⟨final, hfinal, rules, rfl, hplaced⟩ :=
    Runs.foldlM_invariant hround ⟨db.rules, rfl, hstart⟩
  refine ⟨rules, hfinal, ?_⟩
  rw [OldDatabase.attachments, flatMap_append, flatMap_singleton]
  exact hplaced

/-- One round of the outer loop. -/
theorem migrated_step (hfresh : draws.Fresh old) {done rest : List OldSet} {set : OldSet}
    (hsets : old.sets = done ++ set :: rest) (h : Migrated draws old done db) :
    ∃ next, migrateSet draws old db set = some next ∧ Migrated draws old (done ++ [set]) next := by
  have hwith : old.withRules (done ++ [set]) =
      old.withRules done ++ old.withRules [set] := filter_append ..
  have hset : set ∈ old.policySets.rows := by
    rw [← OldDatabase.mem_sets, hsets]
    exact mem_append_right _ mem_cons_self
  have hbefore : ∀ other ∈ old.withRules done, other ∈ old.policySets.rows ∧ other ≠ set := by
    intro other hother
    have hmem := (mem_filter.mp hother).1
    have hnodup := old.sets_nodup
    rw [hsets] at hnodup
    refine ⟨?_, fun hsame => ?_⟩
    · rw [← OldDatabase.mem_sets, hsets]
      exact mem_append_left _ hmem
    · exact (nodup_append.mp hnodup).2.2 other hmem set mem_cons_self hsame
  by_cases hlinks : old.links set.id = []
  · have hnone : old.withRules [set] = [] := by
      rw [OldDatabase.withRules, filter_cons_of_neg (by simp [hlinks]), filter_nil]
    refine ⟨db, if_pos hlinks, ?_, ?_, ?_⟩
    · rw [OldDatabase.attachments, flatMap_append, flatMap_singleton, hlinks,
        append_nil]
      exact h.placed
    · rw [hwith, hnone, append_nil]
      exact h.groups
    · rw [hwith, hnone, append_nil]
      exact h.attached
  · have hone : old.withRules [set] = [set] := by
      rw [OldDatabase.withRules, filter_cons_of_pos (by simp [hlinks]), filter_nil]
    have hgroup : db.ruleGroups.has (set.autoGroup draws).id = false := by
      rw [Bool.eq_false_iff, Ne, Table.has_eq_true_iff]
      rintro ⟨group, hmem, hid⟩
      have hid' : group.id = draws.group set.id := hid
      have hmem' : draws.group set.id ∈ db.ruleGroups.rows.map RuleGroup.id :=
        hid' ▸ mem_map_of_mem hmem
      rw [h.groups, mem_append, mem_map] at hmem'
      rcases hmem' with hmem' | ⟨other, hother, hsame⟩
      · split at hmem'
        · cases hmem'
        · exact hfresh.group_ne set hset (mem_singleton.mp hmem')
      · obtain ⟨hold, hne⟩ := hbefore other hother
        exact hne (hfresh.group_inj other hold set hset hsame)
    have hpair : db.setGroups.has (set.id, draws.group set.id) = false := by
      rw [Bool.eq_false_iff, Ne, Table.has_eq_true_iff]
      rintro ⟨row, hmem, hkey⟩
      rw [h.attached] at hmem
      obtain ⟨other, hother, rfl⟩ := mem_map.mp hmem
      obtain ⟨hold, hne⟩ := hbefore other hother
      exact hne (Table.eq_of_key_eq hold hset (congrArg Prod.fst hkey))
    have hstart : Placed draws old (old.attachments done)
        { db with ruleGroups := db.ruleGroups.append (set.autoGroup draws) hgroup
          : NewDatabase }.rules := h.placed
    obtain ⟨rules, hloop, hplaced⟩ := placed_links hfresh hsets hstart
    refine ⟨⟨rules, db.ruleGroups.append (set.autoGroup draws) hgroup,
      db.setGroups.append ⟨set.id, draws.group set.id, 0⟩ hpair⟩, ?_, hplaced, ?_, ?_⟩
    · rw [migrateSet, if_neg hlinks, NewDatabase.insertGroup_of_free hgroup, Option.bind_eq_bind,
        Option.bind_some, hloop, Option.bind_some]
      exact NewDatabase.insertSetGroup_of_free hpair
    · show (db.ruleGroups.rows ++ [_]).map RuleGroup.id = _
      rw [map_append, h.groups, hwith, hone, map_append, append_assoc]
      rfl
    · show db.setGroups.rows ++ [_] = _
      rw [h.attached, hwith, hone, map_append]
      rfl

/-! ## The migrated tables -/

/-- An unattached rule in the group for such rules. -/
def OldRule.unassigned (rule : OldRule) (draws : Draws) : NewRule :=
  { rule.start with ruleGroupId := some draws.unassigned }

/-- The tables after the migration: each attachment has its row, a used rule has been moved, and the
unattached rules are in their group. -/
structure Finished (draws : Draws) (old : OldDatabase) (new : NewDatabase) : Prop where
  rows : ∃ made, List.Forall₂ (MadeOf draws old) (old.attachments old.sets) made ∧
    new.rules.rows.Perm (made ++ old.unattached.map (OldRule.unassigned · draws))
  used : ∀ rule ∈ old.rules.rows, (∃ link ∈ old.setRules.rows, link.ruleId = rule.id) →
    ∃ link ∈ old.setRules.rows, link.ruleId = rule.id ∧ rule.moved draws link ∈ new.rules.rows
  groups : new.ruleGroups.rows.map RuleGroup.id =
    (if old.unattached = [] then [] else [draws.unassigned]) ++
      (old.withRules old.sets).map fun set => draws.group set.id
  attached : new.setGroups.rows =
    (old.withRules old.sets).map fun set => ⟨set.id, draws.group set.id, 0⟩

theorem OldDatabase.mem_unattached {rule : OldRule} :
    rule ∈ old.unattached ↔
      rule ∈ old.rules.rows ∧ ∀ link ∈ old.setRules.rows, link.ruleId ≠ rule.id := by
  rw [unattached, Table.mem_select, decide_eq_true_iff]

theorem OldDatabase.mem_map_attachments {id : Uuid} :
    id ∈ (old.attachments old.sets).map SetRule.ruleId ↔
      ∃ link ∈ old.setRules.rows, link.ruleId = id := by
  rw [mem_map]
  exact exists_congr fun link => and_congr_left' mem_attachments

theorem OldDatabase.others_attachments (old : OldDatabase) :
    old.others (old.attachments old.sets) = old.unattached := by
  refine filter_congr fun rule _ => ?_
  rw [decide_eq_decide, mem_map_attachments]
  push Not
  rfl

theorem ruleGroupId_of_made {row : NewRule} (h : MadeOf draws old link row) :
    row.ruleGroupId = some (draws.group link.policySetId) := by
  obtain ⟨rule, -, -, rfl | rfl⟩ := h
  · rfl
  · rfl

theorem assignRest_perm {made : List NewRule} {rest : List OldRule}
    (hmade : ∀ row ∈ made, row.ruleGroupId ≠ none)
    (hperm : db.rules.rows.Perm (made ++ rest.map OldRule.start)) :
    (db.assignRest draws.unassigned).rules.rows.Perm
      (made ++ rest.map (OldRule.unassigned · draws)) := by
  refine (hperm.map _).trans (List.Perm.of_eq ?_)
  rw [map_append, map_map]
  congr 1
  refine (map_congr_left fun row hrow => ?_).trans (map_id _)
  exact if_neg fun hnone => hmade row hrow (of_decide_eq_true hnone)

theorem migrate_finished (hfresh : draws.Fresh old) :
    ∃ new, migrate draws old = some new ∧ Finished draws old new := by
  obtain ⟨first, hfirst, hstart⟩ := migrated_start draws old
  have hround : ∀ done set rest (db : NewDatabase), old.sets = done ++ set :: rest →
      Migrated draws old done db → ∃ next, migrateSet draws old db set = some next ∧
        Migrated draws old (done ++ [set]) next :=
    fun done set rest db hsets h => migrated_step hfresh hsets h
  obtain ⟨db, hloop, hdb⟩ := Runs.foldlM_invariant hround hstart
  obtain ⟨made, hmade, hperm⟩ := hdb.placed.rows
  rw [old.others_attachments] at hperm
  have hgrouped : ∀ row ∈ made, row.ruleGroupId ≠ none := by
    intro row hrow hnone
    obtain ⟨link, -, hof⟩ := Lists.exists_of_forall₂ hmade hrow
    rw [ruleGroupId_of_made hof] at hnone
    cases hnone
  obtain ⟨new, hnew, hrows, hgroups, hsets⟩ : ∃ new,
      new = (if old.unattached = [] then db else db.assignRest draws.unassigned) ∧
      new.rules.rows.Perm (made ++ old.unattached.map (OldRule.unassigned · draws)) ∧
      new.ruleGroups = db.ruleGroups ∧ new.setGroups = db.setGroups := by
    by_cases hnone : old.unattached = []
    · refine ⟨db, (if_pos hnone).symm, ?_, rfl, rfl⟩
      rw [hnone] at hperm ⊢
      exact hperm
    · exact ⟨_, (if_neg hnone).symm, assignRest_perm hgrouped hperm, rfl, rfl⟩
  have hall : (new.rules.rows.all fun row => row.ruleGroupId.isSome) = true := by
    refine all_eq_true.mpr fun row hrow => ?_
    rcases mem_append.mp (hrows.mem_iff.mp hrow) with hmem | hmem
    · exact Option.isSome_iff_ne_none.mpr (hgrouped row hmem)
    · obtain ⟨rule, -, rfl⟩ := mem_map.mp hmem
      rfl
  refine ⟨new, ?_, ⟨made, hmade, hrows⟩, ?_, hgroups ▸ hdb.groups, hsets ▸ hdb.attached⟩
  · rw [migrate, hfirst, Option.bind_eq_bind, Option.bind_some, hloop, Option.bind_some, ← hnew]
    exact if_pos hall
  · intro rule hrule hused
    have hused' := OldDatabase.mem_map_attachments.mpr hused
    obtain ⟨link, hlink, hid, hmoved⟩ := hdb.placed.used rule hrule hused'
    refine ⟨link, OldDatabase.mem_attachments.mp hlink, hid, ?_⟩
    -- A moved rule is none of those that are left over.
    rw [hrows.mem_iff]
    rcases mem_append.mp (hperm.mem_iff.mp hmoved) with hmem | hmem
    · exact mem_append_left _ hmem
    · obtain ⟨other, -, hother⟩ := mem_map.mp hmem
      cases congrArg NewRule.ruleGroupId hother

end GroupMigration

end FirewallManager
