import FirewallManager.Manager.GroupMigration

/-!
# Policies across the migration

What the migration to rule groups leaves of a policy set: one group with the rules that the set had,
in their order. `migration_preserves` is the result.
-/

namespace FirewallManager

open List

namespace GroupMigration

/-- The row carries the attachment: its order, and its rule or a copy that differs in id and name.
-/
def Carries (old : OldDatabase) (link : SetRule) (row : NewRule) : Prop :=
  row.groupOrder = link.ruleOrder ∧
    ∃ rule ∈ old.rules.rows, rule.id = link.ruleId ∧
      ((row.id = rule.id ∧ row.columns = rule.columns) ∨
        ((∀ other ∈ old.rules.rows, row.id ≠ other.id) ∧
          ∃ name, row.columns = rule.columns.named name))

/-- Every policy is preserved. -/
structure Preserved (old : OldDatabase) (new : NewDatabase) : Prop where
  /-- Every rule is in exactly one group. -/
  grouped : ∀ row ∈ new.rules.rows,
    ∃! group, group ∈ new.ruleGroups.rows ∧ row.ruleGroupId = some group.id
  /-- A set with rules has one group, and its rules in the order of `group_order` are those that the
  set had, in the order of `rule_order`. -/
  policies : ∀ set ∈ old.policySets.rows, old.links set.id ≠ [] → ∃ group ∈ new.ruleGroups.rows,
    (new.setGroups.select fun row => decide (row.policySetId = set.id)) =
        [⟨set.id, group.id, 0⟩] ∧
      ∀ rows : List NewRule,
        rows.Perm (new.rules.select fun row => decide (row.ruleGroupId = some group.id)) →
        rows.Pairwise (fun a b => a.groupOrder ≤ b.groupOrder) →
        ∃ links : List SetRule, links.Perm (old.links set.id) ∧
          links.Pairwise (fun a b => a.ruleOrder ≤ b.ruleOrder) ∧
          List.Forall₂ (Carries old) links rows
  /-- A set without rules stays empty. -/
  empty : ∀ set ∈ old.policySets.rows, old.links set.id = [] →
    (new.setGroups.select fun row => decide (row.policySetId = set.id)) = []
  /-- Every rule is still there. -/
  kept : ∀ rule ∈ old.rules.rows,
    ∃ row ∈ new.rules.rows, row.id = rule.id ∧ row.columns = rule.columns
  /-- A rule that one set uses is in the group of that set under its own id. -/
  unshared : ∀ link ∈ old.setRules.rows,
    (∀ other ∈ old.setRules.rows, other.ruleId = link.ruleId → other = link) →
    ∃ row ∈ new.rules.rows, row.id = link.ruleId ∧ row.groupOrder = link.ruleOrder ∧
      ∃ setGroup ∈ new.setGroups.rows, setGroup.policySetId = link.policySetId ∧
        row.ruleGroupId = some setGroup.ruleGroupId

theorem carries_of_made {draws : Draws} {old : OldDatabase} (hfresh : draws.Fresh old)
    {link : SetRule} (hlink : link ∈ old.setRules.rows) {row : NewRule}
    (h : MadeOf draws old link row) : Carries old link row := by
  obtain ⟨rule, hrule, hid, rfl | rfl⟩ := h
  · exact ⟨rfl, rule, hrule, hid, .inl ⟨rfl, rfl⟩⟩
  · exact ⟨rfl, rule, hrule, hid, .inr ⟨hfresh.copy_ne link hlink, _, rfl⟩⟩

theorem OldDatabase.mem_withRules {old : OldDatabase} {set : OldSet} :
    set ∈ old.withRules old.sets ↔ set ∈ old.policySets.rows ∧ old.links set.id ≠ [] := by
  rw [withRules, mem_filter, mem_sets, decide_eq_true_iff]

theorem OldDatabase.exists_withRules {old : OldDatabase} {link : SetRule}
    (hlink : link ∈ old.setRules.rows) :
    ∃ set ∈ old.withRules old.sets, set.id = link.policySetId := by
  obtain ⟨set, hset, hid⟩ := old.sets_exist link hlink
  have hmem : link ∈ old.links set.id := mem_links.mpr ⟨hlink, hid.symm⟩
  exact ⟨set, mem_withRules.mpr ⟨hset, ne_nil_of_mem hmem⟩, hid⟩

section Finished

variable {draws : Draws} {old : OldDatabase} {new : NewDatabase}

theorem Finished.exists_group (h : Finished draws old new) {set : OldSet}
    (hset : set ∈ old.withRules old.sets) :
    ∃ group ∈ new.ruleGroups.rows, group.id = draws.group set.id := by
  have hmem : draws.group set.id ∈ new.ruleGroups.rows.map RuleGroup.id := by
    rw [h.groups]
    exact mem_append_right _ (mem_map_of_mem hset)
  exact mem_map.mp hmem

theorem Finished.grouped (h : Finished draws old new) {row : NewRule}
    (hrow : row ∈ new.rules.rows) :
    ∃ group ∈ new.ruleGroups.rows, row.ruleGroupId = some group.id := by
  obtain ⟨made, hmade, hperm⟩ := h.rows
  rcases mem_append.mp (hperm.mem_iff.mp hrow) with hmem | hmem
  · obtain ⟨link, hlink, hof⟩ := Lists.exists_of_forall₂ hmade hmem
    obtain ⟨set, hset, hid⟩ :=
      OldDatabase.exists_withRules (OldDatabase.mem_attachments.mp hlink)
    obtain ⟨group, hgroup, hgid⟩ := h.exists_group hset
    refine ⟨group, hgroup, ?_⟩
    rw [ruleGroupId_of_made hof, hgid, hid]
  · obtain ⟨rule, hrule, rfl⟩ := mem_map.mp hmem
    have hunassigned : draws.unassigned ∈ new.ruleGroups.rows.map RuleGroup.id := by
      rw [h.groups, if_neg (ne_nil_of_mem hrule)]
      exact mem_append_left _ mem_cons_self
    obtain ⟨group, hgroup, hid⟩ := mem_map.mp hunassigned
    exact ⟨group, hgroup, congrArg some hid.symm⟩

theorem Finished.setGroups_select (h : Finished draws old new) {set : OldSet}
    (hset : set ∈ old.policySets.rows) :
    (new.setGroups.select fun row => decide (row.policySetId = set.id)) =
      if old.links set.id = [] then [] else [⟨set.id, draws.group set.id, 0⟩] := by
  have hid : ∀ other ∈ old.withRules old.sets,
      decide (other.id = set.id) = decide (other = set) := by
    intro other hother
    rw [decide_eq_decide]
    exact ⟨Table.eq_of_key_eq (OldDatabase.mem_withRules.mp hother).1 hset, congrArg OldSet.id⟩
  have hone : (old.withRules old.sets).filter (fun other => decide (other.id = set.id)) =
      if old.links set.id = [] then [] else [set] := by
    have hnodup : (old.withRules old.sets).Nodup := old.sets_nodup.filter _
    rw [filter_congr hid, filter_eq, hnodup.count]
    by_cases hlinks : old.links set.id = []
    · rw [if_pos hlinks, if_neg fun hmem => (OldDatabase.mem_withRules.mp hmem).2 hlinks]
      rfl
    · rw [if_neg hlinks, if_pos (OldDatabase.mem_withRules.mpr ⟨hset, hlinks⟩)]
      rfl
  rw [Table.select, h.attached, filter_map]
  show ((old.withRules old.sets).filter fun other => decide (other.id = set.id)).map _ = _
  rw [hone]
  split
  · rfl
  · rfl

theorem Finished.rules_select (h : Finished draws old new) (hfresh : draws.Fresh old)
    {set : OldSet} (hset : set ∈ old.policySets.rows) :
    ∃ links rows, links.Perm (old.links set.id) ∧ List.Forall₂ (Carries old) links rows ∧
      (new.rules.select fun row =>
        decide (row.ruleGroupId = some (draws.group set.id))).Perm rows := by
  obtain ⟨made, hmade, hperm⟩ := h.rows
  have hmade' : List.Forall₂ (fun link row => link ∈ old.setRules.rows ∧ MadeOf draws old link row)
      (old.attachments old.sets) made :=
    (forall₂_and_left _ _).mpr ⟨fun _ => OldDatabase.mem_attachments.mp, hmade⟩
  have hsame : ∀ link row, link ∈ old.setRules.rows ∧ MadeOf draws old link row →
      (decide (link.policySetId = set.id) = true ↔
        decide (row.ruleGroupId = some (draws.group set.id)) = true) := by
    rintro link row ⟨hlink, hof⟩
    rw [decide_eq_true_iff, decide_eq_true_iff, ruleGroupId_of_made hof, Option.some_inj]
    obtain ⟨other, hother, hid⟩ := old.sets_exist link hlink
    rw [← hid]
    constructor
    · exact congrArg draws.group
    · exact fun hgroup => congrArg OldSet.id (hfresh.group_inj other hother set hset hgroup)
  have hrest : (old.unattached.map (OldRule.unassigned · draws)).filter (fun row =>
      decide (row.ruleGroupId = some (draws.group set.id))) = [] := by
    refine filter_eq_nil_iff.mpr fun row hrow hgroup => ?_
    obtain ⟨rule, -, rfl⟩ := mem_map.mp hrow
    exact hfresh.group_ne set hset (Option.some_inj.mp (of_decide_eq_true hgroup)).symm
  refine ⟨_, made.filter fun row => decide (row.ruleGroupId = some (draws.group set.id)),
    old.attachments_filter, ?_, ?_⟩
  · exact (rel_filter (fun {link row} hof => hsame link row hof) hmade').imp
      fun link row hof => carries_of_made hfresh hof.1 hof.2
  · refine (hperm.filter _).trans (List.Perm.of_eq ?_)
    rw [filter_append, hrest, append_nil]

theorem exists_links_of_perm {links : List SetRule} {rows sorted : List NewRule}
    (hcarries : List.Forall₂ (Carries old) links rows) (hperm : sorted.Perm rows)
    (hsorted : sorted.Pairwise fun a b => a.groupOrder ≤ b.groupOrder) :
    ∃ links', links'.Perm links ∧ links'.Pairwise (fun a b => a.ruleOrder ≤ b.ruleOrder) ∧
      List.Forall₂ (Carries old) links' sorted := by
  obtain ⟨links', hforall, hlinks⟩ := perm_comp_forall₂ hperm (List.Forall₂.flip hcarries)
  have hforall' : List.Forall₂ (Carries old) links' sorted := List.Forall₂.flip hforall
  refine ⟨links', hlinks, ?_, hforall'⟩
  have hkeys : links'.map SetRule.ruleOrder = sorted.map NewRule.groupOrder := by
    rw [← forall₂_eq_eq_eq, forall₂_map_left_iff, forall₂_map_right_iff]
    exact hforall'.imp fun link row hof => hof.1.symm
  have hsorted' : (sorted.map NewRule.groupOrder).Pairwise (· ≤ ·) := pairwise_map.mpr hsorted
  rw [← hkeys] at hsorted'
  exact pairwise_map.mp hsorted'

theorem Finished.preserved (h : Finished draws old new) (hfresh : draws.Fresh old) :
    Preserved old new where
  grouped := by
    intro row hrow
    obtain ⟨group, hgroup, hid⟩ := h.grouped hrow
    refine ⟨group, ⟨hgroup, hid⟩, ?_⟩
    rintro other ⟨hother, hid'⟩
    exact Table.eq_of_key_eq hother hgroup (Option.some_inj.mp (hid'.symm.trans hid))
  policies := by
    intro set hset hlinks
    obtain ⟨group, hgroup, hid⟩ := h.exists_group (OldDatabase.mem_withRules.mpr ⟨hset, hlinks⟩)
    refine ⟨group, hgroup, ?_, ?_⟩
    · rw [h.setGroups_select hset, if_neg hlinks, hid]
    · intro rows hrows hsorted
      rw [hid] at hrows
      obtain ⟨links, made, hperm, hcarries, hmade⟩ := h.rules_select hfresh hset
      obtain ⟨links', hlinks', hkeys, hcarries'⟩ :=
        exists_links_of_perm hcarries (hrows.trans hmade) hsorted
      exact ⟨links', hlinks'.trans hperm, hkeys, hcarries'⟩
  empty := by
    intro set hset hlinks
    rw [h.setGroups_select hset, if_pos hlinks]
  kept := by
    intro rule hrule
    by_cases hused : ∃ link ∈ old.setRules.rows, link.ruleId = rule.id
    · obtain ⟨link, -, -, hmoved⟩ := h.used rule hrule hused
      exact ⟨_, hmoved, rfl, rfl⟩
    · push Not at hused
      obtain ⟨made, -, hperm⟩ := h.rows
      have hrest : rule.unassigned draws ∈ new.rules.rows :=
        hperm.mem_iff.mpr (mem_append_right _
          (mem_map_of_mem (OldDatabase.mem_unattached.mpr ⟨hrule, hused⟩)))
      exact ⟨_, hrest, rfl, rfl⟩
  unshared := by
    intro link hlink honly
    obtain ⟨rule, hrule, hid⟩ := old.rules_exist link hlink
    obtain ⟨other, hother, hid', hmoved⟩ := h.used rule hrule ⟨link, hlink, hid.symm⟩
    obtain rfl := honly other hother (hid'.trans hid)
    obtain ⟨set, hset, hsame⟩ := OldDatabase.exists_withRules hlink
    refine ⟨_, hmoved, hid, rfl, ⟨set.id, draws.group set.id, 0⟩, ?_, hsame, ?_⟩
    · rw [h.attached]
      exact mem_map_of_mem hset
    · rw [hsame]
      rfl

end Finished

/-- The migration succeeds and preserves every policy. -/
theorem migration_preserves (draws : Draws) (old : OldDatabase) (hfresh : draws.Fresh old) :
    ∃ new, migrate draws old = some new ∧ Preserved old new := by
  obtain ⟨new, hnew, hfinished⟩ := migrate_finished hfresh
  exact ⟨new, hnew, hfinished.preserved hfresh⟩

/-- Two sets share a rule, one of them has another rule, and a third rule is not attached. -/
def sharingFleet : OldDatabase where
  policySets := ⟨[⟨⟨1⟩, "web", 20⟩, ⟨⟨2⟩, "mail", 10⟩], by decide⟩
  rules := ⟨[⟨⟨5⟩, insideRule.form, none, 0, 0⟩,
    ⟨⟨6⟩, { insideRule.form with name := "smtp" }, none, 0, 0⟩,
    ⟨⟨7⟩, { insideRule.form with name := "spare" }, none, 0, 0⟩], by decide⟩
  setRules := ⟨[⟨⟨1⟩, ⟨5⟩, 1⟩, ⟨⟨2⟩, ⟨5⟩, 7⟩, ⟨⟨2⟩, ⟨6⟩, 3⟩], by decide⟩
  names_nodup := by decide
  sets_exist := by decide
  rules_exist := by decide

/-- Ids that the fleet does not have. -/
def sharingDraws : Draws where
  unassigned := ⟨99⟩
  group id := ⟨id.value + 100⟩
  copy link := ⟨link.policySetId.value * 1000 + link.ruleId.value⟩
  suffix link := ⟨(link.policySetId.value * 1000 + link.ruleId.value) * 2 ^ 96⟩

/-- The shared rule is moved into one group and copied into the other one. -/
theorem sharing_preserved :
    ∃ new, migrate sharingDraws sharingFleet = some new ∧ Preserved sharingFleet new := by
  refine migration_preserves sharingDraws sharingFleet ?_
  exact ⟨by decide, by decide, by decide, by decide, by decide +kernel, by decide +kernel⟩

end GroupMigration

end FirewallManager
