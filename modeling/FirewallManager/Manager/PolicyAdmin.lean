import FirewallManager.Manager.Assignments

/-!
# Rules, rule groups and policy sets

The handlers that edit what the policy sets consist of. A rule lives in one rule group, and a
policy set is an ordered list of groups, so an edit of a rule reaches every set with its group.
The constraints of `firewall_rules` are checked where a row is written: `newRule` and
`updatedRule` give no row if one is violated.

The cast of a text to `inet` belongs to the database server and is the parameter `inetText`,
which gives the text form of the value.
-/

namespace FirewallManager

/-- A pair of port columns, if it passes the constraints. -/
def portColumns : Option Int → Option Int → Option (Option PortRange)
  | none, none => some none
  | some start, some stop =>
    if h : 1 ≤ start ∧ start ≤ stop ∧ stop ≤ 65535 then
      some (some ⟨start, stop, h.1, h.2.1, h.2.2⟩)
    else none
  | _, _ => none

/-- The position of a new entry: the given one, or `COALESCE(MAX(…), -1) + 1` unless that
overflows. -/
def nextOrder (given : Option Int) (orders : List Int) : Option Int :=
  match given with
  | some order => some order
  | none =>
    let last := orders.max?.getD (-1)
    if last < 2147483647 then some (last + 1) else none

section Casts

variable (inetText : String → Option String)

/-- The cast of an optional text to `inet`. -/
def castInet : Option String → Option (Option String)
  | none => some none
  | some cidr => (inetText cidr).map some

namespace RuleGroups

/-- The body of a rule creation. -/
structure CreateRuleInGroupRequest where
  name : String
  description : Option String
  action : FirewallAction
  direction : FirewallDirection
  protocol : FirewallProtocol
  srcCidr : Option String
  srcPortStart : Option Int
  srcPortEnd : Option Int
  dstCidr : Option String
  dstPortStart : Option Int
  dstPortEnd : Option Int
  interfaceIn : Option String
  interfaceOut : Option String
  comment : Option String
  log : Option Bool
  priority : Option Int
  groupOrder : Option Int
  deriving DecidableEq, Repr

/-- The row of a rule creation, if it passes the constraints. -/
def newRule (id groupId : Uuid) (req : CreateRuleInGroupRequest) (db : Database) :
    Option StoredRule := do
  let srcCidr ← castInet inetText req.srcCidr
  let srcPorts ← portColumns req.srcPortStart req.srcPortEnd
  let dstCidr ← castInet inetText req.dstCidr
  let dstPorts ← portColumns req.dstPortStart req.dstPortEnd
  let groupOrder ← nextOrder req.groupOrder
    ((db.rules.select fun row => decide (row.ruleGroupId = groupId)).map StoredRule.groupOrder)
  if db.ruleGroups.has groupId ∧ ¬ ∃ row ∈ db.rules.rows, row.name = req.name then
    some {
      id := id
      name := req.name
      description := req.description.getD ""
      action := req.action
      direction := req.direction
      protocol := req.protocol
      srcCidr := srcCidr
      srcPorts := srcPorts
      dstCidr := dstCidr
      dstPorts := dstPorts
      interfaceIn := req.interfaceIn
      interfaceOut := req.interfaceOut
      comment := req.comment.getD ""
      log := req.log.getD false
      priority := req.priority.getD 1000
      ruleGroupId := groupId
      groupOrder := groupOrder }
  else none

/-- `POST /rule-groups/{id}/rules`. The policy engine is asked after the rule is stored, and its
decision does not stop it. It is not kept either: the insert into `rule_policy_decisions` binds a
text to a column of an enumeration, is refused, and the error is dropped. -/
def createRuleInGroup (user : AuthUser) (id groupId : Uuid) (req : CreateRuleInGroupRequest) :
    Database → Except AppError FirewallRule × Database :=
  requireWrite user fun db =>
    match newRule inetText id groupId req db with
    | none => (.error (.database "firewall_rules"), db)
    | some rule =>
      match db.rules.insert? rule with
      | none => (.error (.database "firewall_rules_pkey"), db)
      | some rules =>
        (.ok rule.toModel, { db with rules := rules })

/-- `POST /rule-groups`. -/
def createRuleGroup (user : AuthUser) (id : Uuid) (name : String) (description : Option String) :
    Database → Except AppError RuleGroup × Database :=
  requireWrite user fun db =>
    let group : RuleGroup := ⟨id, name, description.getD ""⟩
    match db.ruleGroups.insert? group with
    | none => (.error (.database "firewall_rule_groups_pkey"), db)
    | some ruleGroups =>
      (.ok group, { db with ruleGroups := ruleGroups })

/-- `PUT /rule-groups/{id}`. -/
def updateRuleGroup (user : AuthUser) (id : Uuid) (name description : Option String) :
    Database → Except AppError Unit × Database :=
  requireWrite user fun db =>
    if db.ruleGroups.has id then
      (.ok (), { db with
        ruleGroups := db.ruleGroups.update (fun row => decide (row.id = id))
          (fun row => { row with
            name := name.getD row.name, description := description.getD row.description })
          fun _ => rfl })
    else (.error (.notFound "Rule group not found"), db)

/-- `DELETE /rule-groups/{id}`. A group in use is kept; otherwise its rules go with it. -/
def deleteRuleGroup (user : AuthUser) (id : Uuid) : Database → Except AppError Unit × Database :=
  requireWrite user fun db =>
    let usedBy := (db.setGroups.select fun row => decide (row.ruleGroupId = id)).length
    if usedBy > 0 then
      (.error (.conflict ("Rule group is used by " ++ toString usedBy ++
        " policy set(s); remove it from those sets before deleting")), db)
    else if db.ruleGroups.has id then
      (.ok (), { db with
        ruleGroups := db.ruleGroups.delete fun row => decide (row.id = id)
        rules := db.rules.delete fun row => decide (row.ruleGroupId = id) })
    else (.error (.notFound "Rule group not found"), db)

/-- One statement of a rule reordering. -/
def setRuleOrder (groupId : Uuid) (db : Database) (entry : Uuid × Nat) : Database :=
  { db with
    rules := db.rules.update
      (fun row => decide (row.ruleGroupId = groupId) && decide (row.id = entry.1))
      (fun row => { row with groupOrder := entry.2 }) fun _ => rfl }

/-- `PUT /rule-groups/{id}/rules/reorder`, one transaction. -/
def reorderGroupRules (user : AuthUser) (groupId : Uuid) (ruleIds : List Uuid) :
    Database → Except AppError Unit × Database :=
  requireWrite user fun db =>
    (.ok (), ruleIds.zipIdx.foldl (setRuleOrder groupId) db)

end RuleGroups

namespace Rules

/-- The body of a rule edit. An absent field keeps its value. -/
structure UpdateRuleRequest where
  name : Option String
  description : Option String
  action : Option FirewallAction
  direction : Option FirewallDirection
  protocol : Option FirewallProtocol
  srcCidr : Option String
  srcPortStart : Option Int
  srcPortEnd : Option Int
  dstCidr : Option String
  dstPortStart : Option Int
  dstPortEnd : Option Int
  interfaceIn : Option String
  interfaceOut : Option String
  comment : Option String
  log : Option Bool
  priority : Option Int
  deriving DecidableEq, Repr

/-- The row after a rule edit, if it passes the constraints. -/
def updatedRule (req : UpdateRuleRequest) (old : StoredRule) (db : Database) :
    Option StoredRule := do
  let srcCidr ← castInet inetText req.srcCidr
  let dstCidr ← castInet inetText req.dstCidr
  let srcPorts ← portColumns (req.srcPortStart <|> old.srcPorts.map PortRange.start)
    (req.srcPortEnd <|> old.srcPorts.map PortRange.stop)
  let dstPorts ← portColumns (req.dstPortStart <|> old.dstPorts.map PortRange.start)
    (req.dstPortEnd <|> old.dstPorts.map PortRange.stop)
  let name := req.name.getD old.name
  if ∃ row ∈ db.rules.rows, row.id ≠ old.id ∧ row.name = name then none
  else
    some {
      id := old.id
      name := name
      description := req.description.getD old.description
      action := req.action.getD old.action
      direction := req.direction.getD old.direction
      protocol := req.protocol.getD old.protocol
      srcCidr := srcCidr <|> old.srcCidr
      srcPorts := srcPorts
      dstCidr := dstCidr <|> old.dstCidr
      dstPorts := dstPorts
      interfaceIn := req.interfaceIn <|> old.interfaceIn
      interfaceOut := req.interfaceOut <|> old.interfaceOut
      comment := req.comment.getD old.comment
      log := req.log.getD old.log
      priority := req.priority.getD old.priority
      ruleGroupId := old.ruleGroupId
      groupOrder := old.groupOrder }

/-- `PUT /rules/{id}`. The policy engine is not asked. -/
def updateRule (user : AuthUser) (id : Uuid) (req : UpdateRuleRequest) :
    Database → Except AppError FirewallRule × Database :=
  requireWrite user fun db =>
    match db.rules.find? id with
    | none => (.error (.notFound "Rule not found"), db)
    | some old =>
      match updatedRule inetText req old db with
      | none => (.error (.database "firewall_rules"), db)
      | some rule =>
        (.ok rule.toModel,
          { db with
            rules := db.rules.update (fun row => decide (row.id = id))
              (fun row => { rule with id := row.id }) fun _ => rfl })

/-- `DELETE /rules/{id}`. -/
def deleteRule (user : AuthUser) (id : Uuid) : Database → Except AppError Unit × Database :=
  requireWrite user fun db =>
    if db.rules.has id then
      (.ok (), { db with
        rules := db.rules.delete fun row => decide (row.id = id) })
    else (.error (.notFound "Rule not found"), db)

end Rules

end Casts

namespace PolicySets

/-- `POST /policy-sets`. Names are unique. -/
def createPolicySet (user : AuthUser) (id : Uuid) (name : String) (description : Option String)
    (defaultInputPolicy defaultOutputPolicy : Option FirewallDefaultPolicy) :
    Database → Except AppError PolicySet × Database :=
  requireWrite user fun db =>
    let set : PolicySet :=
      ⟨id, name, description.getD "", defaultInputPolicy, defaultOutputPolicy⟩
    if db.policySets.rows.any fun row => decide (row.name = name) then
      (.error (.database "firewall_policy_sets_name_key"), db)
    else
      match db.policySets.insert? set with
      | none => (.error (.database "firewall_policy_sets_pkey"), db)
      | some policySets =>
        (.ok set, { db with policySets := policySets })

/-- The body of a policy set edit. A default is kept, cleared or set. -/
structure UpdatePolicySetRequest where
  name : Option String
  description : Option String
  defaultInputPolicy : Option (Option FirewallDefaultPolicy)
  defaultOutputPolicy : Option (Option FirewallDefaultPolicy)
  deriving DecidableEq, Repr

/-- `PUT /policy-sets/{id}`. -/
def updatePolicySet (user : AuthUser) (id : Uuid) (req : UpdatePolicySetRequest) :
    Database → Except AppError Unit × Database :=
  requireWrite user fun db =>
    if !db.policySets.has id then (.error (.notFound "Policy set not found"), db)
    else if db.policySets.rows.any fun row =>
        decide (row.id ≠ id) && decide (some row.name = req.name) then
      (.error (.database "firewall_policy_sets_name_key"), db)
    else
      (.ok (), { db with
        policySets := db.policySets.update (fun row => decide (row.id = id))
          (fun row => { row with
            name := req.name.getD row.name
            description := req.description.getD row.description
            defaultInputPolicy := req.defaultInputPolicy.getD row.defaultInputPolicy
            defaultOutputPolicy := req.defaultOutputPolicy.getD row.defaultOutputPolicy })
          fun _ => rfl })

/-- `DELETE /policy-sets/{id}`. The group list and the assignments of the set go with it. -/
def deletePolicySet (user : AuthUser) (id : Uuid) : Database → Except AppError Unit × Database :=
  requireWrite user fun db =>
    if db.policySets.has id then
      (.ok (), { db with
        policySets := db.policySets.delete fun row => decide (row.id = id)
        setGroups := db.setGroups.delete fun row => decide (row.policySetId = id)
        assignments := db.assignments.delete fun row => decide (row.policySetId = id) })
    else (.error (.notFound "Policy set not found"), db)

/-- The position of an added group. -/
def groupPosition (id : Uuid) (setGroupOrder : Option Int) (db : Database) : Option Int :=
  nextOrder setGroupOrder
    ((db.setGroups.select fun row => decide (row.policySetId = id)).map SetGroup.setGroupOrder)

/-- `POST /policy-sets/{id}/rule-groups`. Adding a group again moves it. -/
def addGroupToSet (user : AuthUser) (id ruleGroupId : Uuid) (setGroupOrder : Option Int) :
    Database → Except AppError Unit × Database :=
  requireWrite user fun db =>
    match groupPosition id setGroupOrder db with
    | none => (.error (.database "integer out of range"), db)
    | some order =>
      if db.policySets.has id ∧ db.ruleGroups.has ruleGroupId then
        (.ok (), { db with
          setGroups := db.setGroups.upsert ⟨id, ruleGroupId, order⟩
            (fun row => { row with setGroupOrder := order }) fun _ => rfl })
      else (.error (.database "firewall_policy_set_rule_groups"), db)

/-- `DELETE /policy-sets/{id}/rule-groups/{group_id}`. -/
def removeGroupFromSet (user : AuthUser) (id groupId : Uuid) :
    Database → Except AppError Unit × Database :=
  requireWrite user fun db =>
    (.ok (), { db with
      setGroups := db.setGroups.delete fun row =>
        decide (row.policySetId = id) && decide (row.ruleGroupId = groupId) })

/-- One statement of a group reordering. -/
def setGroupPosition (id : Uuid) (db : Database) (entry : Uuid × Nat) : Database :=
  { db with
    setGroups := db.setGroups.update
      (fun row => decide (row.policySetId = id) && decide (row.ruleGroupId = entry.1))
      (fun row => { row with setGroupOrder := entry.2 }) fun _ => rfl }

/-- `PUT /policy-sets/{id}/rule-groups/reorder`, one transaction. -/
def reorderGroups (user : AuthUser) (id : Uuid) (ruleGroupIds : List Uuid) :
    Database → Except AppError Unit × Database :=
  requireWrite user fun db =>
    (.ok (), ruleGroupIds.zipIdx.foldl (setGroupPosition id) db)

end PolicySets

end FirewallManager
