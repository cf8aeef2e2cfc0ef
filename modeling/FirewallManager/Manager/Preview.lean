import FirewallManager.Agent.Firewalld
import FirewallManager.Agent.UfwText
import FirewallManager.Manager.AgentApi
import FirewallManager.Manager.Policy

/-!
# Previews

Two routes show the commands of a policy set before it is deployed. They compile the rules with
functions of the manager, which are older copies of the agent's: they leave out what the agent
writes for logging, interfaces, source ports and absent networks, and they show the comment of a
rule, while the agent gets the name in its place.

`ufw_preview_iff` says for which rules the texts are the same, `firewalld_preview_ne` that they
never are on firewalld, and `preview_commands_iff` puts that together for the lists.
-/

namespace FirewallManager

open List

/-! ## The compilers of the manager -/

/-- The port clause of a preview. -/
def previewPort (start stop : Option Int) : String :=
  match start with
  | none => ""
  | some port =>
    match stop with
    | some last =>
      if port = last then " port " ++ toString port
      else " port " ++ toString port ++ ":" ++ toString last
    | none => " port " ++ toString port

/-- The comment clause of a preview, which quotes the comment as it is. -/
def previewComment (comment : String) : String :=
  if comment = "" then "" else " comment '" ++ comment ++ "'"

/-- `compile_ufw_command`. -/
def compileUfwCommand (rule : FirewallRule) : String :=
  "ufw" ++ ufwActionWord rule.action ++ (if rule.direction = .out then " out" else "") ++
    clause "proto" rule.protoWord ++ clause "from" rule.srcCidr ++ clause "to" rule.dstCidr ++
    previewPort rule.dstPortStart rule.dstPortEnd ++ previewComment rule.comment

/-- `compile_firewalld_command`. The word `service` is written if there is a port. -/
def compileFirewalldCommand (rule : FirewallRule) : String :=
  let action := firewalldActionWord rule.action
  let proto := rule.protoWord.getD "all"
  let src := rule.srcCidr.getD "any"
  let port := (rule.dstPortStart.map toString).getD ""
  "firewall-cmd --permanent --add-rich-rule='rule family=ipv4 source address=\"" ++ src ++ "\" " ++
    (if port = "" then "" else "service") ++ " port port=\"" ++ port ++ "\" protocol=\"" ++ proto ++
    "\" " ++ action ++ "'"

namespace PolicySets

/-- The answer of a preview of a policy set. -/
structure PreviewCompilationResponse where
  ufwCommands : List String
  firewalldCommands : List String
  ruleCount : Nat
  deriving DecidableEq, Repr

/-- `preview_compilation`. -/
def previewCompilation (db : Database) (id : Uuid) : PreviewCompilationResponse :=
  let rules := db.rulesForPolicySet id
  ⟨rules.map compileUfwCommand, rules.map compileFirewalldCommand, rules.length⟩

end PolicySets

namespace Deployment

/-- The answer of a preview of a deployment. -/
structure PreviewResponse where
  ufwCommand : List String
  firewalldCommand : List String
  ruleCount : Nat
  deriving DecidableEq, Repr

/-- `preview_assignment`. -/
def previewAssignment (db : Database) (policySetId : Uuid) : PreviewResponse :=
  let rules := db.rulesForPolicySet policySetId
  ⟨rules.map compileUfwCommand, rules.map compileFirewalldCommand, rules.length⟩

end Deployment

/-! ## UFW -/

theorem previewPort_eq (start stop : Option Int) :
    previewPort start stop = clause "port" (portRange start stop) := by
  have hclause (text : String) : clause "port" (some text) = " port " ++ text := rfl
  cases start with
  | none => rfl
  | some port =>
    cases stop with
    | none => rfl
    | some last =>
      rw [previewPort, portRange]
      split
      · rw [hclause]
      · rw [hclause, String.append_assoc, String.append_assoc, String.append_assoc]

/-- The destination ports and the comment of a preview. -/
def previewTail (rule : FirewallRule) : List Char :=
  (clause "port" (portRange rule.dstPortStart rule.dstPortEnd)).toList ++
    (previewComment rule.comment).toList

/-- The source network of a preview and everything after it. -/
def previewFrom (rule : FirewallRule) : List Char :=
  (clause "from" rule.srcCidr).toList ++
    ((clause "to" rule.dstCidr).toList ++ previewTail rule)

theorem compileUfwCommand_toList (rule : FirewallRule) :
    (compileUfwCommand rule).toList =
      actionHead rule ++ ((clause "proto" rule.protoWord).toList ++ previewFrom rule) := by
  delta compileUfwCommand
  simp only [previewPort_eq, actionHead, previewFrom, previewTail, String.toList_append,
    append_assoc]

theorem previewComment_start (comment : String) :
    Text.Delimited ' ' (previewComment comment).toList ∧
      (second (previewComment comment).toList = none ∨
        second (previewComment comment).toList = some 'c') := by
  rw [previewComment]
  split
  · exact ⟨Or.inl rfl, Or.inl rfl⟩
  · simp [Text.Delimited, second, String.toList_append]

theorem second_previewTail (rule : FirewallRule) :
    second (previewTail rule) = none ∨ second (previewTail rule) = some 'p' ∨
      second (previewTail rule) = some 'c' := by
  rw [previewTail]
  cases portRange rule.dstPortStart rule.dstPortEnd with
  | none =>
    rw [clause_none_toList, nil_append]
    exact (previewComment_start rule.comment).2.imp_right Or.inr
  | some text => simp [clause_some_toList, second]

/-- What follows the protocol of a preview starts with neither a `log` nor an `on` word. -/
theorem second_previewFrom (rule : FirewallRule) :
    second (previewFrom rule) ≠ some 'l' ∧ second (previewFrom rule) ≠ some 'o' ∧
      (rule.srcCidr = none → second (previewFrom rule) ≠ some 'f') := by
  rw [previewFrom]
  cases rule.srcCidr with
  | some cidr => simp [clause_some_toList, second]
  | none =>
    rw [clause_none_toList, nil_append]
    cases rule.dstCidr with
    | some cidr => simp [clause_some_toList, second]
    | none =>
      rw [clause_none_toList, nil_append]
      rcases second_previewTail rule with h | h | h <;> simp [h]

theorem commentClause_eq_previewComment_iff (name comment : String) :
    commentClause name = previewComment comment ↔
      (name = "" ↔ comment = "") ∧
        comment = String.ofList (name.toList.filter (· != '\'')) := by
  have hquoted (text : String) : " comment '" ++ text ++ "'" ≠ "" := by
    intro h
    have hlength := congrArg String.length h
    rw [String.length_append, String.length_append] at hlength
    have hword : " comment '".length = 10 := by decide
    have hempty : "".length = 0 := rfl
    omega
  rw [commentClause, previewComment]
  by_cases hname : name = ""
  · rw [if_pos hname]
    by_cases hcomment : comment = ""
    · rw [if_pos hcomment, hname, hcomment]
      simp
    · rw [if_neg hcomment]
      refine iff_of_false (hquoted comment).symm ?_
      rintro ⟨hiff, -⟩
      exact hcomment (hiff.mp hname)
  · rw [if_neg hname]
    by_cases hcomment : comment = ""
    · rw [if_pos hcomment]
      refine iff_of_false (hquoted _) ?_
      rintro ⟨hiff, -⟩
      exact hname (hiff.mpr hcomment)
    · rw [if_neg hcomment, and_iff_right (iff_of_false hname hcomment)]
      constructor
      · intro h
        exact (String.append_right_inj _ |>.mp (String.append_left_inj _ |>.mp h)).symm
      · intro h
        rw [← h]

/-- A rule as the agent gets it: without a description, and with a name for its comment. -/
def FirewallRule.sent (rule : FirewallRule) (name : String) : FirewallRule :=
  { rule with description := "", comment := name }

theorem decodeStored_eq (rule : StoredRule) :
    decodeStored rule = rule.toModel.sent rule.name := by
  simp [FirewallRule.sent, decodeStored, dtoToRule, ruleToDto, StoredRule.toRow, StoredRule.toModel]

/-- The preview of the rule on UFW shows what the agent runs. -/
structure PreviewExact (rule : StoredRule) : Prop where
  log : rule.log = false
  interface : rule.toModel.interface = none
  srcCidr : rule.srcCidr ≠ none
  srcPorts : rule.srcPorts = none
  dstCidr : rule.dstCidr ≠ none
  empty : rule.name = "" ↔ rule.comment = ""
  comment : rule.comment = String.ofList (rule.name.toList.filter (· != '\''))

theorem toTail_eq_iff {rule : FirewallRule} {cidr : String} (hcidr : rule.dstCidr = some cidr)
    (name : String) :
    toTail (rule.sent name) =
        (clause "to" rule.dstCidr).toList ++ previewTail rule ↔
      commentClause name = previewComment rule.comment := by
  have hto : " to ".toList ++ cidr.toList = (clause "to" (some cidr)).toList := by
    rw [clause_some_toList]
    rfl
  have hsent : (rule.sent name).dstCidr = some cidr := hcidr
  delta toTail
  rw [hsent, hcidr, Option.getD_some, hto, append_cancel_left_eq]
  show (clause "port" (portRange rule.dstPortStart rule.dstPortEnd)).toList ++
    (commentClause name).toList = previewTail rule ↔ _
  rw [previewTail, append_cancel_left_eq, String.toList_inj]

theorem srcTail_eq_iff (rule : FirewallRule) (name : String) :
    srcTail (rule.sent name) =
        (clause "to" rule.dstCidr).toList ++ previewTail rule ↔
      portRange rule.srcPortStart rule.srcPortEnd = none ∧ rule.dstCidr ≠ none ∧
        commentClause name = previewComment rule.comment := by
  obtain ⟨hdelimited, hsecond⟩ := toTail_start (rule.sent name)
  have hsent : srcTail (rule.sent name) =
      (clause "port" (portRange rule.srcPortStart rule.srcPortEnd)).toList ++
        toTail (rule.sent name) := rfl
  rw [hsent]
  cases hdst : rule.dstCidr with
  | some cidr =>
    rw [← hdst]
    cases hports : portRange rule.srcPortStart rule.srcPortEnd with
    | none =>
      rw [clause_none_toList, nil_append, toTail_eq_iff hdst, hdst]
      simp
    | some text =>
      -- The word `port` against the word `to`.
      refine iff_of_false (fun h => ?_) (by simp)
      rw [hdst, clause_some_toList, clause_some_toList] at h
      have hword := congrArg second h
      revert hword
      simp [second]
  | none =>
    refine iff_of_false (fun h => ?_) (by simp)
    obtain ⟨hcomment, hword⟩ := previewComment_start rule.comment
    rw [clause_none_toList, nil_append, previewTail] at h
    have hport : "port".toList ≠ [] ∧ "port".toList.head? = some 'p' := ⟨by decide, rfl⟩
    have hto : second (toTail (rule.sent name)) ≠
        "port".toList.head? := by
      rw [hsecond, hport.2]
      decide
    have hcommentWord : second (previewComment rule.comment).toList ≠ "port".toList.head? := by
      rw [hport.2]
      rcases hword with hnone | hsome
      · rw [hnone]
        decide
      · rw [hsome]
        decide
    -- Both texts may go on with a port, but only the agent's has a destination behind it.
    obtain ⟨-, hrest⟩ := clause_append_inj (portRange_blankFree _ _) (portRange_blankFree _ _)
      hdelimited hcomment hport.1 hto hcommentWord h
    rw [hrest] at hsecond
    rcases hword with hnone | hsome
    · rw [hnone] at hsecond
      cases hsecond
    · rw [hsome] at hsecond
      cases hsecond

/-- The part behind the protocol: the agent always writes a source network. -/
theorem fromTail_eq_iff (rule : FirewallRule) (name : String) :
    " from ".toList ++ (rule.srcCidr.getD "any").toList ++
        srcTail (rule.sent name) = previewFrom rule ↔
      rule.srcCidr ≠ none ∧ portRange rule.srcPortStart rule.srcPortEnd = none ∧
        rule.dstCidr ≠ none ∧ commentClause name = previewComment rule.comment := by
  cases hsrc : rule.srcCidr with
  | none =>
    refine iff_of_false (fun h => ?_) (by simp)
    refine (second_previewFrom rule).2.2 hsrc ?_
    rw [← h]
    rfl
  | some cidr =>
    have hfrom : " from ".toList ++ cidr.toList = (clause "from" (some cidr)).toList := by
      rw [clause_some_toList]
      rfl
    rw [Option.getD_some, hfrom, previewFrom, hsrc, append_cancel_left_eq, srcTail_eq_iff]
    simp

theorem compileUfwRule_eq_command_iff (rule : FirewallRule) (name : String) :
    compileUfwRule (rule.sent name) = compileUfwCommand rule ↔
      rule.log = false ∧ rule.interface = none ∧ rule.srcCidr ≠ none ∧
        portRange rule.srcPortStart rule.srcPortEnd = none ∧ rule.dstCidr ≠ none ∧
        commentClause name = previewComment rule.comment := by
  have hhead : actionHead (rule.sent name) = actionHead rule := rfl
  have hlog : (rule.sent name).log = rule.log := rfl
  have hinterface : (rule.sent name).interface = rule.interface := rfl
  have hproto : protoTail (rule.sent name) =
      (clause "proto" rule.protoWord).toList ++ (" from ".toList ++
        (rule.srcCidr.getD "any").toList ++
          srcTail (rule.sent name)) := rfl
  -- What stands behind the action in a preview starts with neither of the two words in question.
  have hstart : second ((clause "proto" rule.protoWord).toList ++ previewFrom rule) ≠ some 'l' ∧
      second ((clause "proto" rule.protoWord).toList ++ previewFrom rule) ≠ some 'o' := by
    cases rule.protoWord with
    | none =>
      rw [clause_none_toList, nil_append]
      exact ⟨(second_previewFrom rule).1, (second_previewFrom rule).2.1⟩
    | some word => simp [clause_some_toList, second]
  rw [← String.toList_inj, compileUfwRule_toList, compileUfwCommand_toList, hhead,
    append_cancel_left_eq, hlog, hinterface]
  cases rule.log with
  | true =>
    refine iff_of_false (fun h => hstart.1 ?_) (by simp)
    rw [← h]
    rfl
  | false =>
    rw [logWord, if_neg Bool.false_ne_true, nil_append]
    cases rule.interface with
    | some name =>
      refine iff_of_false (fun h => hstart.2 ?_) (by simp)
      rw [← h, clause_some_toList]
      rfl
    | none =>
      rw [clause_none_toList, nil_append, hproto, append_cancel_left_eq,
        fromTail_eq_iff]
      simp

theorem ufw_preview_iff (rule : StoredRule) :
    compileUfwRule (decodeStored rule) = compileUfwCommand rule.toModel ↔ PreviewExact rule := by
  have hports : portRange rule.toModel.srcPortStart rule.toModel.srcPortEnd = none ↔
      rule.srcPorts = none := by
    rw [StoredRule.toModel]
    cases rule.srcPorts with
    | none => simp [portRange]
    | some range =>
      simp only [Option.map_some, portRange, reduceCtorEq, iff_false]
      split <;> simp
  rw [decodeStored_eq, compileUfwRule_eq_command_iff, hports, commentClause_eq_previewComment_iff]
  constructor
  · rintro ⟨hlog, hinterface, hsrc, hsrcPorts, hdst, hempty, hcomment⟩
    exact ⟨hlog, hinterface, hsrc, hsrcPorts, hdst, hempty, hcomment⟩
  · rintro ⟨hlog, hinterface, hsrc, hsrcPorts, hdst, hempty, hcomment⟩
    exact ⟨hlog, hinterface, hsrc, hsrcPorts, hdst, hempty, hcomment⟩

/-! ## firewalld -/

/-- What both commands for firewalld start with. -/
def richRuleStart : String :=
  "firewall-cmd --permanent --add-rich-rule='rule family=ipv4 source address=\""

/-- The agent's command behind the source network and its quote. -/
def agentTail (rule : FirewallRule) : String :=
  match rule.dstPortStart with
  | none => firewalldActionWord rule.action ++ "'"
  | some port => "port port=\"" ++ (toString port ++ ("\" protocol=\"" ++
      (rule.protoWord.getD "all" ++ ("\" " ++ (firewalldActionWord rule.action ++ "'")))))

/-- The preview behind the source network and its quote. -/
def managerTail (rule : FirewallRule) : String :=
  (match rule.dstPortStart with
    | none => ""
    | some _ => "service") ++ (" port port=\"" ++ ((rule.dstPortStart.map toString).getD "" ++
      ("\" protocol=\"" ++ (rule.protoWord.getD "all" ++ ("\" " ++
        (firewalldActionWord rule.action ++ "'"))))))

theorem compileFirewalldRule_eq (rule : FirewallRule) :
    compileFirewalldRule rule =
      richRuleStart ++ (rule.srcCidr.getD "0.0.0.0/0" ++ ("\" " ++ agentTail rule)) := by
  rw [compileFirewalldRule, agentTail, richRuleStart]
  cases rule.dstPortStart with
  | none => simp only [Option.map_none, Option.getD_none, if_true, String.append_assoc]
  | some port =>
    have hwords : "\" " ++ "port port=\"" = "\" port port=\"" := by decide
    have hquote (rest : String) :
        "\" " ++ ("port port=\"" ++ rest) = "\" port port=\"" ++ rest := by
      rw [← String.append_assoc, hwords]
    simp only [Option.map_some, Option.getD_some, if_neg (Text.toString_ne_empty port),
      String.append_assoc, hquote]

theorem compileFirewalldCommand_eq (rule : FirewallRule) :
    compileFirewalldCommand rule =
      richRuleStart ++ (rule.srcCidr.getD "any" ++ ("\" " ++ managerTail rule)) := by
  delta compileFirewalldCommand managerTail richRuleStart
  cases rule.dstPortStart with
  | none => simp only [Option.map_none, Option.getD_none, if_true, String.append_assoc]
  | some port =>
    simp only [Option.map_some, Option.getD_some, if_neg (Text.toString_ne_empty port),
      String.append_assoc]

/-- Behind the source network the agent goes on with `port` or the action, and the preview with
`service` or a second blank. -/
theorem agentTail_ne (rule : FirewallRule) : agentTail rule ≠ managerTail rule := by
  intro h
  have hhead := congrArg (fun text : String => text.toList.head?) h
  rw [agentTail, managerTail] at hhead
  cases hport : rule.dstPortStart with
  | none =>
    rw [hport] at hhead
    cases haction : rule.action <;> rw [haction] at hhead <;> simp [firewalldActionWord] at hhead
  | some port =>
    rw [hport] at hhead
    simp at hhead

/-- No preview for firewalld is the command that the agent runs. Without a source network the two
name another address, and with one they differ in what follows it. -/
theorem firewalld_preview_ne (rule : FirewallRule) :
    compileFirewalldRule rule ≠ compileFirewalldCommand rule := by
  intro h
  rw [compileFirewalldRule_eq, compileFirewalldCommand_eq, String.append_right_inj] at h
  cases hsrc : rule.srcCidr with
  | none =>
    rw [hsrc] at h
    have hhead := congrArg (fun text : String => text.toList.head?) h
    simp at hhead
  | some cidr =>
    rw [hsrc, Option.getD_some, Option.getD_some, String.append_right_inj,
      String.append_right_inj] at h
    exact agentTail_ne rule h

/-! ## The lists of a policy set -/

/-- **When a preview shows what the agent runs.** For every policy set and every context of an
apply, let the agent compile the rules that it gets for the set. On UFW the rule commands are those
of the preview if and only if every rule has a preview that is exact, and on firewalld if and only
if the set has no rules. The two preview routes show the same lists. -/
theorem preview_commands_iff (db : Database) (policySetId : Uuid) (ctx : ApplyContext) :
    let sent := (db.fetchRulesForPolicySet policySetId).map fun row => dtoToRule (ruleToDto row)
    let preview := PolicySets.previewCompilation db policySetId
    ((ufwCompile sent ctx).commands =
        umbilicalCommand ctx :: (defaultCommands ctx ++ preview.ufwCommands) ↔
      ∀ rule ∈ db.compiledRules policySetId, PreviewExact rule) ∧
    ((firewalldCompile sent ctx).commands = preview.firewalldCommands ↔
      db.compiledRules policySetId = []) ∧
    (Deployment.previewAssignment db policySetId).ufwCommand = preview.ufwCommands ∧
    (Deployment.previewAssignment db policySetId).firewalldCommand =
      preview.firewalldCommands := by
  intro sent preview
  have hsent : sent = (db.compiledRules policySetId).map decodeStored := by
    simp only [sent, Database.fetchRulesForPolicySet, map_map]
    rfl
  refine ⟨?_, ?_, rfl, rfl⟩
  · have hufw : preview.ufwCommands = (db.compiledRules policySetId).map fun rule =>
        compileUfwCommand rule.toModel := by
      simp only [preview, PolicySets.previewCompilation, Database.rulesForPolicySet, map_map]
      rfl
    rw [ufwCompile, hsent, hufw, List.cons.injEq, and_iff_right rfl, append_cancel_left_eq,
      map_map, map_inj_left]
    exact forall₂_congr fun rule _ => ufw_preview_iff rule
  · have hfirewalld : preview.firewalldCommands = (db.compiledRules policySetId).map fun rule =>
        compileFirewalldCommand rule.toModel := by
      simp only [preview, PolicySets.previewCompilation, Database.rulesForPolicySet, map_map]
      rfl
    rw [firewalldCompile, hsent, hfirewalld, map_map, map_inj_left]
    constructor
    · intro h
      refine eq_nil_iff_forall_not_mem.mpr fun rule hrule => ?_
      have hsame := h rule hrule
      rw [Function.comp_apply, decodeStored_eq] at hsame
      exact firewalld_preview_ne rule.toModel hsame
    · intro hnil
      rw [hnil]
      intro rule hrule
      cases hrule

/-- A set with one rule, which opens the SSH port. -/
def sshSet : Database :=
  { Database.empty with
    ruleGroups := .singleton ⟨⟨3⟩, "base", ""⟩
    policySets := .singleton ⟨⟨4⟩, "servers", "", none, none⟩
    setGroups := .singleton ⟨⟨4⟩, ⟨3⟩, 0⟩
    rules := .singleton { sshStored with id := ⟨5⟩, priority := 1000 } }

/-- Both previews of the set are other commands than the agent's. -/
theorem ssh_preview_differs :
    (PolicySets.previewCompilation sshSet ⟨4⟩).ufwCommands = ["ufw allow proto tcp port 22"] ∧
      ((sshSet.fetchRulesForPolicySet ⟨4⟩).map fun row =>
          compileUfwRule (dtoToRule (ruleToDto row))) =
        ["ufw allow proto tcp from any to any port 22 comment 'ssh'"] ∧
      (PolicySets.previewCompilation sshSet ⟨4⟩).firewalldCommands ≠
        (sshSet.fetchRulesForPolicySet ⟨4⟩).map fun row =>
          compileFirewalldRule (dtoToRule (ruleToDto row)) := by
  decide +kernel

end FirewallManager
