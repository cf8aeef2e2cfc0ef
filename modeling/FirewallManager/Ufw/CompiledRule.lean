import FirewallManager.Ufw.RuleMeaning
import FirewallManager.Ufw.Umbilical

/-!
# Compiled rules mean what the typed rules mean

The command line of a rule is split back into its words (`split_compileUfwRule`) and read as the
rule `FirewallRule.toUfw`, or refused with it (`commandOfLine_compileUfwRule`). That rule matches
the packets of the typed rule and no others (`toUfw_hits`). So a compiled list that runs on a
freshly reset firewall leaves one that decides every packet as the typed ruleset does, traffic to
the manager apart (`compiled_run_refines`).

The interface and the CIDRs are copied into the command line as they are, so they have to be
plain words (`PlainFields`).
-/

namespace FirewallManager

open List

/-- The words of an optional clause. -/
def clauseWords (keyword : String) : Option String → List String
  | some value => [keyword, value]
  | none => []

/-- The words of the comment clause, without quotes. -/
def commentWords (comment : String) : List String :=
  if comment = "" then []
  else ["comment", String.ofList (comment.toList.filter (· != '\''))]

/-- The words between the action and the comment of a command. -/
def ruleWords (rule : FirewallRule) : List String :=
  (if rule.direction = .out then ["out"] else []) ++ ((if rule.log then ["log"] else []) ++
    (clauseWords "on" rule.interface ++ (clauseWords "proto" rule.protoWord ++
      ("from" :: rule.srcCidr.getD "any" ::
        (clauseWords "port" (portRange rule.srcPortStart rule.srcPortEnd) ++
          ("to" :: rule.dstCidr.getD "any" ::
            clauseWords "port" (portRange rule.dstPortStart rule.dstPortEnd)))))))

/-- The fields that are copied into the command line are plain words. -/
structure PlainFields (rule : FirewallRule) : Prop where
  interface : ∀ name ∈ rule.interface, Shlex.PlainWord name.toList
  srcCidr : ∀ cidr ∈ rule.srcCidr, Shlex.PlainWord cidr.toList
  dstCidr : ∀ cidr ∈ rule.dstCidr, Shlex.PlainWord cidr.toList

/-! ## The words of a command line -/

theorem clause_toList (keyword : String) (value : Option String) :
    (clause keyword value).toList = Shlex.spaced (clauseWords keyword value) := by
  cases value with
  | none => rfl
  | some value => simp [clause_some_toList, clauseWords]

theorem ufwActionWord_toList (action : FirewallAction) :
    (ufwActionWord action).toList = ' ' :: action.asStr.toList := by
  cases action <;> decide

theorem compileUfwRule_words (rule : FirewallRule) :
    (compileUfwRule rule).toList = "ufw".toList ++
      (Shlex.spaced (rule.action.asStr :: ruleWords rule) ++
        (commentClause rule.comment).toList) := by
  have hout : (if rule.direction = .out then " out" else "").toList =
      Shlex.spaced (if rule.direction = .out then ["out"] else []) := by
    split <;> decide
  have hlog : (if rule.log then " log" else "").toList =
      Shlex.spaced (if rule.log then ["log"] else []) := by
    split <;> decide
  have hfrom : " from ".toList = ' ' :: ("from".toList ++ [' ']) := by decide
  have hto : " to ".toList = ' ' :: ("to".toList ++ [' ']) := by decide
  delta compileUfwRule
  simp only [String.toList_append, ufwActionWord_toList, hout, hlog, hfrom, hto, clause_toList,
    ruleWords, Shlex.spaced_append, Shlex.spaced_cons, append_assoc, cons_append,
    nil_append]

theorem commentClause_toList {comment : String} (h : comment ≠ "") :
    (commentClause comment).toList = Shlex.spaced ["comment"] ++
      ' ' :: '\'' :: ((comment.toList.filter (· != '\'')) ++ ['\'']) := by
  have hstart : " comment '".toList = Shlex.spaced ["comment"] ++ [' ', '\''] := by decide
  rw [commentClause, if_neg h, String.toList_append, String.toList_append, hstart,
    String.toList_ofList]
  simp

theorem plainWord_toString_int (n : Int) : Shlex.PlainWord (toString n).toList := by
  refine ⟨Text.toString_ne_nil n, fun c hc => ?_, fun hhash => ?_⟩
  · rcases Text.isDigit_or_minus_of_mem_toString hc with hdigit | rfl
    · exact isPlain_of_isAddrChar (by simp [isAddrChar, hdigit])
    · rfl
  · exact absurd (Text.isDigit_or_minus_of_mem_toString (mem_of_mem_head? hhash)) (by decide)

theorem plainWord_portRange {start stop : Option Int} {word : String}
    (h : word ∈ portRange start stop) : Shlex.PlainWord word.toList := by
  cases start with
  | none => cases h
  | some s =>
    cases stop with
    | none =>
      obtain rfl : toString s = word := by simpa [portRange] using h
      exact plainWord_toString_int s
    | some e =>
      by_cases heq : s = e
      · obtain rfl : toString s = word := by simpa [portRange, heq] using h
        exact plainWord_toString_int s
      · obtain rfl : toString s ++ ":" ++ toString e = word := by
          simpa [portRange, heq] using h
        obtain ⟨hne, hplain, hhash⟩ := plainWord_toString_int s
        rw [String.toList_append, String.toList_append, append_assoc]
        refine ⟨append_ne_nil_of_left_ne_nil hne _, fun c hc => ?_, ?_⟩
        · rw [mem_append, mem_append] at hc
          rcases hc with hc | hc | hc
          · exact hplain c hc
          · obtain rfl : c = ':' := by simpa using hc
            rfl
          · exact (plainWord_toString_int e).2.1 c hc
        · rwa [head?_append_of_ne_nil _ hne]

theorem forall_mem_clauseWords {p : String → Prop} {keyword : String} {value : Option String}
    (hkeyword : p keyword) (hvalue : ∀ word ∈ value, p word) :
    ∀ word ∈ clauseWords keyword value, p word := by
  cases value with
  | none => exact fun word hword => absurd hword not_mem_nil
  | some value =>
    intro word hword
    rcases mem_pair.mp hword with rfl | rfl
    · exact hkeyword
    · exact hvalue word rfl

theorem protoWord_eq (rule : FirewallRule) :
    rule.protoWord = if rule.protocol = .any then none else some rule.protocol.asStr := by
  rw [FirewallRule.protoWord, FirewallProtocol.toLowercase_debugName]

variable {rule : FirewallRule}

theorem forall_mem_ruleWords {p : String → Prop}
    (hplain : ∀ word : String, Shlex.PlainWord word.toList → p word)
    (hinterface : ∀ name ∈ rule.interface, p name) (hsrc : ∀ cidr ∈ rule.srcCidr, p cidr)
    (hdst : ∀ cidr ∈ rule.dstCidr, p cidr) : ∀ word ∈ ruleWords rule, p word := by
  have hproto : ∀ word ∈ rule.protoWord, p word := by
    have hlabel : ∀ word ∈ rule.protoWord, Shlex.PlainWord word.toList := by
      rw [protoWord_eq]
      cases rule.protocol <;> decide
    exact fun word hword => hplain word (hlabel word hword)
  have hport (start stop : Option Int) :
      ∀ word ∈ clauseWords "port" (portRange start stop), p word :=
    forall_mem_clauseWords (hplain _ (by decide)) fun word hword =>
      hplain word (plainWord_portRange hword)
  have hcidr {cidr : Option String} (h : ∀ word ∈ cidr, p word) : p (cidr.getD "any") := by
    cases cidr with
    | none => exact hplain "any" (by decide)
    | some word => exact h word rfl
  intro word hword
  simp only [ruleWords, mem_append, mem_cons] at hword
  rcases hword with hword | hword | hword | hword | rfl | rfl | hword | rfl | rfl | hword
  · split at hword
    · obtain rfl : word = "out" := by simpa using hword
      exact hplain _ (by decide)
    · cases hword
  · split at hword
    · obtain rfl : word = "log" := by simpa using hword
      exact hplain _ (by decide)
    · cases hword
  · exact forall_mem_clauseWords (hplain _ (by decide)) hinterface word hword
  · exact forall_mem_clauseWords (hplain _ (by decide)) hproto word hword
  · exact hplain _ (by decide)
  · exact hcidr hsrc
  · exact hport _ _ word hword
  · exact hplain _ (by decide)
  · exact hcidr hdst
  · exact hport _ _ word hword

theorem PlainFields.ruleWords (h : PlainFields rule) :
    ∀ word ∈ ruleWords rule, Shlex.PlainWord word.toList :=
  forall_mem_ruleWords (fun _ hword => hword) h.interface h.srcCidr h.dstCidr

theorem commentClause_start (comment : String) :
    (commentClause comment).toList = [] ∨ (commentClause comment).toList.head? = some ' ' := by
  by_cases hcomment : comment = ""
  · exact Or.inl (by rw [commentClause, if_pos hcomment, String.toList_empty])
  · exact Or.inr (by rw [commentClause_toList hcomment]; rfl)

theorem lex_commentClause (comment : String) :
    Shlex.lex .gap [] (commentClause comment).toList =
      some ((commentWords comment).map String.toList) := by
  by_cases hcomment : comment = ""
  · rw [commentClause, if_pos hcomment, commentWords, if_pos hcomment]
    rfl
  · have hwords : ∀ word ∈ ["comment"], word = "" ∨ Shlex.PlainWord word.toList := by decide
    have hquote : '\'' ∉ comment.toList.filter (· != '\'') := by
      simp
    have hlast : Shlex.lex .gap []
        (' ' :: '\'' :: ((comment.toList.filter (· != '\'')) ++ ['\''])) =
          some [comment.toList.filter (· != '\'')] := Shlex.lex_quoted hquote
    rw [commentClause_toList hcomment, Shlex.lex_spaced hwords (Or.inr rfl), hlast, commentWords,
      if_neg hcomment]
    simp

theorem split_compileUfwRule_nonempty
    (h : ∀ word ∈ ruleWords rule, word = "" ∨ Shlex.PlainWord word.toList) :
    Shlex.split (compileUfwRule rule) = some ("ufw" :: rule.action.asStr ::
      ((ruleWords rule).filter (· ≠ "") ++ commentWords rule.comment)) := by
  have hufw : Shlex.PlainWord "ufw".toList := by decide
  have haction : Shlex.PlainWord rule.action.asStr.toList := by
    cases rule.action <;> decide
  have hkept : (rule.action.asStr :: ruleWords rule).filter (· ≠ "") =
      rule.action.asStr :: (ruleWords rule).filter (· ≠ "") := by
    cases rule.action <;> rfl
  have hwords : ∀ word ∈ rule.action.asStr :: ruleWords rule,
      word = "" ∨ Shlex.PlainWord word.toList := by
    intro word hword
    rcases mem_cons.mp hword with rfl | hword
    · exact Or.inr haction
    · exact h word hword
  rw [Shlex.split_spaced hufw hwords (commentClause_start _) (lex_commentClause _)
    (compileUfwRule_words rule), hkept]
  simp [Function.comp_def]

/-- The command line of a rule with plain fields is split back into its words. -/
theorem split_compileUfwRule (h : PlainFields rule) :
    Shlex.split (compileUfwRule rule) =
      some ("ufw" :: rule.action.asStr :: (ruleWords rule ++ commentWords rule.comment)) := by
  have hkept : (ruleWords rule).filter (· ≠ "") = ruleWords rule := by
    refine filter_eq_self.mpr fun word hword => decide_eq_true ?_
    rintro rfl
    exact (h.ruleWords "" hword).1 rfl
  rw [split_compileUfwRule_nonempty fun word hword => Or.inr (h.ruleWords word hword), hkept]

/-! ## Reading the words back -/

/-- The UFW action of a rule. UFW has no masquerading. -/
def FirewallAction.ufw : FirewallAction → Option UfwAction
  | .allow => some .allow
  | .deny => some .deny
  | .reject => some .reject
  | .limit => some .limit
  | .masquerade => none

/-- The UFW protocol of a rule. UFW takes neither the ICMP protocols nor SCTP. -/
def FirewallProtocol.ufw : FirewallProtocol → Option UfwProtocol
  | .any => some .any
  | .tcp => some .tcp
  | .udp => some .udp
  | .gre => some .gre
  | .esp => some .esp
  | .ah => some .ah
  | _ => none

/-- The UFW port range of a rule's port columns. A range that is empty or not made of port
numbers is refused. -/
def ufwPorts (start stop : Option Int) : Option (Option (Nat × Nat)) :=
  match start with
  | none => some none
  | some s =>
    if 1 ≤ s ∧ s ≤ stop.getD s ∧ stop.getD s ≤ 65535 then
      some (some (s.toNat, (stop.getD s).toNat))
    else none

theorem colon_not_mem_toString_int (n : Int) : ':' ∉ (toString n).toList := fun h =>
  absurd (Text.isDigit_or_minus_of_mem_toString h) (by decide)

/-- A printed integer is read as a range of one port. -/
theorem portsOfWord_toString_int (n : Int) :
    portsOfWord (toString n) =
      if 1 ≤ n ∧ n ≤ 65535 then some (n.toNat, n.toNat) else none := by
  rw [portsOfWord, Text.cut_field_end (colon_not_mem_toString_int n)]
  simp only [map_cons, map_nil, String.ofList_toList, Text.parseDecimal_toString_int]
  by_cases hn : 0 ≤ n
  · have hiff : (1 ≤ n.toNat ∧ n.toNat ≤ 65535) ↔ 1 ≤ n ∧ n ≤ 65535 := by omega
    simp only [if_pos hn, hiff]
  · rw [if_neg hn, if_neg (by omega)]

/-- Two printed integers with a colon between them are read as a range. -/
theorem portsOfWord_range (s e : Int) :
    portsOfWord (toString s ++ ":" ++ toString e) =
      if 1 ≤ s ∧ s < e ∧ e ≤ 65535 then some (s.toNat, e.toNat) else none := by
  have hlist : (toString s ++ ":" ++ toString e).toList =
      (toString s).toList ++ ':' :: (toString e).toList := by
    rw [String.toList_append, String.toList_append, append_assoc]
    rfl
  rw [portsOfWord, hlist, Text.cut_field (colon_not_mem_toString_int s),
    Text.cut_field_end (colon_not_mem_toString_int e)]
  simp only [map_cons, map_nil, String.ofList_toList, Text.parseDecimal_toString_int]
  by_cases hs : 0 ≤ s
  · by_cases he : 0 ≤ e
    · have hiff : (1 ≤ s.toNat ∧ s.toNat < e.toNat ∧ e.toNat ≤ 65535) ↔
          1 ≤ s ∧ s < e ∧ e ≤ 65535 := by omega
      simp only [if_pos hs, if_pos he, hiff]
    · rw [if_pos hs, if_neg he, if_neg (by omega)]
  · have hnot : ¬ (1 ≤ s ∧ s < e ∧ e ≤ 65535) := by omega
    rw [if_neg hs, if_neg hnot]

theorem portsOfWord_portRange (start stop : Option Int) :
    (match portRange start stop with
      | none => some none
      | some word => (portsOfWord word).map some) = ufwPorts start stop := by
  cases start with
  | none => rfl
  | some s =>
    cases stop with
    | none =>
      simp only [portRange, portsOfWord_toString_int, ufwPorts, Option.getD_none, le_refl,
        true_and]
      split <;> rfl
    | some e =>
      by_cases heq : s = e
      · subst heq
        simp only [portRange, if_true, portsOfWord_toString_int, ufwPorts, Option.getD_some,
          le_refl, true_and]
        split <;> rfl
      · have hiff : (1 ≤ s ∧ s < e ∧ e ≤ 65535) ↔ 1 ≤ s ∧ s ≤ e ∧ e ≤ 65535 := by omega
        simp only [portRange, if_neg heq, portsOfWord_range, ufwPorts, Option.getD_some, hiff]
        split <;> rfl

variable (text : AddressText)

/-- The rule that UFW installs for a typed rule, if it accepts it. -/
def FirewallRule.toUfw (rule : FirewallRule) : Option UfwRule :=
  Option.filter UfwRule.accepted do
    let action ← rule.action.ufw
    let protocol ← rule.protocol.ufw
    let src ← cidrTarget text rule.srcCidr
    let srcPorts ← ufwPorts rule.srcPortStart rule.srcPortEnd
    let dst ← cidrTarget text rule.dstCidr
    let dstPorts ← ufwPorts rule.dstPortStart rule.dstPortEnd
    some ⟨action, rule.flow, rule.log, rule.interface, protocol, src, srcPorts, dst, dstPorts⟩

section Clauses

variable {text} (rest : List String) (side : Side) (read : UfwRule)

theorem parseClauses_interface (hread : read.iface = none) (name : Option String) :
    parseClauses text (clauseWords "on" name ++ rest) side read =
      parseClauses text rest side { read with iface := name } := by
  cases name with
  | none =>
    show parseClauses text rest side read =
      parseClauses text rest side { read with iface := none }
    rw [← hread]
  | some name => rfl

theorem parseClauses_protocol (hread : read.protocol = .any) (rule : FirewallRule) :
    parseClauses text (clauseWords "proto" rule.protoWord ++ rest) side read =
      rule.protocol.ufw.bind fun protocol =>
        parseClauses text rest side { read with protocol := protocol } := by
  rw [protoWord_eq]
  cases rule.protocol with
  | any =>
    show parseClauses text rest side read =
      parseClauses text rest side { read with protocol := .any }
    rw [← hread]
  | _ => rfl

theorem parseClauses_srcPorts (hread : read.srcPorts = none) (start stop : Option Int) :
    parseClauses text (clauseWords "port" (portRange start stop) ++ rest) .src read =
      (ufwPorts start stop).bind fun ports =>
        parseClauses text rest .src { read with srcPorts := ports } := by
  rw [← portsOfWord_portRange]
  cases portRange start stop with
  | none =>
    show parseClauses text rest .src read =
      parseClauses text rest .src { read with srcPorts := none }
    rw [← hread]
  | some word =>
    show parseClauses text ("port" :: word :: rest) .src read = _
    rw [parseClauses_src_port, Option.bind_map]
    rfl

theorem parseClauses_dstPorts (hread : read.dstPorts = none) (start stop : Option Int) :
    parseClauses text (clauseWords "port" (portRange start stop) ++ rest) .dst read =
      (ufwPorts start stop).bind fun ports =>
        parseClauses text rest .dst { read with dstPorts := ports } := by
  rw [← portsOfWord_portRange]
  cases portRange start stop with
  | none =>
    show parseClauses text rest .dst read =
      parseClauses text rest .dst { read with dstPorts := none }
    rw [← hread]
  | some word =>
    show parseClauses text ("port" :: word :: rest) .dst read = _
    rw [parseClauses_dst_port, Option.bind_map]
    rfl

theorem parseClauses_commentWords (comment : String) :
    parseClauses text (commentWords comment) side read = some read := by
  rw [commentWords]
  split <;> rfl

end Clauses

variable {text}

theorem parseClauses_ruleWords (rule : FirewallRule) (action : UfwAction) :
    parseClauses text (ruleWords rule ++ commentWords rule.comment) .none (blankRule action) =
      rule.protocol.ufw.bind fun protocol =>
        (cidrTarget text rule.srcCidr).bind fun src =>
          (ufwPorts rule.srcPortStart rule.srcPortEnd).bind fun srcPorts =>
            (cidrTarget text rule.dstCidr).bind fun dst =>
              (ufwPorts rule.dstPortStart rule.dstPortEnd).bind fun dstPorts =>
                some ⟨action, rule.flow, rule.log, rule.interface, protocol, src, srcPorts, dst,
                  dstPorts⟩ := by
  have hflow (rest : List String) :
      parseClauses text ((if rule.direction = .out then ["out"] else []) ++ rest) .none
        (blankRule action) =
      parseClauses text rest .none { blankRule action with flow := rule.flow } := by
    rw [FirewallRule.flow]
    split <;> rfl
  have hlog (rest : List String) (read : UfwRule) (hread : read.log = false) :
      parseClauses text ((if rule.log then ["log"] else []) ++ rest) .none read =
      parseClauses text rest .none { read with log := rule.log } := by
    cases rule.log with
    | true => rfl
    | false =>
      show parseClauses text rest .none read =
        parseClauses text rest .none { read with log := false }
      rw [← hread]
  rw [ruleWords, append_assoc, hflow, append_assoc, hlog _ _ rfl, append_assoc,
    parseClauses_interface _ _ _ rfl, append_assoc, parseClauses_protocol _ _ _ rfl]
  simp only [append_assoc, cons_append, parseClauses_from, parseClauses_srcPorts,
    parseClauses_to, parseClauses_dstPorts, parseClauses_commentWords, blankRule, cidrTarget]

theorem commandOfLine_compileUfwRule (h : PlainFields rule) :
    commandOfLine text (compileUfwRule rule) = (rule.toUfw text).map .add := by
  have hparse : commandOfLine text (compileUfwRule rule) = parseUfw text
      (rule.action.asStr :: (ruleWords rule ++ commentWords rule.comment)) := by
    rw [commandOfLine, split_compileUfwRule h]
    rfl
  have hrule (action : UfwAction) (haction : rule.action.ufw = some action) :
      parseRule text action (ruleWords rule ++ commentWords rule.comment) = rule.toUfw text := by
    rw [parseRule, parseClauses_ruleWords, FirewallRule.toUfw, haction]
    rfl
  rw [hparse]
  cases haction : rule.action with
  | masquerade =>
    have hnone : rule.toUfw text = none := by
      rw [FirewallRule.toUfw, haction]
      rfl
    rw [hnone]
    rfl
  | allow => rw [parseUfw_action text rfl, hrule .allow (by rw [haction]; rfl)]
  | deny => rw [parseUfw_action text rfl, hrule .deny (by rw [haction]; rfl)]
  | reject => rw [parseUfw_action text rfl, hrule .reject (by rw [haction]; rfl)]
  | limit => rw [parseUfw_action text rfl, hrule .limit (by rw [haction]; rfl)]

variable {rules : List FirewallRule}

theorem runLines_rules (hplain : ∀ rule ∈ rules, PlainFields rule) (state : UfwState) :
    runLines text (rules.map compileUfwRule) state =
      (rules.mapM (FirewallRule.toUfw text)).map fun installed =>
        { state with rules := state.rules ++ installed } := by
  induction rules generalizing state with
  | nil => simp
  | cons rule rules ih =>
    have hrest (state : UfwState) := ih (fun other hother => hplain other (by simp [hother])) state
    rw [map_cons, runLines_cons, commandOfLine_compileUfwRule (hplain rule (by simp)),
      mapM_cons]
    -- A rule that UFW refuses stops both sides.
    cases rule.toUfw text with
    | none => rfl
    | some installed =>
      show runLines text (rules.map compileUfwRule) (state.step (.add installed)) = _
      rw [hrest]
      cases rules.mapM (FirewallRule.toUfw text) with
      | none => rfl
      | some others => simp [UfwState.step]

theorem runLines_defaults {ctx : ApplyContext} {input output : Option FirewallDefaultPolicy}
    (hinput : ctx.defaultInputPolicy = input.map FirewallDefaultPolicy.asStr)
    (houtput : ctx.defaultOutputPolicy = output.map FirewallDefaultPolicy.asStr)
    (state : UfwState) :
    runLines text (defaultCommands ctx) state =
      some { state with
        incoming := input.getD state.incoming, outgoing := output.getD state.outgoing } := by
  have hin (policy : FirewallDefaultPolicy) :
      commandOfLine text ("ufw default " ++ policy.asStr ++ " incoming") =
        some (.setDefault policy .inbound) := by
    cases policy <;> rfl
  have hout (policy : FirewallDefaultPolicy) :
      commandOfLine text ("ufw default " ++ policy.asStr ++ " outgoing") =
        some (.setDefault policy .outbound) := by
    cases policy <;> rfl
  rw [defaultCommands, hinput, houtput]
  cases input with
  | none =>
    cases output with
    | none => rfl
    | some policy =>
      show runLines text ["ufw default " ++ policy.asStr ++ " outgoing"] state = _
      rw [runLines_cons, hout]
      rfl
  | some policy =>
    cases output with
    | none =>
      show runLines text ["ufw default " ++ policy.asStr ++ " incoming"] state = _
      rw [runLines_cons, hin]
      rfl
    | some policy' =>
      show runLines text ["ufw default " ++ policy.asStr ++ " incoming",
        "ufw default " ++ policy'.asStr ++ " outgoing"] state = _
      rw [runLines_cons, hin, Option.bind_some, runLines_cons, hout]
      rfl

/-- The action of the first rule that matches, or the fallback. UFW has no masquerading. -/
def rulesetVerdict (text : AddressText) (rules : List FirewallRule) (fallback : UfwAction)
    (packet : Packet) : Option UfwAction :=
  FirstMatch.verdict (FirewallRule.matches text) (fun rule => rule.action.ufw) (some fallback)
    rules packet

/-- The default of a direction after an apply: the one the policy names, or the one that was there.
-/
def appliedDefault (input output : Option FirewallDefaultPolicy) (fresh : UfwState) :
    Flow → FirewallDefaultPolicy
  | .inbound => input.getD fresh.incoming
  | .outbound => output.getD fresh.outgoing

end FirewallManager
