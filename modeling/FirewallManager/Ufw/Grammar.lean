import FirewallManager.Manager.AssignmentEffect
import FirewallManager.Manager.BroadAllow
import FirewallManager.Ufw.Decoder

/-!
# The grammar of UFW rule commands

UFW documents the full syntax of a rule as

`ufw ACTION [in|out [on IFACE]] [log] [proto P] [from ADDR [port P]] [to ADDR [port P]] [comment C]`

An `UfwSentence` is a choice of the optional parts, and its `words` are the command it derives. The
compiler writes the log word before the interface, leaves out `in`, and writes an empty interface as
a second blank, so not every command it makes is one of these. `stored_rule_grammar_iff` says which
ones are.
-/

namespace FirewallManager

open List

/-- The word of an action. -/
def UfwAction.word : UfwAction → String
  | .allow => "allow"
  | .deny => "deny"
  | .reject => "reject"
  | .limit => "limit"

/-- The direction word of a rule command. -/
def Flow.word : Flow → String
  | .inbound => "in"
  | .outbound => "out"

/-- A rule command of the documented syntax. The interface belongs to the direction and a port to
its address. Any word can stand for an interface, a protocol, an address, a port or a comment. -/
structure UfwSentence where
  action : UfwAction
  direction : Option (Flow × Option String)
  log : Bool
  protocol : Option String
  src : Option (String × Option String)
  dst : Option (String × Option String)
  comment : Option String
  deriving DecidableEq

/-- `[in|out [on IFACE]]` -/
def directionWords : Option (Flow × Option String) → List String
  | none => []
  | some (flow, iface) => flow.word :: clauseWords "on" iface

/-- `[from ADDR [port P]]`, and the same with `to`. -/
def addressWords (keyword : String) : Option (String × Option String) → List String
  | none => []
  | some (address, port) => keyword :: address :: clauseWords "port" port

namespace UfwSentence

/-- What follows the log word. -/
def clauses (sentence : UfwSentence) : List String :=
  clauseWords "proto" sentence.protocol ++ (addressWords "from" sentence.src ++
    (addressWords "to" sentence.dst ++ clauseWords "comment" sentence.comment))

/-- What follows the direction. -/
def body (sentence : UfwSentence) : List String :=
  (if sentence.log then ["log"] else []) ++ sentence.clauses

/-- The words of the command. -/
def words (sentence : UfwSentence) : List String :=
  "ufw" :: sentence.action.word :: (directionWords sentence.direction ++ sentence.body)

/-- The interface of the command. -/
def iface (sentence : UfwSentence) : Option String :=
  sentence.direction.bind Prod.snd

/-- The keywords that can follow the log word. -/
def clauseStarts : List String :=
  ["proto", "from", "to", "comment"]

variable {sentence : UfwSentence} {word action : String} {rest : List String}

theorem clauses_start (h : sentence.clauses = word :: rest) : word ∈ clauseStarts := by
  obtain ⟨_, _, _, protocol, src, dst, comment⟩ := sentence
  unfold clauses at h
  cases protocol with
  | some protocol =>
    obtain rfl := (List.cons.inj h).1
    decide
  | none =>
    cases src with
    | some src =>
      obtain rfl := (List.cons.inj h).1
      decide
    | none =>
      cases dst with
      | some dst =>
        obtain rfl := (List.cons.inj h).1
        decide
      | none =>
        cases comment with
        | some comment =>
          obtain rfl := (List.cons.inj h).1
          decide
        | none => cases h

theorem body_start (h : sentence.body = word :: rest) :
    (word = "log" ∧ sentence.clauses = rest) ∨ word ∈ clauseStarts := by
  unfold body at h
  split at h
  next =>
    obtain ⟨hword, hrest⟩ := List.cons.inj h
    exact Or.inl ⟨hword.symm, hrest⟩
  next => exact Or.inr (clauses_start h)

theorem words_cases (h : sentence.words = "ufw" :: action :: rest) :
    sentence.body = rest ∨ (∃ flow : Flow, rest = flow.word :: sentence.body) ∨
      ∃ (flow : Flow) (name : String), rest = flow.word :: "on" :: name :: sentence.body := by
  have htail : directionWords sentence.direction ++ sentence.body = rest :=
    (List.cons.inj (List.cons.inj h).2).2
  cases hdirection : sentence.direction with
  | none =>
    rw [hdirection] at htail
    exact Or.inl htail
  | some direction =>
    obtain ⟨flow, _ | name⟩ := direction
    · rw [hdirection] at htail
      exact Or.inr (Or.inl ⟨flow, htail.symm⟩)
    · rw [hdirection] at htail
      exact Or.inr (Or.inr ⟨flow, name, htail.symm⟩)

theorem body_of_words (h : sentence.words = "ufw" :: action :: word :: rest)
    (hword : word ∉ ["in", "out"]) : sentence.body = word :: rest := by
  have hflow (flow : Flow) : flow.word ∈ ["in", "out"] := by
    cases flow <;> decide
  rcases words_cases h with hbody | ⟨flow, hrest⟩ | ⟨flow, name, hrest⟩
  · exact hbody
  · rw [(List.cons.inj hrest).1] at hword
    exact absurd (hflow flow) hword
  · rw [(List.cons.inj hrest).1] at hword
    exact absurd (hflow flow) hword

theorem body_ne_on : sentence.body ≠ "on" :: rest := by
  intro h
  rcases body_start h with ⟨hlog, -⟩ | hstart
  · exact absurd hlog (by decide)
  · exact absurd hstart (by decide)

theorem body_ne_log_on : sentence.body ≠ "log" :: "on" :: rest := by
  intro h
  rcases body_start h with ⟨-, hclauses⟩ | hstart
  · exact absurd (clauses_start hclauses) (by decide)
  · exact absurd hstart (by decide)

theorem words_out (h : sentence.words = "ufw" :: action :: "out" :: rest) :
    sentence.body = rest ∨ ∃ name, rest = "on" :: name :: sentence.body := by
  rcases words_cases h with hbody | ⟨flow, hflow⟩ | ⟨flow, name, hflow⟩
  · rcases body_start hbody with ⟨hlog, -⟩ | hstart
    · exact absurd hlog (by decide)
    · exact absurd hstart (by decide)
  · exact Or.inl (List.cons.inj hflow).2.symm
  · exact Or.inr ⟨name, (List.cons.inj hflow).2⟩

end UfwSentence

/-! ## The words of a compiled rule -/

/-- The words before the interface: the direction and the log word. -/
def flagWords (rule : FirewallRule) : List String :=
  (if rule.direction = .out then ["out"] else []) ++ (if rule.log then ["log"] else [])

/-- The words after the interface, up to the comment. -/
def clauseTail (rule : FirewallRule) : List String :=
  clauseWords "proto" rule.protoWord ++
    ("from" :: rule.srcCidr.getD "any" ::
      (clauseWords "port" (portRange rule.srcPortStart rule.srcPortEnd) ++
        ("to" :: rule.dstCidr.getD "any" ::
          clauseWords "port" (portRange rule.dstPortStart rule.dstPortEnd))))

/-- The words of the interface clause as they are split. An empty name is no word. -/
def interfaceWords (name : Option String) : List String :=
  (clauseWords "on" name).filter (· ≠ "")

/-- An interface column holds nothing, the empty text or a plain word. -/
def InterfaceColumn (column : Option String) : Prop :=
  ∀ name ∈ column, name = "" ∨ Shlex.PlainWord name.toList

/-- A rule for a direction of the host that UFW has an action for, with columns as they are
stored. -/
structure FormRule (rule : FirewallRule) : Prop where
  action : rule.action ≠ .masquerade
  direction : rule.direction = .in ∨ rule.direction = .out
  interfaceIn : InterfaceColumn rule.interfaceIn
  interfaceOut : InterfaceColumn rule.interfaceOut
  srcCidr : ∀ cidr ∈ rule.srcCidr, InetText cidr
  dstCidr : ∀ cidr ∈ rule.dstCidr, InetText cidr

/-- The command of the rule is derivable, and without an interface if the rule's is absent or
empty. -/
def WellFormed (rule : FirewallRule) : Prop :=
  ∃ sentence : UfwSentence, Shlex.split (compileUfwRule rule) = some sentence.words ∧
    (rule.interface = none ∨ rule.interface = some "" → sentence.iface = none)

theorem ruleWords_interface (rule : FirewallRule) :
    ruleWords rule =
      flagWords rule ++ (clauseWords "on" rule.interface ++ clauseTail rule) := by
  simp only [ruleWords, flagWords, clauseTail, append_assoc]

variable {rule : FirewallRule}

theorem FormRule.ne_empty (h : FormRule rule) :
    (∀ word ∈ flagWords rule, word ≠ "") ∧ ∀ word ∈ clauseTail rule, word ≠ "" := by
  have hplain (word : String) (hword : Shlex.PlainWord word.toList) : word ≠ "" := by
    rintro rfl
    exact hword.1 rfl
  -- The same rule without interfaces has these words and no others.
  have hbare : FirewallRule.interface { rule with interfaceIn := none, interfaceOut := none } =
      none := ite_self none
  have hall : ∀ word ∈ ruleWords { rule with interfaceIn := none, interfaceOut := none },
      word ≠ "" :=
    forall_mem_ruleWords hplain (by simp [hbare])
      (fun cidr hcidr => hplain cidr (h.srcCidr cidr hcidr).plainWord)
      (fun cidr hcidr => hplain cidr (h.dstCidr cidr hcidr).plainWord)
  rw [ruleWords_interface, hbare] at hall
  exact ⟨fun word hword => hall word (mem_append_left _ hword),
    fun word hword => hall word (mem_append_right _ hword)⟩

theorem FormRule.split (h : FormRule rule) :
    Shlex.split (compileUfwRule rule) = some ("ufw" :: rule.action.asStr :: (flagWords rule ++
      (interfaceWords rule.interface ++ (clauseTail rule ++ commentWords rule.comment)))) := by
  have hinterface : InterfaceColumn rule.interface := by
    unfold FirewallRule.interface
    split
    next => exact h.interfaceOut
    next => exact h.interfaceIn
  have hwords : ∀ word ∈ ruleWords rule, word = "" ∨ Shlex.PlainWord word.toList :=
    forall_mem_ruleWords (fun _ hword => Or.inr hword) hinterface
      (fun cidr hcidr => Or.inr (h.srcCidr cidr hcidr).plainWord)
      (fun cidr hcidr => Or.inr (h.dstCidr cidr hcidr).plainWord)
  have hflags : (flagWords rule).filter (· ≠ "") = flagWords rule :=
    filter_eq_self.mpr fun word hword => decide_eq_true (h.ne_empty.1 word hword)
  have htail : (clauseTail rule).filter (· ≠ "") = clauseTail rule :=
    filter_eq_self.mpr fun word hword => decide_eq_true (h.ne_empty.2 word hword)
  rw [split_compileUfwRule_nonempty hwords, ruleWords_interface, filter_append,
    filter_append, hflags, htail, append_assoc, append_assoc]
  rfl

/-! ## Which commands are derivable -/

/-- The sentence of a rule, with its interface as part of the direction. -/
def FirewallRule.sentence (rule : FirewallRule) (action : UfwAction) : UfwSentence where
  action := action
  direction := if rule.direction = .out then some (.outbound, rule.interface) else none
  log := rule.log
  protocol := rule.protoWord
  src := some (rule.srcCidr.getD "any", portRange rule.srcPortStart rule.srcPortEnd)
  dst := some (rule.dstCidr.getD "any", portRange rule.dstPortStart rule.dstPortEnd)
  comment := if rule.comment = "" then none else some (unquoted rule.comment)

/-- The interface is absent, or named for an outgoing rule that is not logged. -/
def FirewallRule.interfaceFits (rule : FirewallRule) : Prop :=
  rule.interface = none ∨
    (rule.direction = .out ∧ rule.log = false ∧ rule.interface ≠ some "")

theorem words_sentence {action : UfwAction} (haction : rule.action.ufw = some action)
    (h : rule.interfaceFits) :
    (rule.sentence action).words = "ufw" :: rule.action.asStr :: (flagWords rule ++
      (interfaceWords rule.interface ++ (clauseTail rule ++ commentWords rule.comment))) := by
  have hword : action.word = rule.action.asStr := by
    cases hrule : rule.action <;> rw [hrule] at haction <;> cases haction <;> rfl
  have hclauses : (rule.sentence action).clauses =
      clauseTail rule ++ commentWords rule.comment := by
    rw [commentWords_eq]
    simp [UfwSentence.clauses, FirewallRule.sentence, clauseTail, addressWords]
  have hwords : (rule.sentence action).words = "ufw" :: action.word ::
      (directionWords (if rule.direction = .out then some (.outbound, rule.interface) else none) ++
        ((if rule.log then ["log"] else []) ++ (rule.sentence action).clauses)) := rfl
  rw [hwords, hclauses, hword, flagWords]
  rcases h with hnone | ⟨hout, hlog, hempty⟩
  · rw [hnone]
    split <;> simp [directionWords, interfaceWords, clauseWords, Flow.word]
  · cases hinterface : rule.interface with
    | none => simp [hout, directionWords, interfaceWords, clauseWords, Flow.word]
    | some name =>
      have hname : name ≠ "" := by
        rintro rfl
        exact hempty hinterface
      simp [hout, hlog, hname, directionWords, interfaceWords, clauseWords, Flow.word]

theorem FormRule.clauseTail_value (h : FormRule rule) :
    ∃ keyword value more, clauseTail rule = keyword :: value :: more ∧
      value ∉ "log" :: UfwSentence.clauseStarts := by
  have hinet : ∀ word ∈ "log" :: UfwSentence.clauseStarts, ¬ InetText word := by
    decide +kernel
  unfold clauseTail
  cases hproto : rule.protoWord with
  | some label =>
    refine ⟨"proto", label, _, rfl, ?_⟩
    rw [protoWord_eq] at hproto
    revert hproto
    cases rule.protocol <;> rintro ⟨⟩ <;> decide
  | none =>
    refine ⟨"from", rule.srcCidr.getD "any", _, rfl, ?_⟩
    cases hcidr : rule.srcCidr with
    | none => decide
    | some cidr => exact fun hmem => hinet cidr hmem (h.srcCidr cidr hcidr)

theorem FormRule.interfaceFits_of_words (h : FormRule rule) {sentence : UfwSentence}
    (hwords : sentence.words = "ufw" :: rule.action.asStr :: (flagWords rule ++
      (interfaceWords rule.interface ++ (clauseTail rule ++ commentWords rule.comment)))) :
    rule.interfaceFits := by
  cases hinterface : rule.interface with
  | none => exact Or.inl hinterface
  | some name =>
    have hon : interfaceWords (some name) = "on" :: [name].filter (· ≠ "") := rfl
    rw [hinterface, hon, flagWords] at hwords
    rcases h.direction with hin | hout
    · -- Nothing separates the interface from the action or the log word.
      have hnot : ¬ rule.direction = .out := by
        rw [hin]
        decide
      rw [if_neg hnot] at hwords
      cases hlog : rule.log with
      | true =>
        rw [hlog] at hwords
        exact absurd (UfwSentence.body_of_words hwords (by decide)) UfwSentence.body_ne_log_on
      | false =>
        rw [hlog] at hwords
        exact absurd (UfwSentence.body_of_words hwords (by decide)) UfwSentence.body_ne_on
    · rw [if_pos hout] at hwords
      cases hlog : rule.log with
      | true =>
        rw [hlog] at hwords
        rcases UfwSentence.words_out hwords with hbody | ⟨other, hother⟩
        · exact absurd hbody UfwSentence.body_ne_log_on
        · exact absurd (List.cons.inj hother).1 (by decide)
      | false =>
        refine Or.inr ⟨hout, hlog, ?_⟩
        rintro hempty
        obtain rfl : name = "" := Option.some.inj (hinterface.symm.trans hempty)
        -- The keyword of the next clause is taken for the name of the interface.
        rw [hlog] at hwords
        obtain ⟨keyword, value, more, htail, hvalue⟩ := h.clauseTail_value
        rw [htail] at hwords
        rcases UfwSentence.words_out hwords with hbody | ⟨other, hother⟩
        · exact absurd hbody UfwSentence.body_ne_on
        · have hbody := (List.cons.inj (List.cons.inj hother).2).2
          rcases UfwSentence.body_start hbody.symm with ⟨rfl, -⟩ | hstart
          · exact absurd (mem_cons_self) hvalue
          · exact absurd (mem_cons_of_mem _ hstart) hvalue

/-- The command of a rule is well-formed exactly when its interface fits. -/
theorem FormRule.wellFormed_iff (h : FormRule rule) :
    WellFormed rule ↔ rule.interfaceFits := by
  constructor
  · rintro ⟨sentence, hsplit, -⟩
    rw [h.split] at hsplit
    exact h.interfaceFits_of_words (Option.some.inj hsplit).symm
  · intro hfits
    obtain ⟨action, haction⟩ : ∃ action, rule.action.ufw = some action := by
      cases hrule : rule.action with
      | masquerade => exact absurd hrule h.action
      | allow => exact ⟨.allow, rfl⟩
      | deny => exact ⟨.deny, rfl⟩
      | reject => exact ⟨.reject, rfl⟩
      | limit => exact ⟨.limit, rfl⟩
    refine ⟨rule.sentence action, by rw [h.split, words_sentence haction hfits], ?_⟩
    intro habsent
    have hnone : rule.interface = none := by
      rcases hfits with hnone | ⟨-, -, hempty⟩
      · exact hnone
      · exact habsent.resolve_right hempty
    unfold FirewallRule.sentence UfwSentence.iface
    rw [hnone]
    split <;> rfl

/-! ## Rules as they are stored -/

section Stored

variable {inetText : String → Option String}

theorem createRuleInGroup_cidrs {user : AuthUser} {id groupId : Uuid}
    {req : RuleGroups.CreateRuleInGroupRequest} {db : Database} {rule : FirewallRule}
    (h : (RuleGroups.createRuleInGroup inetText user id groupId req db).1 = .ok rule) :
    castInet inetText req.srcCidr = some rule.srcCidr ∧
      castInet inetText req.dstCidr = some rule.dstCidr := by
  have hok := requireWrite_eq_ok (Prod.ext h rfl)
  split at hok
  next => cases hok
  next stored hstored =>
    split at hok
    next => cases hok
    next rules hrules =>
      obtain rfl := Except.ok.inj (congrArg Prod.fst hok)
      simp only [RuleGroups.newRule, Option.bind_eq_bind, Option.bind_eq_some_iff] at hstored
      obtain ⟨src, hsrc, _, -, dst, hdst, _, -, _, -, hrow⟩ := hstored
      split at hrow
      next =>
        cases hrow
        exact ⟨hsrc, hdst⟩
      next => cases hrow

theorem inetText_of_castInet (hinet : ∀ given text, inetText given = some text → InetText text)
    {given cidr : Option String} (h : castInet inetText given = some cidr) :
    ∀ text ∈ cidr, InetText text := by
  cases given with
  | none =>
    obtain rfl : none = cidr := Option.some.inj h
    exact fun text htext => absurd htext (Option.not_mem_none text)
  | some given =>
    obtain ⟨text, hcast, rfl⟩ := Option.map_eq_some_iff.mp h
    intro other hother
    obtain rfl := Option.some.inj hother
    exact hinet given text hcast

end Stored

/-- **The grammar of compiled rules.** Of the rules that are stored with an action of UFW, a
direction of the host and interfaces that are absent, empty or plain words, exactly those compile to
a well-formed command that have no interface for their direction, or are outgoing, not logged and
name one. -/
theorem stored_rule_grammar_iff (inetText : String → Option String)
    (hinet : ∀ given text, inetText given = some text → InetText text)
    (user : AuthUser) (id groupId : Uuid) (req : RuleGroups.CreateRuleInGroupRequest)
    (db : Database) (rule : FirewallRule)
    (hstored : (RuleGroups.createRuleInGroup inetText user id groupId req db).1 = .ok rule)
    (haction : rule.action ≠ .masquerade)
    (hdirection : rule.direction = .in ∨ rule.direction = .out)
    (hin : InterfaceColumn rule.interfaceIn) (hout : InterfaceColumn rule.interfaceOut) :
    WellFormed rule ↔
      rule.interface = none ∨
        (rule.direction = .out ∧ rule.log = false ∧ rule.interface ≠ some "") := by
  obtain ⟨hsrc, hdst⟩ := createRuleInGroup_cidrs hstored
  have hform : FormRule rule := {
    action := haction
    direction := hdirection
    interfaceIn := hin
    interfaceOut := hout
    srcCidr := inetText_of_castInet hinet hsrc
    dstCidr := inetText_of_castInet hinet hdst }
  exact hform.wellFormed_iff

/-- A cast that takes the texts of `inet` values as they are. -/
def plainInet (given : String) : Option String :=
  if InetText given then some given else none

/-- A request as the rule form sends it, with empty interfaces. -/
def formRequest : RuleGroups.CreateRuleInGroupRequest where
  name := "ssh"
  description := some ""
  action := .allow
  direction := .in
  protocol := .tcp
  srcCidr := some "10.0.0.0/8"
  srcPortStart := none
  srcPortEnd := none
  dstCidr := some "10.0.0.5/32"
  dstPortStart := some 22
  dstPortEnd := some 22
  interfaceIn := some ""
  interfaceOut := some ""
  comment := some ""
  log := some false
  priority := some 1000
  groupOrder := none

/-- The rule that is stored for such a request. -/
def formRule : FirewallRule :=
  { sshRule with
    id := ⟨5⟩, srcCidr := some "10.0.0.0/8", dstCidr := some "10.0.0.5/32",
    interfaceIn := some "", interfaceOut := some "", comment := "", priority := 1000 }

/-- The rule of the form is stored, and in its command the protocol keyword stands where the name of
an interface would. -/
theorem form_rule_not_derivable :
    (RuleGroups.createRuleInGroup plainInet someOperator ⟨5⟩ ⟨3⟩ formRequest smallFleet).1 =
        .ok formRule ∧
      Shlex.split (compileUfwRule formRule) =
        some ["ufw", "allow", "on", "proto", "tcp", "from", "10.0.0.0/8", "to", "10.0.0.5/32",
          "port", "22"] ∧
      ¬ ∃ sentence : UfwSentence,
        Shlex.split (compileUfwRule formRule) = some sentence.words := by
  have hstored : (RuleGroups.createRuleInGroup plainInet someOperator ⟨5⟩ ⟨3⟩ formRequest
      smallFleet).1 = .ok formRule := by decide +kernel
  have hsplit : Shlex.split (compileUfwRule formRule) =
      some ["ufw", "allow", "on", "proto", "tcp", "from", "10.0.0.0/8", "to", "10.0.0.5/32",
        "port", "22"] := by decide +kernel
  refine ⟨hstored, hsplit, ?_⟩
  rintro ⟨sentence, hwords⟩
  rw [hsplit] at hwords
  exact UfwSentence.body_ne_on
    (UfwSentence.body_of_words (Option.some.inj hwords).symm (by decide))

/-- An outgoing rule on a named interface is stored and compiles to a well-formed command. -/
theorem outgoing_rule_derivable :
    (RuleGroups.createRuleInGroup plainInet someOperator ⟨5⟩ ⟨3⟩
        { formRequest with direction := .out, interfaceOut := some "eth0" } smallFleet).1 =
        .ok { formRule with direction := .out, interfaceOut := some "eth0" } ∧
      WellFormed { formRule with direction := .out, interfaceOut := some "eth0" } := by
  have hstored : (RuleGroups.createRuleInGroup plainInet someOperator ⟨5⟩ ⟨3⟩
      { formRequest with direction := .out, interfaceOut := some "eth0" } smallFleet).1 =
      .ok { formRule with direction := .out, interfaceOut := some "eth0" } := by decide +kernel
  have hinet : ∀ given text, plainInet given = some text → InetText text := by
    intro given text h
    unfold plainInet at h
    split at h
    next hgiven =>
      obtain rfl := Option.some.inj h
      exact hgiven
    next => cases h
  have hin : InterfaceColumn (some "") := by
    rintro name ⟨⟩
    exact Or.inl rfl
  have hout : InterfaceColumn (some "eth0") := by
    rintro name ⟨⟩
    exact Or.inr (by decide)
  exact ⟨hstored, (stored_rule_grammar_iff plainInet hinet someOperator ⟨5⟩ ⟨3⟩ _ smallFleet _
    hstored (by decide) (Or.inr rfl) hin hout).mpr (Or.inr ⟨rfl, rfl, by decide⟩)⟩

end FirewallManager
