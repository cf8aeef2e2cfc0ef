import FirewallManager.Core.Wire
import FirewallManager.Ufw.CompiledRule

/-!
# Reading a compiled rule back

The command line of a rule names its clauses in a fixed order and leaves out those that the rule
does not need. `decodeRule` reads the words of a command back: it takes a clause if the next word is
its keyword. `decodeRule_words` says that this gives back what the rule says, and `compile_lossless`
that no two rules of the table that say different things have the same argument vector.
-/

namespace FirewallManager

/-- Take a keyword off the words if it comes next. -/
def takeFlag (keyword : String) : List String → Bool × List String
  | word :: words => if word = keyword then (true, words) else (false, word :: words)
  | [] => (false, [])

/-- Take a keyword and its value off the words if the keyword comes next. -/
def takeClause (keyword : String) : List String → Option String × List String
  | word :: value :: words =>
    if word = keyword then (some value, words) else (none, word :: value :: words)
  | words => (none, words)

/-- What a rule says to UFW: all but its id, its name and description, the interface of the other
direction and its priority. The comment is without single quotes. -/
structure RuleContent where
  action : FirewallAction
  direction : FirewallDirection
  log : Bool
  interface : Option String
  protocol : FirewallProtocol
  srcCidr : Option String
  srcPortStart : Option Int
  srcPortEnd : Option Int
  dstCidr : Option String
  dstPortStart : Option Int
  dstPortEnd : Option Int
  comment : String
  deriving DecidableEq, Repr

/-- A comment without its single quotes. -/
def unquoted (comment : String) : String :=
  String.ofList (comment.toList.filter (· != '\''))

/-- What the command of a rule tells about it. -/
def FirewallRule.content (rule : FirewallRule) : RuleContent where
  action := rule.action
  direction := rule.direction
  log := rule.log
  interface := rule.interface
  protocol := rule.protocol
  srcCidr := rule.srcCidr
  srcPortStart := rule.srcPortStart
  srcPortEnd := rule.srcPortEnd
  dstCidr := rule.dstCidr
  dstPortStart := rule.dstPortStart
  dstPortEnd := rule.dstPortEnd
  comment := unquoted rule.comment

/-- The network of a `from` or `to` clause. -/
def decodeCidr (word : String) : Option String :=
  if word = "any" then none else some word

/-- The ports of a `port` clause, none without one. -/
def decodePorts : Option String → Option (Option (Nat × Nat))
  | none => some none
  | some word => (portsOfWord word).map some

/-- Read the words of a rule command. -/
def decodeRule : List String → Option RuleContent
  | "ufw" :: action :: words => do
      let (out, words) := takeFlag "out" words
      let (log, words) := takeFlag "log" words
      let (interface, words) := takeClause "on" words
      let (protocol, words) := takeClause "proto" words
      let (src, words) := takeClause "from" words
      let (srcPorts, words) := takeClause "port" words
      let (dst, words) := takeClause "to" words
      let (dstPorts, words) := takeClause "port" words
      let (comment, words) := takeClause "comment" words
      let src ← src
      let dst ← dst
      let srcPorts ← decodePorts srcPorts
      let dstPorts ← decodePorts dstPorts
      if words = [] then
        some {
          action := actionOfText action
          direction := if out then .out else .in
          log := log
          interface := interface
          protocol := protocolOfText (protocol.getD "any")
          srcCidr := decodeCidr src
          srcPortStart := srcPorts.map fun ports => (ports.1 : Int)
          srcPortEnd := srcPorts.map fun ports => (ports.2 : Int)
          dstCidr := decodeCidr dst
          dstPortStart := dstPorts.map fun ports => (ports.1 : Int)
          dstPortEnd := dstPorts.map fun ports => (ports.2 : Int)
          comment := comment.getD "" }
      else none
  | _ => none

/-- The text form of an `inet` value: address characters and the slash of a prefix length. -/
def InetText (text : String) : Prop :=
  text.toList ≠ [] ∧ ∀ c ∈ text.toList, isAddrChar c = true ∨ c = '/'

/-- It is recognised by one pass over its characters. -/
instance (text : String) : Decidable (InetText text) :=
  decidable_of_iff (text.toList ≠ [] ∧ text.toList.all (fun c => isAddrChar c || c == '/') = true)
    (by simp [InetText])

/-- The port columns are those of a range, or both absent. -/
def PortColumns (start stop : Option Int) : Prop :=
  ∃ range : Option PortRange, start = range.map PortRange.start ∧ stop = range.map PortRange.stop

/-- The rule satisfies the constraints of `firewall_rules`, is for one of the directions of the
host, and its interfaces are absent or plain words. -/
structure TableRule (rule : FirewallRule) : Prop where
  direction : rule.direction = .in ∨ rule.direction = .out
  srcCidr : ∀ cidr ∈ rule.srcCidr, InetText cidr
  dstCidr : ∀ cidr ∈ rule.dstCidr, InetText cidr
  srcPorts : PortColumns rule.srcPortStart rule.srcPortEnd
  dstPorts : PortColumns rule.dstPortStart rule.dstPortEnd
  interfaceIn : ∀ name ∈ rule.interfaceIn, Shlex.PlainWord name.toList
  interfaceOut : ∀ name ∈ rule.interfaceOut, Shlex.PlainWord name.toList

/-! ## The clauses -/

section Clauses

variable {keyword other : String} {rest : List String}

theorem takeFlag_append (present : Bool) (h : rest.head? ≠ some keyword) :
    takeFlag keyword ((if present then [keyword] else []) ++ rest) = (present, rest) := by
  cases present with
  | true => simp [takeFlag]
  | false =>
    cases rest with
    | nil => rfl
    | cons word words =>
      have hword : word ≠ keyword := fun heq => h (congrArg some heq)
      simp [takeFlag, hword]

theorem takeClause_append (value : Option String) (h : rest.head? ≠ some keyword) :
    takeClause keyword (clauseWords keyword value ++ rest) = (value, rest) := by
  cases value with
  | some value => simp [takeClause, clauseWords]
  | none =>
    cases rest with
    | nil => rfl
    | cons word rest =>
      have hword : word ≠ keyword := fun heq => h (congrArg some heq)
      cases rest with
      | nil => rfl
      | cons next words => simp [takeClause, clauseWords, hword]

theorem head?_clauseWords_ne (value : Option String) (hne : keyword ≠ other)
    (h : rest.head? ≠ some other) : (clauseWords keyword value ++ rest).head? ≠ some other := by
  cases value with
  | some value => simpa [clauseWords] using hne
  | none => exact h

theorem head?_flag_ne (present : Bool) (hne : keyword ≠ other) (h : rest.head? ≠ some other) :
    ((if present then [keyword] else []) ++ rest).head? ≠ some other := by
  cases present with
  | true => simpa using hne
  | false => exact h

end Clauses

theorem commentWords_eq (comment : String) :
    commentWords comment =
      clauseWords "comment" (if comment = "" then none else some (unquoted comment)) := by
  unfold commentWords
  split <;> rfl

theorem decodeCidr_getD {cidr : Option String} (h : ∀ text ∈ cidr, InetText text) :
    decodeCidr (cidr.getD "any") = cidr := by
  cases cidr with
  | none => rfl
  | some text =>
    have hany : text ≠ "any" := by
      rintro rfl
      have hn := (h "any" rfl).2 'n' (by decide)
      exact absurd hn (by decide)
    exact if_neg hany

theorem decodePorts_portRange {start stop : Option Int} (h : PortColumns start stop) :
    ∃ ports, decodePorts (portRange start stop) = some ports ∧
      (ports.map fun ports => (ports.1 : Int)) = start ∧
      (ports.map fun ports => (ports.2 : Int)) = stop := by
  obtain ⟨range, rfl, rfl⟩ := h
  cases range with
  | none => exact ⟨none, rfl, rfl, rfl⟩
  | some range =>
    have hlow := range.one_le_start
    have hle := range.start_le_stop
    have hhigh := range.stop_le
    have hread : decodePorts (portRange (some range.start) (some range.stop)) =
        ufwPorts (some range.start) (some range.stop) := portsOfWord_portRange _ _
    have hports : ufwPorts (some range.start) (some range.stop) =
        some (some (range.start.toNat, range.stop.toNat)) :=
      if_pos ⟨hlow, hle, hhigh⟩
    refine ⟨some (range.start.toNat, range.stop.toNat), hread.trans hports, ?_, ?_⟩
    · show some (range.start.toNat : Int) = some range.start
      rw [Int.toNat_of_nonneg (by omega)]
    · show some (range.stop.toNat : Int) = some range.stop
      rw [Int.toNat_of_nonneg (by omega)]

/-! ## The rule -/

theorem InetText.plainWord {text : String} (h : InetText text) :
    Shlex.PlainWord text.toList := by
  refine ⟨h.1, ?_, ?_⟩
  · intro c hc
    rcases h.2 c hc with haddr | rfl
    · exact isPlain_of_isAddrChar haddr
    · decide
  · intro hhash
    have hmem : '#' ∈ text.toList := List.mem_of_mem_head? hhash
    exact absurd (h.2 '#' hmem) (by decide)

theorem TableRule.plainFields {rule : FirewallRule} (h : TableRule rule) : PlainFields rule := by
  refine ⟨?_, fun cidr hmem => (h.srcCidr cidr hmem).plainWord,
    fun cidr hmem => (h.dstCidr cidr hmem).plainWord⟩
  intro name hname
  unfold FirewallRule.interface at hname
  split at hname
  next => exact h.interfaceOut name hname
  next => exact h.interfaceIn name hname

theorem ruleWords_clauses (rule : FirewallRule) :
    ruleWords rule ++ commentWords rule.comment =
      (if decide (rule.direction = .out) then ["out"] else []) ++
        ((if rule.log then ["log"] else []) ++
          (clauseWords "on" rule.interface ++ (clauseWords "proto" rule.protoWord ++
            (clauseWords "from" (some (rule.srcCidr.getD "any")) ++
              (clauseWords "port" (portRange rule.srcPortStart rule.srcPortEnd) ++
                (clauseWords "to" (some (rule.dstCidr.getD "any")) ++
                  (clauseWords "port" (portRange rule.dstPortStart rule.dstPortEnd) ++
                    (clauseWords "comment" (if rule.comment = "" then none
                      else some (unquoted rule.comment)) ++ [])))))))) := by
  rw [commentWords_eq]
  simp [ruleWords, clauseWords]

theorem decodeRule_words {rule : FirewallRule} (h : TableRule rule) :
    decodeRule ("ufw" :: rule.action.asStr :: (ruleWords rule ++ commentWords rule.comment)) =
      some rule.content := by
  obtain ⟨srcPorts, hsrc, hsrcStart, hsrcEnd⟩ := decodePorts_portRange h.srcPorts
  obtain ⟨dstPorts, hdst, hdstStart, hdstEnd⟩ := decodePorts_portRange h.dstPorts
  have hprotocol : protocolOfText (rule.protoWord.getD "any") = rule.protocol := by
    rw [protoWord_eq]
    cases rule.protocol <;> rfl
  have haction : actionOfText rule.action.asStr = rule.action := by
    cases rule.action <;> rfl
  have hdirection : (if decide (rule.direction = .out) then FirewallDirection.out else .in) =
      rule.direction := by
    rcases h.direction with hin | hout
    · rw [hin]
      rfl
    · rw [hout]
      rfl
  have hcomment : ((if rule.comment = "" then none else some (unquoted rule.comment)).getD "") =
      unquoted rule.comment := by
    split
    next hempty =>
      rw [hempty]
      rfl
    next => rfl
  -- Every clause is followed by one with another keyword, or by nothing.
  have hnil (keyword : String) : ([] : List String).head? ≠ some keyword := by
    intro h
    cases h
  have hfrom {keyword : String} (value : String) (rest : List String) (hne : "from" ≠ keyword) :
      (clauseWords "from" (some value) ++ rest).head? ≠ some keyword := by
    simpa [clauseWords] using hne
  have hto {keyword : String} (value : String) (rest : List String) (hne : "to" ≠ keyword) :
      (clauseWords "to" (some value) ++ rest).head? ≠ some keyword := by
    simpa [clauseWords] using hne
  rw [ruleWords_clauses, decodeRule,
    takeFlag_append _ (head?_flag_ne _ (by decide) (head?_clauseWords_ne _ (by decide)
      (head?_clauseWords_ne _ (by decide) (hfrom _ _ (by decide)))))]
  dsimp only
  rw [takeFlag_append _ (head?_clauseWords_ne _ (by decide)
    (head?_clauseWords_ne _ (by decide) (hfrom _ _ (by decide))))]
  dsimp only
  rw [takeClause_append _ (head?_clauseWords_ne _ (by decide) (hfrom _ _ (by decide)))]
  dsimp only
  rw [takeClause_append _ (hfrom _ _ (by decide))]
  dsimp only
  rw [takeClause_append _ (head?_clauseWords_ne _ (by decide) (hto _ _ (by decide)))]
  dsimp only
  rw [takeClause_append _ (hto _ _ (by decide))]
  dsimp only
  rw [takeClause_append _ (head?_clauseWords_ne _ (by decide)
    (head?_clauseWords_ne _ (by decide) (hnil _)))]
  dsimp only
  rw [takeClause_append _ (head?_clauseWords_ne _ (by decide) (hnil _))]
  dsimp only
  rw [takeClause_append _ (hnil _)]
  simp only [Option.bind_eq_bind, Option.bind_some, hsrc, hdst, hsrcStart, hsrcEnd, hdstStart,
    hdstEnd, haction, hdirection, hprotocol, hcomment, decodeCidr_getD h.srcCidr,
    decodeCidr_getD h.dstCidr, if_true]
  rfl

/-- **The compiler loses nothing.** The command of a rule of the table is split into words, and they
are read back as what the rule says. So two rules that say different things have different argument
vectors. -/
theorem compile_lossless (rule : FirewallRule) (h : TableRule rule) :
    (∃ words, Shlex.split (compileUfwRule rule) = some words ∧
        decodeRule words = some rule.content) ∧
      ∀ other, TableRule other → other.content ≠ rule.content →
        Shlex.split (compileUfwRule other) ≠ Shlex.split (compileUfwRule rule) := by
  refine ⟨⟨_, split_compileUfwRule h.plainFields, decodeRule_words h⟩, ?_⟩
  intro other hother hne hsame
  rw [split_compileUfwRule hother.plainFields, split_compileUfwRule h.plainFields] at hsame
  have hcontent := decodeRule_words hother
  rw [Option.some.inj hsame, decodeRule_words h] at hcontent
  exact hne (Option.some.inj hcontent).symm

/-- An outgoing rule on an interface that is called like a keyword, with a comment that has quotes,
a backslash, a line feed, a hash and a letter outside ASCII. -/
def trickyRule : FirewallRule :=
  { sshRule with
    direction := .out, interfaceOut := some "proto", srcCidr := some "10.0.0.0/8",
    srcPortStart := some 1024, srcPortEnd := some 65535, log := true,
    comment := "it's \"a\\b\"\n# ü" }

theorem tableRule_tricky {name : Option String}
    (hname : ∀ word ∈ name, Shlex.PlainWord word.toList) :
    TableRule { trickyRule with interfaceOut := name } where
  direction := Or.inr rfl
  srcCidr := by
    intro cidr hcidr
    obtain rfl := Option.some.inj hcidr
    decide +kernel
  dstCidr := by
    intro cidr hcidr
    cases hcidr
  srcPorts := ⟨some ⟨1024, 65535, by omega, by omega, by omega⟩, rfl, rfl⟩
  dstPorts := ⟨some ⟨22, 22, by omega, by omega, by omega⟩, rfl, rfl⟩
  interfaceIn := by
    intro word hword
    cases hword
  interfaceOut := hname

/-- The same rule without the interface has another argument vector. -/
theorem tricky_rule_lossless :
    ((Shlex.split (compileUfwRule trickyRule)).bind decodeRule).map RuleContent.comment =
        some "its \"a\\b\"\n# ü" ∧
      Shlex.split (compileUfwRule { trickyRule with interfaceOut := none }) ≠
        Shlex.split (compileUfwRule trickyRule) := by
  have hproto : ∀ word ∈ some "proto", Shlex.PlainWord word.toList := by
    intro word hword
    obtain rfl := Option.some.inj hword
    decide
  have hnone : ∀ word ∈ (none : Option String), Shlex.PlainWord word.toList := by
    intro word hword
    cases hword
  obtain ⟨⟨words, hsplit, hdecoded⟩, hdifferent⟩ :=
    compile_lossless trickyRule (tableRule_tricky hproto)
  refine ⟨?_, hdifferent _ (tableRule_tricky hnone) (by decide +kernel)⟩
  rw [hsplit, Option.bind_some, hdecoded]
  decide +kernel

end FirewallManager
