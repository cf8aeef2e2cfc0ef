import FirewallManager.Agent.Ufw

/-!
# The firewalld backend

`firewalldCompile` turns a ruleset into one `--add-rich-rule` command per rule. There is no
umbilical and no default policy, so the apply context is not read. `firewalldApply` runs the
commands, reloads firewalld and hashes its listing. Unlike the UFW backend it does not reset
anything first.

The loop over the commands is that of the UFW backend, and an apply reports its counters
(`firewalldApply_eq`).
-/

namespace FirewallManager

open List

/-- The action of a rich rule. firewalld has no `limit` of its own. -/
def firewalldActionWord : FirewallAction → String
  | .allow => "accept"
  | .deny => "drop"
  | .reject => "reject"
  | .limit => "accept"
  | .masquerade => "masquerade"

/-- The command line of one rule. Of a port range only the first port is used, and destination,
source ports, interfaces, direction, logging and comment are not written at all. -/
def compileFirewalldRule (rule : FirewallRule) : String :=
  let action := firewalldActionWord rule.action
  let proto := rule.protoWord.getD "all"
  let src := rule.srcCidr.getD "0.0.0.0/0"
  let port := (rule.dstPortStart.map toString).getD ""
  if port = "" then
    "firewall-cmd --permanent --add-rich-rule='rule family=ipv4 source address=\"" ++ src ++
      "\" " ++ action ++ "'"
  else
    "firewall-cmd --permanent --add-rich-rule='rule family=ipv4 source address=\"" ++ src ++
      "\" port port=\"" ++ port ++ "\" protocol=\"" ++ proto ++ "\" " ++ action ++ "'"

/-- The command list of one apply. The context is accepted and not used. -/
def firewalldCompile (rules : List FirewallRule) (_ctx : ApplyContext) : CompiledRules where
  commands := rules.map compileFirewalldRule

/-- The normalised lines of `firewall-cmd --list-all`: trimmed, blanks dropped, sorted. -/
def firewalldListLines (stdout : String) : List String :=
  (((Text.lines stdout).map Text.trim).filter (· ≠ "")).mergeSort (· ≤ ·)

/-- The text of the rich rule, which the command of a rule has between quotes. -/
def richRuleText (rule : FirewallRule) : String :=
  "rule family=ipv4 source address=\"" ++ rule.srcCidr.getD "0.0.0.0/0" ++
    (match rule.dstPortStart with
      | none => "\" "
      | some port => "\" port port=\"" ++ toString port ++ "\" protocol=\"" ++
          rule.protoWord.getD "all" ++ "\" ") ++
    firewalldActionWord rule.action

theorem compileFirewalldRule_toList (rule : FirewallRule) :
    (compileFirewalldRule rule).toList =
      ["firewall-cmd", "--permanent"].flatMap (·.toList ++ [' ']) ++
        ("--add-rich-rule=".toList ++ '\'' :: ((richRuleText rule).toList ++ ['\''])) := by
  have hstart :
      "firewall-cmd --permanent --add-rich-rule='rule family=ipv4 source address=\"".toList =
        ["firewall-cmd", "--permanent"].flatMap (·.toList ++ [' ']) ++
          ("--add-rich-rule=".toList ++ '\'' :: "rule family=ipv4 source address=\"".toList) := by
    simp only [flatMap_cons, flatMap_nil]
    repeat rw [String.toList_ofList]
    rfl
  have hquote : "'".toList = ['\''] := rfl
  delta compileFirewalldRule richRuleText
  cases rule.dstPortStart with
  | none =>
    simp only [Option.map_none, Option.getD_none, if_true, String.toList_append, hstart, hquote,
      append_assoc, cons_append]
  | some port =>
    simp only [Option.map_some, Option.getD_some, if_neg (Text.toString_ne_empty port),
      String.toList_append, hstart, hquote, append_assoc, cons_append]

theorem split_compileFirewalldRule {rule : FirewallRule} {words : List String}
    (h : Shlex.split (compileFirewalldRule rule) = some words) :
    ∃ text more, words =
      "firewall-cmd" :: "--permanent" :: ("--add-rich-rule=" ++ text) :: more := by
  have hwords : ∀ w ∈ ["firewall-cmd", "--permanent"], Shlex.PlainWord w.toList := by decide
  have hstart : Shlex.PlainWord "--add-rich-rule=".toList := by decide
  exact Shlex.split_words_start hwords hstart (compileFirewalldRule_toList rule) h

theorem quote_not_mem_richRuleText {rule : FirewallRule}
    (h : ∀ cidr ∈ rule.srcCidr, '\'' ∉ cidr.toList) : '\'' ∉ (richRuleText rule).toList := by
  have hsrc : '\'' ∉ (rule.srcCidr.getD "0.0.0.0/0").toList := by
    cases hcidr : rule.srcCidr with
    | none => decide
    | some cidr => exact h cidr hcidr
  have haction : '\'' ∉ (firewalldActionWord rule.action).toList := by
    cases rule.action <;> decide
  have hproto : '\'' ∉ (rule.protoWord.getD "all").toList := by
    rw [FirewallRule.protoWord]
    cases rule.protocol <;> decide
  have hstart : '\'' ∉ "rule family=ipv4 source address=\"".toList := by
    rw [String.toList_ofList]
    decide
  have hend : '\'' ∉ "\" ".toList := by decide
  delta richRuleText
  cases rule.dstPortStart with
  | none =>
    simp only [String.toList_append, mem_append, hstart, hsrc, hend, haction, or_self,
      not_false_eq_true]
  | some port =>
    have hport : '\'' ∉ (toString port).toList := fun hmem =>
      absurd (Text.isDigit_or_minus_of_mem_toString hmem) (by decide)
    have hportWord : '\'' ∉ "\" port port=\"".toList := by decide
    have hprotoWord : '\'' ∉ "\" protocol=\"".toList := by decide
    simp only [String.toList_append, mem_append, hstart, hsrc, hportWord, hport, hprotoWord,
      hproto, hend, haction, or_self, not_false_eq_true]

theorem split_compileFirewalldRule_quoted {rule : FirewallRule}
    (hcidr : ∀ cidr ∈ rule.srcCidr, '\'' ∉ cidr.toList) :
    Shlex.split (compileFirewalldRule rule) =
      some ["firewall-cmd", "--permanent", "--add-rich-rule=" ++ richRuleText rule] := by
  have hwords : ∀ w ∈ ["firewall-cmd", "--permanent"], Shlex.PlainWord w.toList := by decide
  have hstart : Shlex.PlainWord "--add-rich-rule=".toList := by decide
  have h := quote_not_mem_richRuleText hcidr
  have hquote (acc : List Char) : Shlex.lex .word acc
      ('\'' :: ((richRuleText rule).toList ++ ['\''])) =
        some [acc.reverse ++ (richRuleText rule).toList] := by
    have hopen (rest : List Char) :
        Shlex.lex .word acc ('\'' :: rest) = Shlex.lex .single acc rest := rfl
    rw [hopen, Shlex.lex_single h, Shlex.lex]
    simp
  rw [Shlex.split, compileFirewalldRule_toList, Shlex.lex_plain_words hwords,
    Shlex.lex_gap_plain hstart, hquote]
  simp only [reverse_reverse, Option.map_some, map_cons, map_nil,
    String.ofList_toList, String.ofList_append, cons_append, nil_append]

section Machine

variable {σ : Type} (sha256 : List UInt8 → List UInt8) (machine : Machine σ)

/-- The normalised listing of the live rules. A failed listing gives an empty hash. -/
def firewalldSnapshot (world : World σ) : Except BackendError NormalizedSnapshot × World σ :=
  let (output, world') := runCmd machine "firewall-cmd" ["--list-all"] world
  if output.success then
    let lines := firewalldListLines output.stdout
    (.ok ⟨lines, snapshotHash sha256 lines⟩, world')
  else (.ok ⟨[], ""⟩, world')

/-- Run the commands on the firewall as it is, reload it and hash its new listing. -/
def firewalldApply (compiled : CompiledRules) (world : World σ) :
    Except BackendError ApplyResult × World σ :=
  let (tally, world) := runCommands machine compiled.commands ⟨0, 0, []⟩ world
  let (_, world) := runCmd machine "firewall-cmd" ["--reload"] world
  match firewalldSnapshot sha256 machine world with
  | (.ok snapshot, world) =>
    (.ok ⟨tally.applied, tally.failed, snapshot.hash, tally.error⟩, world)
  | (.error e, world) => (.error e, world)

/-- Reset the public zone. A zone that is at its defaults already counts as reset. -/
def firewalldReset (world : World σ) : Except BackendError Unit × World σ :=
  let (output, world) :=
    runCmd machine "firewall-cmd" ["--permanent", "--load-zone-defaults=public"] world
  if output.success || Text.contains "NO_DEFAULTS" output.stderr then
    let (_, world) := runCmd machine "firewall-cmd" ["--reload"] world
    (.ok (), world)
  else (.error (.commandFailed output.stderr), world)

/-- The state firewalld reports about itself. The default zone stands for both defaults. -/
def firewalldStatus (world : World σ) : Except BackendError BackendStatus × World σ :=
  let (state, world) := runCmd machine "firewall-cmd" ["--state"] world
  let (zone, world) := runCmd machine "firewall-cmd" ["--get-default-zone"] world
  let defaultZone := if zone.success then Text.trim zone.stdout else "public"
  (.ok {
    active := state.success && Text.trim state.stdout == "running"
    defaultPolicyIn := defaultZone
    defaultPolicyOut := defaultZone }, world)

/-- The firewalld backend. -/
def firewalldBackend : FirewallBackend σ where
  name := "firewalld"
  compile := fun rules ctx => .ok (firewalldCompile rules ctx)
  apply := firewalldApply sha256 machine
  snapshot := firewalldSnapshot sha256 machine
  reset := firewalldReset machine
  status := firewalldStatus machine

theorem firewalldSnapshot_eq (world : World σ) :
    ∃ snapshot, firewalldSnapshot sha256 machine world =
      (.ok snapshot, (runCmd machine "firewall-cmd" ["--list-all"] world).2) := by
  simp only [firewalldSnapshot]
  split
  next => exact ⟨_, rfl⟩
  next => exact ⟨_, rfl⟩

theorem firewalldSnapshot_hash {world : World σ} {snapshot : NormalizedSnapshot}
    (h : (firewalldSnapshot sha256 machine world).1 = .ok snapshot) :
    ∃ bytes, snapshot.hash = Text.hexEncode bytes := by
  simp only [firewalldSnapshot] at h
  split at h
  next =>
    obtain rfl := Except.ok.inj h
    exact ⟨_, rfl⟩
  next =>
    obtain rfl := Except.ok.inj h
    exact ⟨[], rfl⟩

theorem firewalldApply_hash {compiled : CompiledRules} {world : World σ} {result : ApplyResult}
    (h : (firewalldApply sha256 machine compiled world).1 = .ok result) :
    ∃ bytes, result.snapshotHash = Text.hexEncode bytes := by
  simp only [firewalldApply] at h
  split at h
  next snapshot after hsnapshot =>
    obtain rfl := Except.ok.inj h
    exact firewalldSnapshot_hash sha256 machine (congrArg Prod.fst hsnapshot)
  next => cases h

theorem firewalldApply_eq (compiled : CompiledRules) (world : World σ) :
    ∃ hash, firewalldApply sha256 machine compiled world =
      (.ok ⟨(runCommands machine compiled.commands ⟨0, 0, []⟩ world).1.applied,
          (runCommands machine compiled.commands ⟨0, 0, []⟩ world).1.failed, hash,
          (runCommands machine compiled.commands ⟨0, 0, []⟩ world).1.error⟩,
        (runCmd machine "firewall-cmd" ["--list-all"] (runCmd machine "firewall-cmd" ["--reload"]
          (runCommands machine compiled.commands ⟨0, 0, []⟩ world).2).2).2) := by
  obtain ⟨snapshot, hsnapshot⟩ := firewalldSnapshot_eq sha256 machine (runCmd machine
    "firewall-cmd" ["--reload"] (runCommands machine compiled.commands ⟨0, 0, []⟩ world).2).2
  exact ⟨snapshot.hash, by simp only [firewalldApply, hsnapshot]⟩

end Machine

end FirewallManager
