import FirewallManager.Agent.UfwText
import FirewallManager.Core.Wire

/-!
# What the drift hash sees of a rule

A host is converged for the manager when the hash of its cached ruleset is the hash of the
assigned rows. The command of a rule is built from more than the hashed fields: the log flag,
the interface, the source ports, the end of the destination range and the comment are read by
`compileUfwRule` and not by the hash.

`compileUfwRule_eq_iff` says exactly what is missing: among rules with the same hashed fields,
the commands agree exactly when the unhashed parts do. So the answer "unchanged" vouches for
the installed commands only of an empty policy (`rulesUnchanged_faithful_iff`).
-/

namespace FirewallManager

open List

/-- What `compileUfwRule` reads of a rule beyond the fields of the drift hash. -/
structure UnhashedParts where
  log : Bool
  interface : Option String
  srcRange : Option String
  dstRange : Option String
  comment : String
  deriving DecidableEq, Repr

/-- The unhashed parts of a rule, as its command shows them. -/
def FirewallRule.unhashedParts (rule : FirewallRule) : UnhashedParts where
  log := rule.log
  interface := rule.interface
  srcRange := portRange rule.srcPortStart rule.srcPortEnd
  dstRange := portRange rule.dstPortStart rule.dstPortEnd
  comment := commentClause rule.comment

theorem FirewallAction.asStr_injective : Function.Injective FirewallAction.asStr := by
  intro a b h
  rw [asStr_eq_sqlLabel, asStr_eq_sqlLabel] at h
  rw [← actionOfText_sqlLabel a, h, actionOfText_sqlLabel]

theorem FirewallDirection.asStr_injective : Function.Injective FirewallDirection.asStr := by
  intro a b h
  rw [asStr_eq_sqlLabel, asStr_eq_sqlLabel] at h
  rw [← directionOfText_sqlLabel a, h, directionOfText_sqlLabel]

theorem FirewallProtocol.asStr_injective : Function.Injective FirewallProtocol.asStr := by
  intro a b h
  rw [asStr_eq_sqlLabel, asStr_eq_sqlLabel] at h
  rw [← protocolOfText_sqlLabel a, h, protocolOfText_sqlLabel]

theorem enums_eq_of_hashParts_eq {rule rule' : FirewallRule}
    (h : rule.hashParts = rule'.hashParts) :
    rule.action = rule'.action ∧ rule.direction = rule'.direction ∧
      rule.protocol = rule'.protocol ∧ rule.srcCidr = rule'.srcCidr ∧
      rule.dstCidr = rule'.dstCidr := by
  simp only [FirewallRule.hashParts, RuleHashParts.mk.injEq] at h
  obtain ⟨-, haction, hdirection, hprotocol, hsrc, hdst, -⟩ := h
  exact ⟨FirewallAction.asStr_injective haction, FirewallDirection.asStr_injective hdirection,
    FirewallProtocol.asStr_injective hprotocol, hsrc, hdst⟩

theorem compileUfwRule_eq_iff {rule rule' : FirewallRule}
    (hhash : rule.hashParts = rule'.hashParts) (hblank : BlankFree rule.interface)
    (hblank' : BlankFree rule'.interface) :
    compileUfwRule rule = compileUfwRule rule' ↔ rule.unhashedParts = rule'.unhashedParts := by
  obtain ⟨haction, hdirection, hprotocol, hsrc, hdst⟩ := enums_eq_of_hashParts_eq hhash
  have hhead : actionHead rule = actionHead rule' := by
    rw [actionHead, actionHead, haction, hdirection]
  have hproto : rule.protoWord = rule'.protoWord := by
    rw [FirewallRule.protoWord, FirewallRule.protoWord, hprotocol]
  constructor
  · intro h
    have hchars := congrArg String.toList h
    rw [compileUfwRule_toList, compileUfwRule_toList, hhead,
      append_cancel_left_eq] at hchars
    -- Peel the clauses off one by one. The hashed texts in between cancel.
    obtain ⟨hlog, hchars⟩ := logWord_append_inj (second_on_ne rule) (second_on_ne rule') hchars
    obtain ⟨hon, hchars⟩ := clause_append_inj hblank hblank' (protoTail_start rule).1
      (protoTail_start rule').1 (by decide)
      (by rcases (protoTail_start rule).2 with h | h <;> rw [h] <;> decide)
      (by rcases (protoTail_start rule').2 with h | h <;> rw [h] <;> decide) hchars
    rw [protoTail, protoTail, hproto, hsrc, append_cancel_left_eq,
      append_cancel_left_eq, srcTail, srcTail] at hchars
    obtain ⟨hsport, hchars⟩ := clause_append_inj (portRange_blankFree _ _)
      (portRange_blankFree _ _) (toTail_start rule).1 (toTail_start rule').1 (by decide)
      (by rw [(toTail_start rule).2]; decide) (by rw [(toTail_start rule').2]; decide) hchars
    delta toTail at hchars
    rw [hdst, append_cancel_left_eq, dstTail, dstTail] at hchars
    obtain ⟨hdport, hchars⟩ := clause_append_inj (portRange_blankFree _ _)
      (portRange_blankFree _ _) (commentClause_delimited _).1 (commentClause_delimited _).1
      (by decide) (commentClause_delimited _).2 (commentClause_delimited _).2 hchars
    rw [FirewallRule.unhashedParts, FirewallRule.unhashedParts, hlog, hon, hsport, hdport,
      String.toList_inj.mp hchars]
  · intro h
    simp only [FirewallRule.unhashedParts, UnhashedParts.mk.injEq] at h
    obtain ⟨hlog, hon, hsport, hdport, hcomment⟩ := h
    apply String.toList_inj.mp
    rw [compileUfwRule_toList, compileUfwRule_toList, hhead, hlog, hon]
    delta protoTail srcTail toTail dstTail
    rw [hproto, hsrc, hdst, hsport, hdport, hcomment]

theorem map_compileUfwRule_eq_iff {rules rules' : List FirewallRule}
    (hhash : rules.map FirewallRule.hashParts = rules'.map FirewallRule.hashParts)
    (hblank : ∀ rule ∈ rules, BlankFree rule.interface)
    (hblank' : ∀ rule ∈ rules', BlankFree rule.interface) :
    rules.map compileUfwRule = rules'.map compileUfwRule ↔
      rules.map FirewallRule.unhashedParts = rules'.map FirewallRule.unhashedParts := by
  induction rules generalizing rules' with
  | nil =>
    obtain rfl : rules' = [] := by simpa using hhash.symm
    simp
  | cons rule rules ih =>
    cases rules' with
    | nil => simp at hhash
    | cons rule' rules' =>
      simp only [map_cons, List.cons.injEq] at hhash ⊢
      rw [compileUfwRule_eq_iff hhash.1 (hblank rule (by simp)) (hblank' rule' (by simp)),
        ih hhash.2 (fun r hr => hblank r (by simp [hr])) (fun r hr => hblank' r (by simp [hr]))]

theorem ufwCompile_commands_eq_iff {rules rules' : List FirewallRule} {ctx : ApplyContext} :
    (ufwCompile rules ctx).commands = (ufwCompile rules' ctx).commands ↔
      rules.map compileUfwRule = rules'.map compileUfwRule := by
  simp [ufwCompile]

/-- The same rule with its log flag turned over. -/
def FirewallRule.flipLog (rule : FirewallRule) : FirewallRule :=
  { rule with log := !rule.log }

theorem compileUfwRule_flipLog_ne (rule : FirewallRule) :
    compileUfwRule rule.flipLog ≠ compileUfwRule rule := by
  intro h
  have hchars := congrArg String.toList h
  rw [compileUfwRule_toList, compileUfwRule_toList] at hchars
  have hwords : logWord rule.flipLog.log = logWord rule.log :=
    append_cancel_right (append_cancel_left hchars)
  cases hlog : rule.log <;> simp [FirewallRule.flipLog, logWord, hlog] at hwords

/-- The manager answers "unchanged" exactly when both sides hash the same bytes. -/
theorem rulesChanged_eq_false_iff {sha256 : List UInt8 → List UInt8}
    (hsha : Function.Injective sha256) (policy : List StoredRule) (cached : List FirewallRule) :
    rulesChanged (reportedRulesHash sha256 (some cached))
        (expectedHash sha256 (policy.map StoredRule.toRow)) = false ↔
      hashInput (cached.map FirewallRule.hashParts) =
        hashInput ((policy.map decodeStored).map FirewallRule.hashParts) := by
  rw [expectedHash_eq, rulesChanged, bne_eq_false_iff_eq]
  exact computeRulesHash_inj hsha

/-- The answer "unchanged" vouches for the installed commands exactly when the assigned policy
is empty: of any other policy the log flag of a rule can be changed unnoticed. Among rulesets
with the same hashed fields, the answer is always "unchanged", and the commands agree exactly
when the unhashed parts do. -/
theorem rulesUnchanged_faithful_iff {sha256 : List UInt8 → List UInt8}
    (hsha : Function.Injective sha256) (policy : List StoredRule) :
    ((∀ cached ctx,
        rulesChanged (reportedRulesHash sha256 (some cached))
            (expectedHash sha256 (policy.map StoredRule.toRow)) = false →
          (ufwCompile cached ctx).commands =
            (ufwCompile (policy.map decodeStored) ctx).commands) ↔ policy = []) ∧
    ∀ cached ctx,
      cached.map FirewallRule.hashParts =
          (policy.map decodeStored).map FirewallRule.hashParts →
        (∀ rule ∈ cached ++ policy.map decodeStored, BlankFree rule.interface) →
          rulesChanged (reportedRulesHash sha256 (some cached))
              (expectedHash sha256 (policy.map StoredRule.toRow)) = false ∧
            ((ufwCompile cached ctx).commands =
                (ufwCompile (policy.map decodeStored) ctx).commands ↔
              cached.map FirewallRule.unhashedParts =
                (policy.map decodeStored).map FirewallRule.unhashedParts) := by
  refine ⟨⟨fun h => ?_, ?_⟩, fun cached ctx hhash hblank => ⟨?_, ?_⟩⟩
  · cases policy with
    | nil => rfl
    | cons rule rest =>
      -- The cached copy differs from the policy only in the log flag of its first rule.
      have hcommands := h ((decodeStored rule).flipLog :: rest.map decodeStored)
        ⟨"", 0, none, none⟩ ((rulesChanged_eq_false_iff hsha _ _).mpr rfl)
      rw [ufwCompile_commands_eq_iff] at hcommands
      simp only [map_cons, List.cons.injEq] at hcommands
      exact absurd hcommands.1 (compileUfwRule_flipLog_ne _)
  · rintro rfl cached ctx hunchanged
    rw [rulesChanged_eq_false_iff hsha, map_nil, map_nil] at hunchanged
    have hempty : cached.map FirewallRule.hashParts = [] := hashInput_eq_nil.mp hunchanged
    rw [map_eq_nil_iff.mp hempty, map_nil]
  · rw [rulesChanged_eq_false_iff hsha, hhash]
  · rw [ufwCompile_commands_eq_iff]
    exact map_compileUfwRule_eq_iff hhash
      (fun rule hrule => hblank rule (mem_append_left _ hrule))
      (fun rule hrule => hblank rule (mem_append_right _ hrule))

/-- A policy of one rule that opens the web ports 80 to 90. -/
def webRule : StoredRule :=
  { sshStored with
    id := ⟨1⟩, name := "web", dstPorts := some ⟨80, 90, by decide, by decide, by decide⟩,
    priority := 1000, ruleGroupId := ⟨7⟩ }

/-- The web rule as an agent holds it from before its range was widened from port 80 alone. -/
def cachedWebRule : FirewallRule :=
  { decodeStored webRule with dstPortEnd := some 80 }

/-- An agent that still runs the narrow rule is told that nothing changed, although the widened
rule compiles to another command. -/
theorem widened_range_unnoticed :
    rulesChanged (reportedRulesHash id (some [cachedWebRule]))
        (expectedHash id ([webRule].map StoredRule.toRow)) = false ∧
      (ufwCompile [cachedWebRule] ⟨"10.0.0.1", 8443, none, none⟩).commands ≠
        (ufwCompile ([webRule].map decodeStored) ⟨"10.0.0.1", 8443, none, none⟩).commands := by
  refine ⟨(rulesChanged_eq_false_iff Function.injective_id [webRule] [cachedWebRule]).mpr rfl, ?_⟩
  rw [Ne, ufwCompile_commands_eq_iff]
  decide

/-- The characterisation at the widened web rule: "unchanged" is not faithful there. -/
theorem rulesUnchanged_faithful_at_web :
    ¬ (∀ cached ctx,
        rulesChanged (reportedRulesHash id (some cached))
            (expectedHash id ([webRule].map StoredRule.toRow)) = false →
          (ufwCompile cached ctx).commands =
            (ufwCompile ([webRule].map decodeStored) ctx).commands) :=
  fun h => by
    have hnil := (rulesUnchanged_faithful_iff Function.injective_id [webRule]).1.mp h
    cases hnil

end FirewallManager
