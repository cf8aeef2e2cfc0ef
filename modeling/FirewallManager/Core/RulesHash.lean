import FirewallManager.Core.Models

/-!
# The drift hash

`computeRulesHash` is SHA-256 over the canonical fields of a ruleset, computed by the manager
over the assigned policy and by the agent over the rules it last applied. SHA-256 itself is a
parameter. With an injective one, equal hashes mean equal hasher input
(`computeRulesHash_inj`). The input has no separators, and every rule puts at least its
sixteen identifier bytes into it (`hashInput_eq_nil`).
-/

namespace FirewallManager

/-- The canonical rule fields that the drift hash covers. -/
structure RuleHashParts where
  id : Uuid
  action : String
  direction : String
  protocol : String
  srcCidr : Option String
  dstCidr : Option String
  dstPortStart : Option Int
  deriving DecidableEq, Repr

/-- The bytes that one rule feeds to the hasher, in order. Absent fields feed nothing. -/
def RuleHashParts.bytes (parts : RuleHashParts) : List UInt8 :=
  parts.id.asBytes ++ Text.utf8 parts.action ++ Text.utf8 parts.direction ++
    Text.utf8 parts.protocol ++ (parts.srcCidr.map Text.utf8).getD [] ++
    (parts.dstCidr.map Text.utf8).getD [] ++ (parts.dstPortStart.map Text.leBytes32).getD []

/-- Everything the hasher reads for a ruleset. -/
def hashInput (rules : List RuleHashParts) : List UInt8 :=
  rules.flatMap RuleHashParts.bytes

/-- The drift hash of a ruleset, in hexadecimal. -/
def computeRulesHash (sha256 : List UInt8 → List UInt8) (rules : List RuleHashParts) : String :=
  Text.hexEncode (sha256 (hashInput rules))

/-- The agent's view of a rule for the drift hash. -/
def FirewallRule.hashParts (rule : FirewallRule) : RuleHashParts where
  id := rule.id
  action := rule.action.asStr
  direction := rule.direction.asStr
  protocol := rule.protocol.asStr
  srcCidr := rule.srcCidr
  dstCidr := rule.dstCidr
  dstPortStart := rule.dstPortStart

/-- A rule never feeds nothing: its identifier alone is sixteen bytes. -/
theorem RuleHashParts.bytes_ne_nil (parts : RuleHashParts) : parts.bytes ≠ [] := by
  intro h
  have hlength := congrArg List.length h
  simp only [RuleHashParts.bytes, List.length_append, Uuid.asBytes_length, List.length_nil]
    at hlength
  omega

theorem hashInput_eq_nil {rules : List RuleHashParts} : hashInput rules = [] ↔ rules = [] := by
  cases rules with
  | nil => simp [hashInput]
  | cons parts rules => simp [hashInput, parts.bytes_ne_nil]

theorem computeRulesHash_inj {sha256 : List UInt8 → List UInt8}
    (hsha : Function.Injective sha256) {rules rules' : List RuleHashParts} :
    computeRulesHash sha256 rules = computeRulesHash sha256 rules' ↔
      hashInput rules = hashInput rules' := by
  rw [computeRulesHash, computeRulesHash, Text.hexEncode_injective.eq_iff, hsha.eq_iff]

end FirewallManager
