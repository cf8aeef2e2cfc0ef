import FirewallManager.Core.Models
import FirewallManager.Net.Address

/-!
# Protected CIDR enforcement

The check that stands between a ruleset and the backend: a deny or reject rule whose source
overlaps a protected CIDR is refused, and so is an allow rule from a broad source to a
protected destination. `checkRules_ok_iff` says which rulesets pass.
-/

namespace FirewallManager

variable (text : AddressText)

/-- Same family, and one network contains the other's network address. -/
def IpNet.Overlaps (net net' : IpNet) : Prop :=
  net.network.family = net'.network.family ∧
    (net.Contains net'.network ∨ net'.Contains net.network)

/-- The overlap test is decided by family and containment tests. -/
instance (net net' : IpNet) : Decidable (net.Overlaps net') :=
  inferInstanceAs (Decidable (_ ∧ _))

/-- The first protected CIDR that overlaps `cidr`. Texts that are not networks are skipped. -/
def overlapsProtected (cidr : String) (protectedCidrs : List String) : Option String :=
  match text.parseNet cidr with
  | none => none
  | some net =>
    protectedCidrs.find? fun candidate =>
      match text.parseNet candidate with
      | none => false
      | some protectedNet => decide (net.Overlaps protectedNet)

/-- A broad source matches every address: no CIDR, or the unspecified network. -/
def isBroadSrc : Option String → Bool
  | none => true
  | some src =>
    let t := Text.trim src
    t = "" || t = "0.0.0.0/0" || t = "::/0" || t = "0.0.0.0" || t = "::"

/-- The action is `deny` or `reject`. -/
def FirewallAction.blocks : FirewallAction → Bool
  | .deny => true
  | .reject => true
  | _ => false

/-- What a deny or reject rule does to the protected CIDRs through its source. -/
def blockViolation (protectedCidrs : List String) (rule : FirewallRule) : List String :=
  if rule.action.blocks then
    match rule.srcCidr.bind (overlapsProtected text · protectedCidrs) with
    | some cidr =>
      ["Rule '" ++ rule.name ++ "' would block protected CIDR " ++ cidr ++ " (" ++
        rule.action.asStr ++ ")"]
    | none => []
  else []

/-- What an allow rule from a broad source does to them through its destination. -/
def exposeViolation (protectedCidrs : List String) (rule : FirewallRule) : List String :=
  if rule.action = .allow ∧ isBroadSrc rule.srcCidr then
    match rule.dstCidr.bind (overlapsProtected text · protectedCidrs) with
    | some cidr => ["Rule '" ++ rule.name ++ "' allows broad traffic to protected CIDR " ++ cidr]
    | none => []
  else []

/-- Check a ruleset against the protected CIDRs and collect the violations. -/
def checkRulesAgainstProtected (rules : List FirewallRule) (protectedCidrs : List String) :
    Except (List String) Unit :=
  if protectedCidrs = [] then .ok ()
  else
    let violations := rules.flatMap fun rule =>
      blockViolation text protectedCidrs rule ++ exposeViolation text protectedCidrs rule
    if violations = [] then .ok () else .error violations

variable {text}

/-- The text is a network that overlaps one of the protected networks. -/
def TouchesProtected (text : AddressText) (protectedCidrs : List String) (cidr : String) : Prop :=
  ∃ net, text.parseNet cidr = some net ∧
    ∃ candidate ∈ protectedCidrs, ∃ protectedNet,
      text.parseNet candidate = some protectedNet ∧ net.Overlaps protectedNet

variable {protectedCidrs : List String}

theorem overlapsProtected_isSome_iff {cidr : String} :
    (overlapsProtected text cidr protectedCidrs).isSome = true ↔
      TouchesProtected text protectedCidrs cidr := by
  unfold overlapsProtected TouchesProtected
  cases hnet : text.parseNet cidr with
  | none => simp
  | some net =>
    simp only [List.find?_isSome, Option.some.injEq, exists_eq_left']
    constructor
    · rintro ⟨candidate, hmem, hoverlap⟩
      cases hparse : text.parseNet candidate with
      | none => simp [hparse] at hoverlap
      | some protectedNet =>
        rw [hparse] at hoverlap
        exact ⟨candidate, hmem, protectedNet, hparse, of_decide_eq_true hoverlap⟩
    · rintro ⟨candidate, hmem, protectedNet, hparse, hoverlap⟩
      exact ⟨candidate, hmem, by rw [hparse]; exact decide_eq_true hoverlap⟩

/-- A deny or reject rule with a protected source, or a broad allow rule to a protected destination.
-/
def Refused (text : AddressText) (protectedCidrs : List String) (rule : FirewallRule) : Prop :=
  (rule.action.blocks = true ∧
      ∃ src ∈ rule.srcCidr, TouchesProtected text protectedCidrs src) ∨
    (rule.action = .allow ∧ isBroadSrc rule.srcCidr = true ∧
      ∃ dst ∈ rule.dstCidr, TouchesProtected text protectedCidrs dst)

theorem blockViolation_eq_nil_iff {rule : FirewallRule} :
    blockViolation text protectedCidrs rule = [] ↔
      ¬ (rule.action.blocks = true ∧
        ∃ src ∈ rule.srcCidr, TouchesProtected text protectedCidrs src) := by
  simp only [← overlapsProtected_isSome_iff]
  unfold blockViolation
  cases hblocks : rule.action.blocks with
  | false => simp
  | true =>
    cases hsrc : rule.srcCidr with
    | none => simp
    | some src =>
      cases hover : overlapsProtected text src protectedCidrs <;> simp [hover]

theorem exposeViolation_eq_nil_iff {rule : FirewallRule} :
    exposeViolation text protectedCidrs rule = [] ↔
      ¬ (rule.action = .allow ∧ isBroadSrc rule.srcCidr = true ∧
        ∃ dst ∈ rule.dstCidr, TouchesProtected text protectedCidrs dst) := by
  simp only [← overlapsProtected_isSome_iff]
  unfold exposeViolation
  by_cases hbroad : rule.action = .allow ∧ isBroadSrc rule.srcCidr = true
  · rw [if_pos hbroad]
    cases hdst : rule.dstCidr with
    | none => simp
    | some dst =>
      cases hover : overlapsProtected text dst protectedCidrs <;>
        simp [hover, hbroad.1, hbroad.2]
  · rw [if_neg hbroad]
    simpa using fun haction hsrc => absurd ⟨haction, hsrc⟩ hbroad

theorem not_refused_nil (rule : FirewallRule) : ¬ Refused text [] rule := by
  simp [Refused, TouchesProtected]

/-- The check passes exactly the rulesets without a refused rule. -/
theorem checkRules_ok_iff {rules : List FirewallRule} :
    checkRulesAgainstProtected text rules protectedCidrs = .ok () ↔
      ∀ rule ∈ rules, ¬ Refused text protectedCidrs rule := by
  unfold checkRulesAgainstProtected
  by_cases hempty : protectedCidrs = []
  · subst hempty
    simpa using fun rule _ => not_refused_nil rule
  · have hviolations :
        (rules.flatMap fun rule => blockViolation text protectedCidrs rule ++
          exposeViolation text protectedCidrs rule) = [] ↔
          ∀ rule ∈ rules, ¬ Refused text protectedCidrs rule := by
      simp only [List.flatMap_eq_nil_iff, List.append_eq_nil_iff, blockViolation_eq_nil_iff,
        exposeViolation_eq_nil_iff, Refused, not_or]
    rw [if_neg hempty, ← hviolations]
    dsimp only
    split
    next h => exact ⟨fun _ => h, fun _ => rfl⟩
    next h => exact ⟨nofun, fun hnil => absurd hnil h⟩

end FirewallManager
