import FirewallManager.Agent.ProtectedCidrs
import FirewallManager.Manager.Policy

/-!
# The protected networks, on both sides

The manager and the agent each have a check for rules that block a protected network. They were
written separately: the manager parses both texts for every pair, the agent parses the source once.
`protected_checks_agree` says that they find the same rules, and that these are the blocking rules
whose source shares an address with a protected network.
-/

namespace FirewallManager

open List

section Manager

variable (text : AddressText)

/-- Whether two texts are networks of one family that overlap. -/
def cidrOverlaps (a b : String) : Bool :=
  match text.parseNet a with
  | none => false
  | some netA =>
    match text.parseNet b with
    | none => false
    | some netB =>
      if netA.network.family ≠ netB.network.family then false
      else decide (netA.Contains netB.network) || decide (netB.Contains netA.network)

/-- The check of the manager. The loop stops at the first protected text that overlaps. -/
def checkAgainstProtectedCidrs (rule : FirewallRule) (protectedCidrs : List String) :
    PolicyCheckResult :=
  let passed : PolicyCheckResult := ⟨true, false, "Does not block protected CIDRs"⟩
  if rule.action = .deny ∨ rule.action = .reject then
    match rule.srcCidr with
    | some src =>
      match protectedCidrs.find? (cidrOverlaps text src) with
      | some cidr => ⟨false, false, "Rule blocks protected CIDR " ++ cidr ++ " — rejected"⟩
      | none => passed
    | none => passed
  else passed

/-- The agent's check of the rule alone reports that it would block a protected network. -/
def ReportsBlock (rule : FirewallRule) (protectedCidrs : List String) : Prop :=
  ∃ violations, checkRulesAgainstProtected text [rule] protectedCidrs = .error violations ∧
    ∃ cidr, "Rule '" ++ rule.name ++ "' would block protected CIDR " ++ cidr ++ " (" ++
      rule.action.asStr ++ ")" ∈ violations

/-- The rule blocks addresses of a protected network. -/
def BlocksProtected (rule : FirewallRule) (protectedCidrs : List String) : Prop :=
  (rule.action = .deny ∨ rule.action = .reject) ∧
    ∃ src net, rule.srcCidr = some src ∧ text.parseNet src = some net ∧
      ∃ candidate ∈ protectedCidrs, ∃ protectedNet,
        text.parseNet candidate = some protectedNet ∧
        net.addr.family = protectedNet.addr.family ∧
        ∃ ip, net.Contains ip ∧ protectedNet.Contains ip

end Manager

variable {text : AddressText} {rule : FirewallRule} {protectedCidrs : List String}

/-- The overlap test of both sides finds a shared address. -/
theorem IpNet.overlaps_iff {net net' : IpNet} :
    net.Overlaps net' ↔
      net.addr.family = net'.addr.family ∧ ∃ ip, net.Contains ip ∧ net'.Contains ip := by
  rw [IpNet.Overlaps, ← IpNet.overlap_iff]
  rfl

/-- On two networks, the manager's test is the agent's. -/
theorem cidrOverlaps_of_parse {a b : String} {netA netB : IpNet} (ha : text.parseNet a = some netA)
    (hb : text.parseNet b = some netB) : cidrOverlaps text a b = decide (netA.Overlaps netB) := by
  rw [cidrOverlaps, ha]
  rw [hb]
  by_cases hfamily : netA.network.family = netB.network.family
  · simp [IpNet.Overlaps, hfamily]
  · simp [IpNet.Overlaps, hfamily]

theorem find_cidrOverlaps (src : String) (protectedCidrs : List String) :
    protectedCidrs.find? (cidrOverlaps text src) = overlapsProtected text src protectedCidrs := by
  unfold overlapsProtected
  cases hsrc : text.parseNet src with
  | none =>
    refine find?_eq_none.mpr ?_
    intro candidate _
    simp [cidrOverlaps, hsrc]
  | some net =>
    have hsame : cidrOverlaps text src = fun candidate =>
        match text.parseNet candidate with
        | none => false
        | some protectedNet => decide (net.Overlaps protectedNet) := by
      funext candidate
      cases hcandidate : text.parseNet candidate with
      | none => simp [cidrOverlaps, hsrc, hcandidate]
      | some protectedNet => exact cidrOverlaps_of_parse hsrc hcandidate
    exact congrArg (List.find? · protectedCidrs) hsame

theorem blocks_iff {action : FirewallAction} :
    action.blocks = true ↔ action = .deny ∨ action = .reject := by
  cases action <;> simp [FirewallAction.blocks]

theorem blocksProtected_iff :
    BlocksProtected text rule protectedCidrs ↔
      rule.action.blocks = true ∧
        ∃ src ∈ rule.srcCidr, TouchesProtected text protectedCidrs src := by
  simp only [BlocksProtected, TouchesProtected, blocks_iff, IpNet.overlaps_iff, Option.mem_def]
  refine and_congr_right fun _ => exists_congr fun src => ?_
  constructor
  · rintro ⟨net, hsrc, hnet, htouches⟩
    exact ⟨hsrc, net, hnet, htouches⟩
  · rintro ⟨hsrc, net, hnet, htouches⟩
    exact ⟨net, hsrc, hnet, htouches⟩

/-- What the manager refuses. -/
theorem allowed_eq_false_iff :
    (checkAgainstProtectedCidrs text rule protectedCidrs).allowed = false ↔
      BlocksProtected text rule protectedCidrs := by
  rw [blocksProtected_iff, blocks_iff]
  unfold checkAgainstProtectedCidrs
  by_cases haction : rule.action = .deny ∨ rule.action = .reject
  · rw [if_pos haction, and_iff_right haction]
    cases hsrc : rule.srcCidr with
    | none => simp
    | some src =>
      dsimp only
      rw [find_cidrOverlaps]
      simp only [Option.mem_def, Option.some.injEq, exists_eq_left',
        ← overlapsProtected_isSome_iff]
      cases overlapsProtected text src protectedCidrs <;> simp
  · rw [if_neg haction]
    simp [haction]

theorem exposes_ne_blocks {name cidr cidr' action : String} :
    "Rule '" ++ name ++ "' would block protected CIDR " ++ cidr ++ " (" ++ action ++ ")" ≠
      "Rule '" ++ name ++ "' allows broad traffic to protected CIDR " ++ cidr' := by
  intro h
  have hwords := congrArg String.toList h
  simp only [String.toList_append, append_assoc, append_right_inj] at hwords
  have hthird := congrArg (fun cs : List Char => cs[2]?) hwords
  rw [getElem?_append_left (by decide), getElem?_append_left (by decide)] at hthird
  exact absurd hthird (by decide)

theorem checkRules_singleton_eq_error_iff {violations : List String} :
    checkRulesAgainstProtected text [rule] protectedCidrs = .error violations ↔
      protectedCidrs ≠ [] ∧ violations ≠ [] ∧
        violations = blockViolation text protectedCidrs rule ++
          exposeViolation text protectedCidrs rule := by
  unfold checkRulesAgainstProtected
  by_cases hempty : protectedCidrs = []
  · simp [hempty]
  · rw [if_neg hempty, flatMap_singleton]
    dsimp only
    split
    next hnone => simp_all
    next hsome =>
      rw [Except.error.injEq]
      constructor
      · rintro rfl
        exact ⟨hempty, hsome, rfl⟩
      · rintro ⟨-, -, hviolations⟩
        exact hviolations.symm

theorem reportsBlock_iff :
    ReportsBlock text rule protectedCidrs ↔ BlocksProtected text rule protectedCidrs := by
  have hblocks : BlocksProtected text rule protectedCidrs ↔
      blockViolation text protectedCidrs rule ≠ [] := by
    rw [blocksProtected_iff, ne_eq, blockViolation_eq_nil_iff, not_not]
  rw [hblocks]
  constructor
  · rintro ⟨violations, herror, cidr, hmessage⟩
    rw [(checkRules_singleton_eq_error_iff.mp herror).2.2] at hmessage
    rcases mem_append.mp hmessage with hblock | hexpose
    · exact ne_nil_of_mem hblock
    · unfold exposeViolation at hexpose
      split at hexpose
      next =>
        split at hexpose
        next => exact absurd (mem_singleton.mp hexpose) exposes_ne_blocks
        next => cases hexpose
      next => cases hexpose
  · intro hblock
    have hprotected : protectedCidrs ≠ [] := by
      obtain ⟨-, -, -, -, -, candidate, hcandidate, -⟩ := hblocks.mpr hblock
      exact ne_nil_of_mem hcandidate
    refine ⟨_, checkRules_singleton_eq_error_iff.mpr
      ⟨hprotected, append_ne_nil_of_left_ne_nil hblock _, rfl⟩, ?_⟩
    unfold blockViolation at hblock ⊢
    split at hblock
    next haction =>
      split at hblock
      next cidr _ =>
        rw [if_pos haction]
        exact ⟨cidr, mem_append_left _ mem_cons_self⟩
      next => exact absurd rfl hblock
    next => exact absurd rfl hblock

/-- **Both checks find the rules that block a protected network.** For every rule and every list of
protected texts, the manager refuses the rule if and only if the agent reports that it would block a
protected network, and if and only if it is a deny or reject rule whose source is a network that
shares an address with a protected network of its family. -/
theorem protected_checks_agree (text : AddressText) (rule : FirewallRule)
    (protectedCidrs : List String) :
    ((checkAgainstProtectedCidrs text rule protectedCidrs).allowed = false ↔
        ReportsBlock text rule protectedCidrs) ∧
      (ReportsBlock text rule protectedCidrs ↔ BlocksProtected text rule protectedCidrs) :=
  ⟨allowed_eq_false_iff.trans reportsBlock_iff.symm, reportsBlock_iff⟩

end FirewallManager
