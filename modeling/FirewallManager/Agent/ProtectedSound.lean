import FirewallManager.Agent.ProtectedCidrs
import FirewallManager.Net.Dotted
import FirewallManager.Ufw.RuleMeaning

/-!
# What the protected CIDR check lets through

The check is meant to keep every deny and reject rule away from the protected networks: no such
rule of a ruleset that passes should match an inbound packet from a protected address, or an
outbound packet to one. The check reads only the source, and only when it is a network.

`protected_check_sound_iff` says for which rulesets the check does its work. The rules it misses
(`Undetected`) are the outbound ones whose destination covers a protected address, and the
inbound ones whose source is absent or a single protected address.
-/

namespace FirewallManager

/-- The target covers an address of the network. -/
def Target.Touches : Target → IpNet → Prop
  | .any, _ => True
  | .host ip, block => block.Contains ip
  | .net network, block => network.Overlaps block

/-- The target covers an address of the family. -/
def Target.Reaches (target : Target) (family : IpFamily) : Prop :=
  ∀ only ∈ target.family?, only = family

theorem Target.touches_iff {target : Target} {net : IpNet} :
    target.Touches net ↔ ∃ ip, target.covers ip = true ∧ net.Contains ip := by
  cases target with
  | any => exact ⟨fun _ => ⟨net.network, rfl, net.contains_network⟩, fun _ => trivial⟩
  | host ip =>
    constructor
    · intro h
      exact ⟨ip, decide_eq_true rfl, h⟩
    · rintro ⟨other, hcovers, hcontains⟩
      obtain rfl : ip = other := of_decide_eq_true hcovers
      exact hcontains
  | net network =>
    have hshared := network.overlap_iff net
    constructor
    · rintro ⟨-, h⟩
      obtain ⟨ip, hnetwork, hnet⟩ := hshared.mpr h
      exact ⟨ip, decide_eq_true hnetwork, hnet⟩
    · rintro ⟨ip, hcovers, hnet⟩
      have hnetwork : network.Contains ip := of_decide_eq_true hcovers
      exact ⟨hnetwork.1.symm.trans hnet.1, hshared.mp ⟨ip, hnetwork, hnet⟩⟩

theorem Target.reaches_iff {target : Target} {ip : IpAddr} :
    target.Reaches ip.family ↔ ∃ other, other.family = ip.family ∧ target.covers other = true := by
  cases target with
  | any => exact ⟨fun _ => ⟨ip, rfl, rfl⟩, fun _ => nofun⟩
  | host only =>
    constructor
    · intro h
      exact ⟨only, h _ rfl, decide_eq_true rfl⟩
    · rintro ⟨other, hfamily, hcovers⟩ _ ⟨⟩
      obtain rfl : only = other := of_decide_eq_true hcovers
      exact hfamily
  | net network =>
    constructor
    · intro h
      exact ⟨network.network, h _ rfl, decide_eq_true network.contains_network⟩
    · rintro ⟨other, hfamily, hcovers⟩ _ ⟨⟩
      have hcontains : network.Contains other := of_decide_eq_true hcovers
      exact hcontains.1.symm.trans hfamily

variable (text : AddressText)

/-- The packet comes from, or goes to, an address of a protected CIDR. -/
def InProtected (protectedCidrs : List String) (packet : Packet) : Prop :=
  ∃ cidr ∈ protectedCidrs, ∃ net, text.parseNet cidr = some net ∧
    match packet.flow with
    | .inbound => net.Contains packet.src
    | .outbound => net.Contains packet.dst

/-- The rule covers an address of a protected CIDR in a way the check does not look at. The two
targets are those of its source and destination. -/
def Undetected (protectedCidrs : List String) (rule : FirewallRule) : Prop :=
  PortsLive rule ∧
    ∃ src, cidrTarget text rule.srcCidr = some src ∧
    ∃ dst, cidrTarget text rule.dstCidr = some dst ∧
    ∃ cidr ∈ protectedCidrs, ∃ net, text.parseNet cidr = some net ∧
      match rule.flow with
      | .inbound =>
        (src = .any ∨ ∃ ip, src = .host ip ∧ net.Contains ip) ∧ dst.Reaches net.addr.family
      | .outbound => dst.Touches net ∧ src.Reaches net.addr.family

variable {text}

theorem parseNet_of_cidrTarget {cidr : Option String} {net : IpNet}
    (h : cidrTarget text cidr = some (.net net)) : ∃ s ∈ cidr, text.parseNet s = some net := by
  unfold cidrTarget targetOfWord at h
  cases cidr with
  | none => simp at h
  | some s =>
    refine ⟨s, rfl, ?_⟩
    rw [Option.getD_some] at h
    split at h
    · simp at h
    · split at h
      · simp at h
      · obtain ⟨net', hparse, hnet⟩ := Option.map_eq_some_iff.mp h
        cases hnet
        exact hparse

theorem exists_target_of_cidrCovers {cidr : Option String} {ip : IpAddr}
    (h : cidrCovers text cidr ip = true) :
    ∃ target, cidrTarget text cidr = some target ∧ target.covers ip = true := by
  unfold cidrCovers at h
  cases htarget : cidrTarget text cidr with
  | none => simp [htarget] at h
  | some target => exact ⟨target, rfl, by simpa [htarget] using h⟩

theorem cidrCovers_of_target {cidr : Option String} {target : Target} {ip : IpAddr}
    (htarget : cidrTarget text cidr = some target) (h : target.covers ip = true) :
    cidrCovers text cidr ip = true := by
  simp [cidrCovers, htarget, h]

theorem exists_match_of_undetected {protectedCidrs : List String} {rule : FirewallRule}
    (h : Undetected text protectedCidrs rule) :
    ∃ packet, rule.matches text packet = true ∧ InProtected text protectedCidrs packet := by
  obtain ⟨hlive, src, hsrc, dst, hdst, cidr, hmem, net, hparse, hmiss⟩ := h
  -- A near address in the protected network and a far one of the same family make the packet.
  cases hflow : rule.flow with
  | inbound =>
    rw [hflow] at hmiss
    obtain ⟨hnear, hfar⟩ := hmiss
    have htouches : src.Touches net := by
      rcases hnear with rfl | ⟨ip, rfl, hcontains⟩
      · trivial
      · exact hcontains
    obtain ⟨near, hcovers, hcontains⟩ := Target.touches_iff.mp htouches
    rw [← hcontains.1] at hfar
    obtain ⟨far, hfamily, hcoversFar⟩ := Target.reaches_iff.mp hfar
    refine ⟨rule.probe near far hfamily.symm, matches_probe hlive
      (cidrCovers_of_target hsrc hcovers) (cidrCovers_of_target hdst hcoversFar),
      cidr, hmem, net, hparse, ?_⟩
    simpa only [FirewallRule.probe, hflow] using hcontains
  | outbound =>
    rw [hflow] at hmiss
    obtain ⟨htouches, hfar⟩ := hmiss
    obtain ⟨near, hcovers, hcontains⟩ := Target.touches_iff.mp htouches
    rw [← hcontains.1] at hfar
    obtain ⟨far, hfamily, hcoversFar⟩ := Target.reaches_iff.mp hfar
    refine ⟨rule.probe far near hfamily, matches_probe hlive
      (cidrCovers_of_target hsrc hcoversFar) (cidrCovers_of_target hdst hcovers),
      cidr, hmem, net, hparse, ?_⟩
    simpa only [FirewallRule.probe, hflow] using hcontains

theorem undetected_of_match {protectedCidrs : List String} {rule : FirewallRule} {packet : Packet}
    (hblocks : rule.action.blocks = true) (hrefused : ¬ Refused text protectedCidrs rule)
    (hmatches : rule.matches text packet = true)
    (hprotected : InProtected text protectedCidrs packet) :
    Undetected text protectedCidrs rule := by
  obtain ⟨hflow, -, -, hsrc, hdst, -, -⟩ := FirewallRule.matches_iff.mp hmatches
  obtain ⟨src, hsrcTarget, hsrcCovers⟩ := exists_target_of_cidrCovers hsrc
  obtain ⟨dst, hdstTarget, hdstCovers⟩ := exists_target_of_cidrCovers hdst
  obtain ⟨cidr, hmem, net, hparse, hcontains⟩ := hprotected
  refine ⟨portsLive_of_matches hmatches, src, hsrcTarget, dst, hdstTarget, cidr, hmem, net,
    hparse, ?_⟩
  rw [hflow]
  cases hpacket : packet.flow with
  | inbound =>
    rw [hpacket] at hcontains
    refine ⟨?_, ?_⟩
    · cases src with
      | any => exact Or.inl rfl
      | host ip =>
        obtain rfl : ip = packet.src := of_decide_eq_true hsrcCovers
        exact Or.inr ⟨_, rfl, hcontains⟩
      | net network =>
        -- A source network that covers the packet is what the check refuses.
        obtain ⟨s, hs, hnetwork⟩ := parseNet_of_cidrTarget hsrcTarget
        have hoverlaps : network.Overlaps net :=
          Target.touches_iff.mpr ⟨packet.src, hsrcCovers, hcontains⟩
        exact absurd (Or.inl ⟨hblocks, s, hs, network, hnetwork, cidr, hmem, net, hparse,
          hoverlaps⟩) hrefused
    · rw [← hcontains.1]
      exact Target.reaches_iff.mpr ⟨packet.dst, packet.sameFamily.symm, hdstCovers⟩
  | outbound =>
    rw [hpacket] at hcontains
    refine ⟨Target.touches_iff.mpr ⟨packet.dst, hdstCovers, hcontains⟩, ?_⟩
    rw [← hcontains.1]
    exact Target.reaches_iff.mpr ⟨packet.src, packet.sameFamily, hsrcCovers⟩

/-- The check keeps the deny and reject rules of a ruleset away from the protected addresses
exactly when it refuses the ruleset for a rule it does look at, or no such rule is undetected. -/
theorem protected_check_sound_iff (text : AddressText) (rules : List FirewallRule)
    (protectedCidrs : List String) :
    (checkRulesAgainstProtected text rules protectedCidrs = .ok () →
      ∀ rule ∈ rules, rule.action.blocks = true → ∀ packet, rule.matches text packet = true →
        ¬ InProtected text protectedCidrs packet) ↔
      (∃ rule ∈ rules, Refused text protectedCidrs rule) ∨
        ∀ rule ∈ rules, rule.action.blocks = true → ¬ Undetected text protectedCidrs rule := by
  rw [checkRules_ok_iff]
  constructor
  · intro hsound
    by_cases hrefused : ∃ rule ∈ rules, Refused text protectedCidrs rule
    · exact Or.inl hrefused
    · refine Or.inr fun rule hmem hblocks hmiss => ?_
      obtain ⟨packet, hmatches, hprotected⟩ := exists_match_of_undetected hmiss
      exact hsound (fun other hother h => hrefused ⟨other, hother, h⟩) rule hmem hblocks packet
        hmatches hprotected
  · rintro (⟨rule, hmem, hrefused⟩ | hdetected) hpass other hother hblocks packet hmatches hprot
    · exact hpass rule hmem hrefused
    · exact hdetected other hother hblocks
        (undetected_of_match hblocks (hpass other hother) hmatches hprot)

/-- A rule that denies inbound SSH from everywhere. -/
def denySshRule : FirewallRule :=
  { sshRule with id := ⟨23⟩, name := "deny-ssh", action := .deny, comment := "" }

/-- SSH from the management network. -/
def managementPacket : Packet where
  flow := .inbound
  protocol := .tcp
  src := ⟨.v4, 10 * 2 ^ 24 + 5, by decide⟩
  dst := ⟨.v4, 192 * 2 ^ 24 + 7, by decide⟩
  ports := some (40000, 22)
  iface := "eth0"
  sameFamily := rfl
  ports_isSome := rfl

/-- With the management network protected, the rule passes the check and denies the packet. -/
theorem absent_source_passes_check :
    checkRulesAgainstProtected dottedText [denySshRule] ["10.0.0.0/8"] = .ok () ∧
      denySshRule.action.blocks = true ∧
      denySshRule.matches dottedText managementPacket = true ∧
      InProtected dottedText ["10.0.0.0/8"] managementPacket := by
  have hnet : ∃ net, dottedText.parseNet "10.0.0.0/8" = some net ∧
      net.Contains managementPacket.src :=
    ⟨⟨⟨.v4, 10 * 2 ^ 24, by decide⟩, 8, by decide⟩, by decide, by decide⟩
  obtain ⟨net, hparse, hcontains⟩ := hnet
  exact ⟨by decide, rfl, by decide, "10.0.0.0/8", List.mem_singleton_self _, net, hparse,
    hcontains⟩

end FirewallManager
