import FirewallManager.Agent.Ufw
import FirewallManager.Ufw.Firewall

/-!
# Which packets a typed rule matches

The meaning of a `FirewallRule`, as the UFW backend installs it: a rule that is not outbound is
installed as an inbound one, an absent CIDR is `any`, and the interface is the one of the rule's
direction. `matches_probe` finds a packet for every pair of addresses that the rule's CIDRs
cover, provided its port ranges can be met at all (`PortsLive`).
-/

namespace FirewallManager

/-- The direction in which the backend installs the rule. -/
def FirewallRule.flow (rule : FirewallRule) : Flow :=
  if rule.direction = .out then .outbound else .inbound

/-- The rule's protocol admits the packet's. -/
def FirewallProtocol.covers : FirewallProtocol → PacketProtocol → Bool
  | .any, _ => true
  | .tcp, .tcp => true
  | .udp, .udp => true
  | .icmp, .icmp => true
  | .icmpv6, .icmpv6 => true
  | .gre, .gre => true
  | .esp, .esp => true
  | .ah, .ah => true
  | .sctp, .sctp => true
  | _, _ => false

/-- The port columns admit the port. Without a start there is no constraint. -/
def rangeAdmits (start stop : Option Int) (port : Option Nat) : Bool :=
  match start, port with
  | none, _ => true
  | some _, none => false
  | some s, some p => decide (s ≤ p ∧ (p : Int) ≤ stop.getD s)

variable (text : AddressText)

/-- The addresses that a CIDR column stands for. A text that is neither an address nor a network
stands for nothing, since UFW refuses the rule. -/
def cidrTarget (cidr : Option String) : Option Target :=
  targetOfWord text (cidr.getD "any")

/-- The CIDR column covers the address. -/
def cidrCovers (cidr : Option String) (ip : IpAddr) : Bool :=
  (cidrTarget text cidr).any (·.covers ip)

/-- The rule matches the packet. -/
def FirewallRule.matches (rule : FirewallRule) (packet : Packet) : Bool :=
  decide (rule.flow = packet.flow) && rule.interface.all (· == packet.iface) &&
    rule.protocol.covers packet.protocol && cidrCovers text rule.srcCidr packet.src &&
    cidrCovers text rule.dstCidr packet.dst &&
    rangeAdmits rule.srcPortStart rule.srcPortEnd packet.srcPort &&
    rangeAdmits rule.dstPortStart rule.dstPortEnd packet.dstPort

/-- Some port number is in the range. -/
def RangeLive (start stop : Option Int) : Prop :=
  ∀ s ∈ start, s ≤ stop.getD s ∧ 0 ≤ stop.getD s ∧ s ≤ 65535

/-- The protocol a packet for the rule is built with. -/
def FirewallProtocol.sample : FirewallProtocol → PacketProtocol
  | .any => .tcp
  | .tcp => .tcp
  | .udp => .udp
  | .icmp => .icmp
  | .icmpv6 => .icmpv6
  | .gre => .gre
  | .esp => .esp
  | .ah => .ah
  | .sctp => .sctp

/-- The port ranges can be met: they are not empty, and a rule with a range is for a protocol
that has ports. -/
structure PortsLive (rule : FirewallRule) : Prop where
  src : RangeLive rule.srcPortStart rule.srcPortEnd
  dst : RangeLive rule.dstPortStart rule.dstPortEnd
  carried : rule.srcPortStart.isSome = true ∨ rule.dstPortStart.isSome = true →
    rule.protocol.sample.hasPorts = true

variable {text}

theorem FirewallProtocol.covers_sample (protocol : FirewallProtocol) :
    protocol.covers protocol.sample = true := by
  cases protocol <;> rfl

theorem FirewallProtocol.sample_hasPorts {protocol : FirewallProtocol} {actual : PacketProtocol}
    (hcovers : protocol.covers actual = true) (hports : actual.hasPorts = true) :
    protocol.sample.hasPorts = true := by
  revert hcovers hports
  cases protocol <;> cases actual <;> decide

theorem rangeLive_of_admits {start stop : Option Int} (port : Option UInt16)
    (h : rangeAdmits start stop (port.map (·.toNat)) = true) : RangeLive start stop := by
  rintro s rfl
  cases port with
  | none => cases h
  | some p =>
    have hbounds : s ≤ (p.toNat : Int) ∧ (p.toNat : Int) ≤ stop.getD s := of_decide_eq_true h
    have hp := p.toNat_lt
    omega

theorem isSome_of_rangeAdmits {start stop : Option Int} {port : Option Nat}
    (h : rangeAdmits start stop port = true) (hset : start.isSome = true) :
    port.isSome = true := by
  cases start with
  | none => cases hset
  | some s =>
    cases port with
    | none => cases h
    | some p => rfl

/-- The port that a packet for the range is built with. -/
def rangePick (start : Option Int) : UInt16 :=
  UInt16.ofNat (start.getD 0).toNat

theorem rangeAdmits_pick {start stop : Option Int} (h : RangeLive start stop) :
    rangeAdmits start stop (some (rangePick start).toNat) = true := by
  cases start with
  | none => rfl
  | some s =>
    obtain ⟨hle, hpos, hmax⟩ := h s rfl
    have hpick : (rangePick (some s)).toNat = s.toNat :=
      UInt16.toNat_ofNat_of_lt' (by simp only [Option.getD_some, UInt16.size]; omega)
    rw [hpick]
    exact decide_eq_true (by omega)

theorem FirewallRule.matches_iff {rule : FirewallRule} {packet : Packet} :
    rule.matches text packet = true ↔
      rule.flow = packet.flow ∧ rule.interface.all (· == packet.iface) = true ∧
        rule.protocol.covers packet.protocol = true ∧
        cidrCovers text rule.srcCidr packet.src = true ∧
        cidrCovers text rule.dstCidr packet.dst = true ∧
        rangeAdmits rule.srcPortStart rule.srcPortEnd packet.srcPort = true ∧
        rangeAdmits rule.dstPortStart rule.dstPortEnd packet.dstPort = true := by
  simp only [FirewallRule.matches, Bool.and_eq_true, decide_eq_true_eq, and_assoc]

theorem portsLive_of_matches {rule : FirewallRule} {packet : Packet}
    (h : rule.matches text packet = true) : PortsLive rule := by
  obtain ⟨-, -, hprotocol, -, -, hsrc, hdst⟩ := FirewallRule.matches_iff.mp h
  refine ⟨rangeLive_of_admits (packet.ports.map (·.1)) ?_,
    rangeLive_of_admits (packet.ports.map (·.2)) ?_, fun hset => ?_⟩
  · simpa [Packet.srcPort, Function.comp_def] using hsrc
  · simpa [Packet.dstPort, Function.comp_def] using hdst
  · refine FirewallProtocol.sample_hasPorts hprotocol ?_
    rw [← packet.ports_isSome]
    rcases hset with hset | hset
    · simpa [Packet.srcPort] using isSome_of_rangeAdmits hsrc hset
    · simpa [Packet.dstPort] using isSome_of_rangeAdmits hdst hset

/-- The packet from `src` to `dst` that a rule is probed with. -/
def FirewallRule.probe (rule : FirewallRule) (src dst : IpAddr) (h : src.family = dst.family) :
    Packet where
  flow := rule.flow
  protocol := rule.protocol.sample
  src := src
  dst := dst
  ports :=
    if rule.protocol.sample.hasPorts then
      some (rangePick rule.srcPortStart, rangePick rule.dstPortStart)
    else none
  iface := rule.interface.getD ""
  sameFamily := h
  ports_isSome := by cases rule.protocol <;> rfl

theorem matches_probe {rule : FirewallRule} {src dst : IpAddr} {h : src.family = dst.family}
    (hlive : PortsLive rule) (hsrc : cidrCovers text rule.srcCidr src = true)
    (hdst : cidrCovers text rule.dstCidr dst = true) :
    rule.matches text (rule.probe src dst h) = true := by
  have hadmits {start stop : Option Int} (hrange : RangeLive start stop)
      (hcarried : start.isSome = true → rule.protocol.sample.hasPorts = true)
      (ports : UInt16 × UInt16 → UInt16)
      (hports : ports (rangePick rule.srcPortStart, rangePick rule.dstPortStart) =
        rangePick start) :
      rangeAdmits start stop ((rule.probe src dst h).ports.map fun pair => (ports pair).toNat) =
        true := by
    cases hcarries : rule.protocol.sample.hasPorts with
    | true =>
      simp only [FirewallRule.probe, hcarries, if_true, Option.map_some, hports]
      exact rangeAdmits_pick hrange
    | false =>
      cases start with
      | none => rfl
      | some s => exact absurd (hcarried rfl) (by simp [hcarries])
  refine FirewallRule.matches_iff.mpr ⟨rfl, ?_, rule.protocol.covers_sample, hsrc, hdst,
    hadmits hlive.src (fun hset => hlive.carried (Or.inl hset)) Prod.fst rfl,
    hadmits hlive.dst (fun hset => hlive.carried (Or.inr hset)) Prod.snd rfl⟩
  change rule.interface.all (· == rule.interface.getD "") = true
  cases rule.interface <;> simp

end FirewallManager
