import FirewallManager.Agent.Apply
import FirewallManager.Firewalld.Host
import FirewallManager.Net.NetText
import FirewallManager.Ufw.RuleMeaning

/-!
# What firewalld accepts for a rule

The command of a rule has only some of its fields: the source and the action always, the port and
the protocol only together, and the direction never. `readRichRule` reads the rich rule back, and
`RichRule.accepts` says which packets it accepts. Within the fields that the backend supports,
`firewalld_never_widens_iff` says for which allow rules these are packets of the rule itself.
-/

namespace FirewallManager

open List

/-- The actions of a rich rule. -/
inductive RichAction where
  | accept
  | drop
  | reject
  | masquerade
  deriving DecidableEq, Repr

/-- A rich rule with a source and perhaps a port. -/
structure RichRule where
  source : Target
  port : Option (Nat × FirewallProtocol)
  action : RichAction
  deriving DecidableEq

section Read

variable (text : AddressText)

/-- The word of an action. -/
def richActionOfWord : String → Option RichAction
  | "accept" => some .accept
  | "drop" => some .drop
  | "reject" => some .reject
  | "masquerade" => some .masquerade
  | _ => none

/-- The protocol of a port element. `all` is taken for every protocol. -/
def richProtocolOfWord : String → Option FirewallProtocol
  | "all" => some .any
  | "tcp" => some .tcp
  | "udp" => some .udp
  | "icmp" => some .icmp
  | "icmpv6" => some .icmpv6
  | "gre" => some .gre
  | "esp" => some .esp
  | "ah" => some .ah
  | "sctp" => some .sctp
  | _ => none

/-- The source of a rule of the family `ipv4`: an address or a network. -/
def richSource (word : String) : Option Target :=
  (targetOfWord text word).filter fun target => target.family? == some .v4

/-- Read the words of a rich rule. -/
def richRuleOfWords : List String → Option RichRule
  | ["rule", "family=ipv4", "source", address, action] => do
      let source ← (Text.afterStart "address=" address).bind (richSource text)
      let action ← richActionOfWord action
      return ⟨source, none, action⟩
  | ["rule", "family=ipv4", "source", address, "port", port, protocol, action] => do
      let source ← (Text.afterStart "address=" address).bind (richSource text)
      let port ← (Text.afterStart "port=" port).bind Text.parseDecimal
      let protocol ← (Text.afterStart "protocol=" protocol).bind richProtocolOfWord
      let action ← richActionOfWord action
      return ⟨source, some (port, protocol), action⟩
  | _ => none

/-- Read a rich rule. Its values may be quoted. -/
def readRichRule (line : String) : Option RichRule :=
  (Shlex.split line).bind (richRuleOfWords text)

/-- The rich rule accepts the packet, which comes in over IPv4. -/
def RichRule.accepts (rule : RichRule) (packet : Packet) : Bool :=
  rule.action == .accept && packet.flow == .inbound && packet.src.family == .v4 &&
    rule.source.covers packet.src &&
    match rule.port with
    | none => true
    | some (port, protocol) => packet.dstPort == some port && protocol.covers packet.protocol

/-- The direction of a rule is that of the packet. A forwarded packet is neither for the host nor
from it. -/
def FirewallDirection.covers : FirewallDirection → Flow → Bool
  | .in, .inbound => true
  | .out, .outbound => true
  | _, _ => false

/-- The typed rule is for the packet, its direction included. -/
def FirewallRule.isFor (rule : FirewallRule) (packet : Packet) : Bool :=
  rule.direction.covers packet.flow && rule.matches text packet

/-- An allow rule within what the backend supports: an IPv4 source or none, no destination, no
interface, no source ports, and at most one destination port. -/
structure FirewalldScope (rule : FirewallRule) : Prop where
  action : rule.action = .allow
  source : ∀ cidr ∈ rule.srcCidr, ∃ target, targetOfWord text cidr = some target ∧
    target.family? = some .v4
  dstCidr : rule.dstCidr = none
  interfaces : rule.interfaceIn = none ∧ rule.interfaceOut = none
  srcPorts : rule.srcPortStart = none ∧ rule.srcPortEnd = none
  dstPort : ∀ stop ∈ rule.dstPortEnd, rule.dstPortStart = some stop
  portRange : ∀ port ∈ rule.dstPortStart, 1 ≤ port ∧ port ≤ 65535

/-- Every packet that the rich rule of the rule accepts is one of the rule. -/
def FirewallRule.NeverWidened (rule : FirewallRule) : Prop :=
  ∀ rich packet, rule.richRule (readRichRule text) = some rich → rich.accepts packet = true →
    rule.isFor text packet = true

end Read

/-! ## The rich rule of a rule -/

section RichRule

variable {text : NetText} {rule : FirewallRule}

/-- The source of a rule: everything of IPv4 by default. -/
def FirewallRule.richTarget (text : AddressText) (rule : FirewallRule) : Option Target :=
  richSource text (rule.srcCidr.getD "0.0.0.0/0")

theorem richSource_chars {word : String} {target : Target}
    (h : richSource text.toAddressText word = some target) :
    ∀ c ∈ word.toList, isAddrChar c = true ∨ c = '/' := by
  obtain ⟨htarget, hfamily⟩ := Option.filter_eq_some_iff.mp h
  unfold targetOfWord at htarget
  split at htarget
  next =>
    obtain rfl := Option.some.inj htarget
    cases hfamily
  next =>
    split at htarget
    next ip hip =>
      intro c hc
      exact Or.inl ((text.addr_chars word ip hip).2 c hc)
    next =>
      obtain ⟨net, hnet, -⟩ := Option.map_eq_some_iff.mp htarget
      exact (text.net_chars word net hnet).2

theorem unquoted_of_addrChar {c : Char} (h : isAddrChar c = true ∨ c = '/') :
    c ≠ '"' ∧ c ≠ '\\' ∧ c ≠ '\'' := by
  refine ⟨?_, ?_, ?_⟩ <;> rintro rfl <;> revert h <;> decide

theorem lex_last {w : List Char} (h : Shlex.PlainWord w) : Shlex.lex .gap [] w = some [w] := by
  have hlex := Shlex.lex_gap_plain h []
  rw [append_nil] at hlex
  rw [hlex, Shlex.lex, reverse_reverse]

theorem richProtocolOfWord_protoWord (rule : FirewallRule) :
    richProtocolOfWord (rule.protoWord.getD "all") = some rule.protocol := by
  rw [FirewallRule.protoWord]
  cases rule.protocol <;> decide

theorem split_richRuleText {target : Target}
    (h : rule.richTarget text.toAddressText = some target) :
    Shlex.split (richRuleText rule) =
      some (["rule", "family=ipv4", "source", "address=" ++ rule.srcCidr.getD "0.0.0.0/0"] ++
        (match rule.dstPortStart with
          | none => []
          | some port => ["port", "port=" ++ toString port,
              "protocol=" ++ rule.protoWord.getD "all"]) ++
        [firewalldActionWord rule.action]) := by
  have hwords : ∀ w ∈ ["rule", "family=ipv4", "source"], Shlex.PlainWord w.toList := by decide
  have haddress : Shlex.PlainWord "address=".toList := by decide
  have hsource : ∀ c ∈ (rule.srcCidr.getD "0.0.0.0/0").toList, c ≠ '"' ∧ c ≠ '\\' := by
    intro c hc
    have hplain := unquoted_of_addrChar (richSource_chars h c hc)
    exact ⟨hplain.1, hplain.2.1⟩
  have haction : Shlex.PlainWord (firewalldActionWord rule.action).toList := by
    cases rule.action <;> decide
  have hstart : "rule family=ipv4 source address=\"".toList =
      ["rule", "family=ipv4", "source"].flatMap (·.toList ++ [' ']) ++
        ("address=".toList ++ ['"']) := by
    simp only [flatMap_cons, flatMap_nil]
    repeat rw [String.toList_ofList]
    rfl
  have hend : "\" ".toList = ['"', ' '] := by decide
  have hline (middle : String) : ("rule family=ipv4 source address=\"" ++
      rule.srcCidr.getD "0.0.0.0/0" ++ middle ++ firewalldActionWord rule.action).toList =
        ["rule", "family=ipv4", "source"].flatMap (·.toList ++ [' ']) ++
          ("address=".toList ++ '"' :: ((rule.srcCidr.getD "0.0.0.0/0").toList ++
            (middle.toList ++ (firewalldActionWord rule.action).toList))) := by
    simp only [String.toList_append, hstart, append_assoc, cons_append, nil_append]
  rw [Shlex.split]
  delta richRuleText
  rw [hline, Shlex.lex_plain_words hwords]
  cases hport : rule.dstPortStart with
  | none =>
    rw [hend, cons_append, cons_append, nil_append,
      Shlex.lex_attribute haddress hsource, lex_last haction]
    simp only [Option.map_some, map_cons, map_nil, cons_append, nil_append,
      String.ofList_append, String.ofList_toList]
  | some port =>
    have hpart : "\" port port=\"".toList =
        '"' :: ' ' :: ("port".toList ++ ' ' :: ("port=".toList ++ ['"'])) := by
      decide
    have hproto : "\" protocol=\"".toList = '"' :: ' ' :: ("protocol=".toList ++ ['"']) := by
      decide
    have hnumber : ∀ c ∈ (toString port).toList, c ≠ '"' ∧ c ≠ '\\' := by
      intro c hc
      have hdigit := Text.isDigit_or_minus_of_mem_toString hc
      refine ⟨?_, ?_⟩ <;> rintro rfl <;> revert hdigit <;> decide
    have hquotes : '"' ∉ (rule.protoWord.getD "all").toList ∧
        '\\' ∉ (rule.protoWord.getD "all").toList := by
      rw [FirewallRule.protoWord]
      cases rule.protocol <;> decide
    have hname : ∀ c ∈ (rule.protoWord.getD "all").toList, c ≠ '"' ∧ c ≠ '\\' := by
      intro c hc
      exact ⟨fun heq => hquotes.1 (heq ▸ hc), fun heq => hquotes.2 (heq ▸ hc)⟩
    simp only [String.toList_append, hpart, hproto, hend, append_assoc, cons_append,
      nil_append]
    rw [Shlex.lex_attribute haddress hsource,
      Shlex.lex_plain_space (by decide), Shlex.lex_attribute (by decide) hnumber,
      Shlex.lex_attribute (by decide) hname, lex_last haction]
    simp only [Option.map_some, map_cons, map_nil, cons_append, nil_append,
      String.ofList_append, String.ofList_toList]

theorem readRichRule_richRuleText {target : Target}
    (h : rule.richTarget text.toAddressText = some target) (haction : rule.action = .allow)
    (hport : ∀ port ∈ rule.dstPortStart, 0 ≤ port) :
    readRichRule text.toAddressText (richRuleText rule) =
      some ⟨target, rule.dstPortStart.map fun port => (port.toNat, rule.protocol), .accept⟩ := by
  have hsource : (Text.afterStart "address=" ("address=" ++ rule.srcCidr.getD "0.0.0.0/0")).bind
      (richSource text.toAddressText) = some target := by
    rw [Text.afterStart_append, Option.bind_some]
    exact h
  have hword : richActionOfWord (firewalldActionWord rule.action) = some .accept := by
    rw [haction]
    rfl
  rw [readRichRule, split_richRuleText h, Option.bind_some]
  cases hstart : rule.dstPortStart with
  | none =>
    show (Option.bind _ fun source => Option.bind _ fun action => _) = _
    rw [hsource, Option.bind_some, hword]
    rfl
  | some port =>
    have hnumber : (Text.afterStart "port=" ("port=" ++ toString port)).bind Text.parseDecimal =
        some port.toNat := by
      rw [Text.afterStart_append, Option.bind_some, Text.parseDecimal_toString_int,
        if_pos (hport port hstart)]
    have hprotocol : (Text.afterStart "protocol=" ("protocol=" ++ rule.protoWord.getD "all")).bind
        richProtocolOfWord = some rule.protocol := by
      rw [Text.afterStart_append, Option.bind_some, richProtocolOfWord_protoWord]
    show (Option.bind _ fun source => Option.bind _ fun port => Option.bind _ fun protocol =>
      Option.bind _ fun action => _) = _
    rw [hsource, Option.bind_some, hnumber, Option.bind_some, hprotocol, Option.bind_some, hword]
    rfl

end RichRule

/-! ## Packets -/

theorem Target.exists_covers_v4 {target : Target} (h : target.family? = some .v4) :
    ∃ ip : IpAddr, ip.family = .v4 ∧ target.covers ip = true := by
  cases target with
  | any => cases h
  | host ip => exact ⟨ip, Option.some.inj h, decide_eq_true rfl⟩
  | net network =>
    exact ⟨network.network, Option.some.inj h, decide_eq_true network.contains_network⟩

/-- A packet that comes in, to the port if its protocol has ports. -/
def inboundPacket (protocol : PacketProtocol) (src : IpAddr) (port : UInt16) : Packet where
  flow := .inbound
  protocol := protocol
  src := src
  dst := src
  ports := if protocol.hasPorts then some (0, port) else none
  iface := ""
  sameFamily := rfl
  ports_isSome := by cases protocol <;> rfl

section Scope

variable {text : ZeroText} {rule : FirewallRule}

theorem richSource_everything :
    richSource text.toAddressText "0.0.0.0/0" =
      some (.net ⟨.zero .v4, 0, Nat.zero_le _⟩) := by
  have hnet := text.parseNet_displayNet ⟨.zero .v4, 0, Nat.zero_le _⟩
  rw [text.displayNet_v4] at hnet
  have haddr : text.parseAddr "0.0.0.0/0" = none := by
    refine Option.eq_none_iff_forall_not_mem.mpr ?_
    intro ip hip
    exact absurd ((text.addr_chars _ ip hip).2 '/' (by decide)) (by decide)
  rw [richSource, targetOfWord, if_neg (by decide), haddr, hnet]
  rfl

theorem FirewalldScope.richTarget (h : FirewalldScope text.toAddressText rule) :
    ∃ target, rule.richTarget text.toAddressText = some target ∧ target.family? = some .v4 ∧
      ∀ ip : IpAddr, ip.family = .v4 →
        target.covers ip = cidrCovers text.toAddressText rule.srcCidr ip := by
  unfold FirewallRule.richTarget
  cases hsrc : rule.srcCidr with
  | none =>
    refine ⟨_, richSource_everything, rfl, ?_⟩
    exact fun ip hfamily => decide_eq_true (IpNet.contains_of_prefixLen_zero rfl hfamily)
  | some cidr =>
    obtain ⟨target, htarget, hfamily⟩ := h.source cidr hsrc
    refine ⟨target, ?_, hfamily, ?_⟩
    · rw [Option.getD_some, richSource, htarget, Option.filter_some, hfamily]
      rfl
    · intro ip _
      rw [cidrCovers, cidrTarget, Option.getD_some, htarget]
      rfl

theorem FirewalldScope.accepts_iff (h : FirewalldScope text.toAddressText rule) :
    ∃ rich, rule.richRule (readRichRule text.toAddressText) = some rich ∧
      ∀ packet, rich.accepts packet = true ↔
        packet.flow = .inbound ∧ packet.src.family = .v4 ∧
          cidrCovers text.toAddressText rule.srcCidr packet.src = true ∧
          ∀ port ∈ rule.dstPortStart, packet.dstPort = some port.toNat ∧
            rule.protocol.covers packet.protocol = true := by
  obtain ⟨target, htarget, -, hcovers⟩ := h.richTarget
  have hquote : ∀ cidr ∈ rule.srcCidr, '\'' ∉ cidr.toList := by
    intro cidr hcidr hmem
    have hsource : richSource text.toAddressText cidr = some target := by
      rw [FirewallRule.richTarget, hcidr, Option.getD_some] at htarget
      exact htarget
    exact (unquoted_of_addrChar (richSource_chars hsource _ hmem)).2.2 rfl
  have hport : ∀ port ∈ rule.dstPortStart, 0 ≤ port := by
    intro port hmem
    have hrange := h.portRange port hmem
    omega
  refine ⟨_, (richRule_eq _ hquote).trans (readRichRule_richRuleText htarget h.action hport), ?_⟩
  intro packet
  unfold RichRule.accepts
  simp only [Bool.and_eq_true, beq_iff_eq, and_assoc, true_and, BEq.rfl]
  refine and_congr_right fun _ => and_congr_right fun hfamily => ?_
  rw [hcovers packet.src hfamily]
  refine and_congr_right fun _ => ?_
  cases rule.dstPortStart with
  | none => simp
  | some port => simp

theorem FirewalldScope.isFor_iff (h : FirewalldScope text.toAddressText rule) {packet : Packet}
    (hflow : packet.flow = .inbound) :
    rule.isFor text.toAddressText packet = true ↔
      rule.direction = .in ∧ rule.protocol.covers packet.protocol = true ∧
        cidrCovers text.toAddressText rule.srcCidr packet.src = true ∧
        rangeAdmits rule.dstPortStart rule.dstPortEnd packet.dstPort = true := by
  have hdirection : rule.direction.covers .inbound = true ↔ rule.direction = .in := by
    cases rule.direction <;> decide
  have hinterface : rule.interface = none := by
    rw [FirewallRule.interface, h.interfaces.1, h.interfaces.2, ite_self]
  have hdst : cidrCovers text.toAddressText rule.dstCidr packet.dst = true := by
    rw [h.dstCidr]
    rfl
  have hsrcPorts : rangeAdmits rule.srcPortStart rule.srcPortEnd packet.srcPort = true := by
    rw [h.srcPorts.1]
    rfl
  rw [FirewallRule.isFor, Bool.and_eq_true, FirewallRule.matches_iff, hflow, hdirection, hinterface]
  constructor
  · rintro ⟨hin, -, -, hprotocol, hsource, -, -, hports⟩
    exact ⟨hin, hprotocol, hsource, hports⟩
  · rintro ⟨hin, hprotocol, hsource, hports⟩
    have hflow' : rule.flow = .inbound := by
      rw [FirewallRule.flow, hin]
      rfl
    exact ⟨hin, hflow', rfl, hprotocol, hsource, hdst, hsrcPorts, hports⟩

theorem FirewalldScope.rangeAdmits (h : FirewalldScope text.toAddressText rule) {port : Int}
    (hport : rule.dstPortStart = some port) :
    rangeAdmits rule.dstPortStart rule.dstPortEnd (some port.toNat) = true := by
  have hrange := h.portRange port hport
  have hstop : rule.dstPortEnd.getD port = port := by
    cases hend : rule.dstPortEnd with
    | none => rfl
    | some stop =>
      have hsame := h.dstPort stop hend
      rw [hport] at hsame
      exact (Option.some.inj hsame).symm
  rw [hport]
  show decide (port ≤ (port.toNat : Int) ∧ (port.toNat : Int) ≤ rule.dstPortEnd.getD port) = true
  rw [hstop, decide_eq_true_eq]
  omega

end Scope

/-- **When firewalld never widens an allow rule.** Every packet that the rich rule of an allow rule
in scope accepts is a packet of the rule if and only if the rule is inbound and has a port or is for
every protocol, or it has a port and a protocol without ports, so that nothing is accepted. -/
theorem firewalld_never_widens_iff (text : ZeroText) (rule : FirewallRule)
    (h : FirewalldScope text.toAddressText rule) :
    rule.NeverWidened text.toAddressText ↔
      (rule.direction = .in ∧ (rule.dstPortStart.isSome = true ∨ rule.protocol = .any)) ∨
        (rule.dstPortStart.isSome = true ∧ rule.protocol.sample.hasPorts = false) := by
  obtain ⟨rich, hrich, haccepts⟩ := h.accepts_iff
  obtain ⟨target, -, hfamily, hcovers⟩ := h.richTarget
  obtain ⟨src, hv4, hsrc⟩ := Target.exists_covers_v4 hfamily
  rw [hcovers src hv4] at hsrc
  constructor
  · intro hnever
    cases hport : rule.dstPortStart with
    | none =>
      -- A packet without ports, of a protocol that only `any` covers.
      have haccepted : rich.accepts (inboundPacket .other src 0) = true := by
        rw [haccepts, hport]
        exact ⟨rfl, hv4, hsrc, nofun⟩
      have hmatch := (h.isFor_iff rfl).mp (hnever rich _ hrich haccepted)
      have hany : rule.protocol = .any := by
        have hother : rule.protocol.covers .other = true := hmatch.2.1
        revert hother
        cases rule.protocol <;> decide
      exact Or.inl ⟨hmatch.1, Or.inr hany⟩
    | some port =>
      cases hcarried : rule.protocol.sample.hasPorts with
      | false => exact Or.inr ⟨rfl, rfl⟩
      | true =>
        have hrange := h.portRange port hport
        have hnumber : (inboundPacket rule.protocol.sample src
            (UInt16.ofNat port.toNat)).dstPort = some port.toNat := by
          have hsmall : (UInt16.ofNat port.toNat).toNat = port.toNat :=
            UInt16.toNat_ofNat_of_lt' (by simp only [UInt16.size]; omega)
          simp only [Packet.dstPort, inboundPacket, hcarried, if_true, Option.map_some, hsmall]
        have haccepted : rich.accepts (inboundPacket rule.protocol.sample src
            (UInt16.ofNat port.toNat)) = true := by
          rw [haccepts]
          refine ⟨rfl, hv4, hsrc, ?_⟩
          intro given hgiven
          obtain rfl : port = given := Option.some.inj (hport.symm.trans hgiven)
          exact ⟨hnumber, rule.protocol.covers_sample⟩
        have hmatch := (h.isFor_iff rfl).mp (hnever rich _ hrich haccepted)
        exact Or.inl ⟨hmatch.1, Or.inl rfl⟩
  · intro hcondition other packet hother haccepted
    obtain rfl : rich = other := Option.some.inj (hrich.symm.trans hother)
    obtain ⟨hflow, -, hsource, hports⟩ := (haccepts packet).mp haccepted
    rw [h.isFor_iff hflow]
    cases hport : rule.dstPortStart with
    | none =>
      rcases hcondition with ⟨hin, hset | hany⟩ | ⟨hset, -⟩
      · rw [hport] at hset
        cases hset
      · rw [hany]
        exact ⟨hin, rfl, hsource, rfl⟩
      · rw [hport] at hset
        cases hset
    | some port =>
      obtain ⟨hnumber, hprotocol⟩ := hports port hport
      rcases hcondition with ⟨hin, -⟩ | ⟨-, hcarries⟩
      · have hadmits := h.rangeAdmits hport
        rw [hport] at hadmits
        rw [hnumber]
        exact ⟨hin, hprotocol, hsource, hadmits⟩
      · -- A packet with a port has a protocol with ports, which the rule does not cover.
        have hhas : packet.protocol.hasPorts = true := by
          rw [← packet.ports_isSome]
          rw [Packet.dstPort, Option.map_eq_some_iff] at hnumber
          obtain ⟨pair, hpair, -⟩ := hnumber
          rw [hpair]
          rfl
        have hsample := FirewallProtocol.sample_hasPorts hprotocol hhas
        rw [hcarries] at hsample
        cases hsample

/-- An allow rule for TCP. -/
def tcpRule (direction : FirewallDirection) (port : Option Int) : FirewallRule :=
  { sshRule with direction := direction, dstPortStart := port, dstPortEnd := port }

theorem tcpRule_scope (direction : FirewallDirection) {port : Option Int}
    (h : ∀ p ∈ port, 1 ≤ p ∧ p ≤ 65535) :
    FirewalldScope shortText.toAddressText (tcpRule direction port) where
  action := rfl
  source := nofun
  dstCidr := rfl
  interfaces := ⟨rfl, rfl⟩
  srcPorts := ⟨rfl, rfl⟩
  dstPort := fun _ hstop => hstop
  portRange := h

/-- An inbound rule for the SSH port is not widened. -/
theorem ssh_rule_not_widened :
    (tcpRule .in (some 22)).NeverWidened shortText.toAddressText :=
  (firewalld_never_widens_iff shortText _ (tcpRule_scope .in (by decide))).mpr
    (Or.inl ⟨rfl, Or.inl rfl⟩)

theorem remoteHost_lt : 3405803785 < 2 ^ IpFamily.v4.width := by decide

/-- The address 203.0.113.9. -/
def remoteHost : IpAddr :=
  ⟨.v4, 3405803785, remoteHost_lt⟩

/-- The rich rule for everything from IPv4. -/
def acceptAll (port : Option (Nat × FirewallProtocol)) : RichRule :=
  ⟨.net ⟨.zero .v4, 0, Nat.zero_le _⟩, port, .accept⟩

theorem richRule_tcpRule (direction : FirewallDirection) {port : Option Int}
    (h : ∀ p ∈ port, 1 ≤ p ∧ p ≤ 65535) :
    (tcpRule direction port).richRule (readRichRule shortText.toAddressText) =
      some (acceptAll (port.map fun p => (p.toNat, .tcp))) := by
  have hport : ∀ p ∈ port, 0 ≤ p := fun p hp => Int.le_trans (by decide) (h p hp).1
  have hquote : ∀ cidr ∈ (tcpRule direction port).srcCidr, '\'' ∉ cidr.toList := nofun
  exact (richRule_eq _ hquote).trans (readRichRule_richRuleText richSource_everything rfl hport)

/-- An outbound rule for the SSH port opens the SSH port of the host itself, and an inbound rule for
TCP without a port lets ICMP in. -/
theorem outbound_rule_opens_port :
    ((tcpRule .out (some 22)).richRule (readRichRule shortText.toAddressText) =
          some (acceptAll (some (22, .tcp))) ∧
        (acceptAll (some (22, .tcp))).accepts (inboundPacket .tcp remoteHost 22) = true ∧
        (tcpRule .out (some 22)).isFor shortText.toAddressText
          (inboundPacket .tcp remoteHost 22) = false) ∧
      (tcpRule .in none).richRule (readRichRule shortText.toAddressText) =
          some (acceptAll none) ∧
        (acceptAll none).accepts (inboundPacket .icmp remoteHost 0) = true ∧
        (tcpRule .in none).isFor shortText.toAddressText
          (inboundPacket .icmp remoteHost 0) = false := by
  refine ⟨⟨richRule_tcpRule .out (by decide), ?_, ?_⟩, richRule_tcpRule .in nofun, ?_, ?_⟩ <;>
    decide +kernel

end FirewallManager
