import FirewallManager.Net.Address

/-!
# Packets

What a host firewall sees of a packet. A packet has ports exactly when its protocol carries
them, and its two addresses are of one family; both are part of the type.
-/

namespace FirewallManager

/-- Whether a packet enters or leaves the host. -/
inductive Flow where
  | inbound
  | outbound
  deriving DecidableEq, Repr

/-- The protocol of a packet. -/
inductive PacketProtocol where
  | tcp
  | udp
  | icmp
  | icmpv6
  | gre
  | esp
  | ah
  | sctp
  | other
  deriving DecidableEq, Repr

/-- The protocols whose packets have ports. -/
def PacketProtocol.hasPorts : PacketProtocol → Bool
  | .tcp => true
  | .udp => true
  | .sctp => true
  | _ => false

/-- A packet at the host's firewall. -/
structure Packet where
  flow : Flow
  protocol : PacketProtocol
  src : IpAddr
  dst : IpAddr
  ports : Option (UInt16 × UInt16)
  iface : String
  sameFamily : src.family = dst.family
  ports_isSome : ports.isSome = protocol.hasPorts
  deriving DecidableEq

/-- The source port, if the packet has ports. -/
def Packet.srcPort (packet : Packet) : Option Nat :=
  packet.ports.map (·.1.toNat)

/-- The destination port, if the packet has ports. -/
def Packet.dstPort (packet : Packet) : Option Nat :=
  packet.ports.map (·.2.toNat)

end FirewallManager
