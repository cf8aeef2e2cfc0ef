import FirewallManager.Lib.PrefixBlock
import FirewallManager.Lib.Shlex

/-!
# IP addresses and networks

Addresses of both families, networks as an address with a prefix length, and the conversions
between them and text. An address is a number below the size of its family, and a network is
an aligned block of them, so `IpNet.overlap_iff` is the block lemma of `PrefixBlock`: two
networks share an address exactly when one contains the other's network address.

The text conversions belong to the standard library and to the `ipnet` crate. They are a
parameter, `AddressText`, which carries what the development uses about them.
-/

namespace FirewallManager

/-- The two address families. -/
inductive IpFamily where
  | v4
  | v6
  deriving DecidableEq, Repr

/-- The number of bits of an address. -/
def IpFamily.width : IpFamily → Nat
  | .v4 => 32
  | .v6 => 128

/-- An IP address: a number that fits its family. -/
structure IpAddr where
  family : IpFamily
  value : Nat
  value_lt : value < 2 ^ family.width
  deriving DecidableEq

/-- The all-zeros address, which stands for no specific host. -/
def IpAddr.isUnspecified (ip : IpAddr) : Bool :=
  ip.value == 0

/-- An address with a prefix length. The address may have host bits set. -/
structure IpNet where
  addr : IpAddr
  prefixLen : Nat
  prefixLen_le : prefixLen ≤ addr.family.width
  deriving DecidableEq

/-- The number of free low bits of a network. -/
def IpNet.hostBits (net : IpNet) : Nat :=
  net.addr.family.width - net.prefixLen

/-- The network address: the address with its host bits cleared. -/
def IpNet.network (net : IpNet) : IpAddr where
  family := net.addr.family
  value := PrefixBlock.first net.addr.value net.hostBits
  value_lt := Nat.lt_of_le_of_lt (Nat.div_mul_le_self _ _) net.addr.value_lt

/-- The address is between the network address and the broadcast address. -/
def IpNet.Contains (net : IpNet) (ip : IpAddr) : Prop :=
  ip.family = net.addr.family ∧ PrefixBlock.Mem net.addr.value net.hostBits ip.value

/-- Containment is decided by a family test and two comparisons. -/
instance (net : IpNet) (ip : IpAddr) : Decidable (net.Contains ip) :=
  inferInstanceAs (Decidable (_ ∧ _))

theorem IpNet.contains_network (net : IpNet) : net.Contains net.network :=
  ⟨rfl, PrefixBlock.mem_first _ _⟩

theorem IpNet.overlap_iff (net net' : IpNet) :
    (∃ ip, net.Contains ip ∧ net'.Contains ip) ↔
      net.Contains net'.network ∨ net'.Contains net.network := by
  constructor
  · rintro ⟨ip, ⟨hfamily, hmem⟩, hfamily', hmem'⟩
    rcases (PrefixBlock.overlap_iff _ _ _ _).mp ⟨ip.value, hmem, hmem'⟩ with h | h
    · exact Or.inl ⟨hfamily'.symm.trans hfamily, h⟩
    · exact Or.inr ⟨hfamily.symm.trans hfamily', h⟩
  · rintro (h | h)
    · exact ⟨_, h, net'.contains_network⟩
    · exact ⟨_, net.contains_network, h⟩

/-- The characters an address text is made of: hexadecimal digits, dots and colons. -/
def isAddrChar (c : Char) : Bool :=
  c.isDigit || (('a' ≤ c) && (c ≤ 'f')) || (('A' ≤ c) && (c ≤ 'F')) || c == '.' || c == ':'

/-- The text conversions of addresses and networks. A printed address is read back, an address
text is not empty and has only address characters, and a text that is an address on its own is
not a network, which needs a prefix length. -/
structure AddressText where
  parseAddr : String → Option IpAddr
  displayAddr : IpAddr → String
  parseNet : String → Option IpNet
  parseAddr_displayAddr : ∀ ip, parseAddr (displayAddr ip) = some ip
  addr_chars : ∀ text ip, parseAddr text = some ip →
    text.toList ≠ [] ∧ ∀ c ∈ text.toList, isAddrChar c = true
  parseNet_of_addr : ∀ text ip, parseAddr text = some ip → parseNet text = none

theorem isPlain_of_isAddrChar {c : Char} (h : isAddrChar c = true) : Shlex.isPlain c = true := by
  by_contra hplain
  have hc : c = ' ' ∨ c = '\t' ∨ c = '\n' ∨ c = '"' ∨ c = '\'' ∨ c = '\\' := by
    simp only [Shlex.isPlain, Shlex.isGap, Bool.and_eq_true, Bool.not_eq_true', bne_iff_ne, ne_eq,
      Bool.or_eq_false_iff, beq_eq_false_iff_ne] at hplain
    tauto
  rcases hc with rfl | rfl | rfl | rfl | rfl | rfl <;> revert h <;> decide

theorem AddressText.plainWord (text : AddressText) {s : String} {ip : IpAddr}
    (h : text.parseAddr s = some ip) : Shlex.PlainWord s.toList := by
  obtain ⟨hne, hchars⟩ := text.addr_chars s ip h
  refine ⟨hne, fun c hc => isPlain_of_isAddrChar (hchars c hc), fun hhash => ?_⟩
  have hmem : '#' ∈ s.toList := List.mem_of_mem_head? hhash
  exact absurd (hchars '#' hmem) (by decide)

end FirewallManager
