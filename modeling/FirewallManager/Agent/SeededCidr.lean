import FirewallManager.Agent.ManagerUrl
import FirewallManager.Agent.ProtectedSound
import FirewallManager.Manager.ProtectedCheck
import FirewallManager.Net.NetText

/-!
# The protected entry of the manager

At enrolment the agent resolves the host of the manager URL and protects the address with the
prefix length 32, whatever its family. `seeded_entry_exact_iff` says that the entry stands for the
manager alone exactly if the address is an IPv4 one.
-/

namespace FirewallManager

section Seed

variable (text : AddressText) (parser : UrlParser text)
  (resolve : String → Except String (List IpAddr))

/-- The first address that the host of a URL resolves to. -/
def managerAddress? (managerUrl : String) : Option IpAddr := do
  let parsed ← (parser.parse managerUrl).toOption
  let host ← parsed.hostStr
  let addrs ← (resolve (host ++ ":443")).toOption
  addrs.head?

/-- `auto_detect_manager_cidr`. -/
def autoDetectManagerCidr (managerUrl : String) : Option String :=
  (managerAddress? text parser resolve managerUrl).map text.displayAddr

/-- What `save_config` does to the protected networks. -/
def seedProtectedCidrs (managerUrl : String) (protectedCidrs : List String) : List String :=
  match autoDetectManagerCidr text parser resolve managerUrl with
  | some ip =>
    let cidr := ip ++ "/32"
    if cidr ∈ protectedCidrs then protectedCidrs else protectedCidrs ++ [cidr]
  | none => protectedCidrs

/-- The entry stands for one address alone, and a blocking rule is refused for it exactly if its
source contains the address. -/
structure ExactEntry (entry : String) (ip : IpAddr) : Prop where
  only : ∃ net, text.parseNet entry = some net ∧ ∀ other, net.Contains other ↔ other = ip
  refused : ∀ rule src net, rule.action.blocks = true → rule.srcCidr = some src →
    text.parseNet src = some net →
      (checkRulesAgainstProtected text [rule] [entry] ≠ .ok () ↔ net.Contains ip)

end Seed

theorem IpNet.contains_iff_of_full (net : IpNet) (h : net.prefixLen = net.addr.family.width)
    (ip : IpAddr) : net.Contains ip ↔ ip = net.addr := by
  have hbits : net.hostBits = 0 := by rw [IpNet.hostBits, h, Nat.sub_self]
  rw [IpNet.Contains, hbits, PrefixBlock.mem_iff, Nat.pow_zero, Nat.div_one, Nat.div_one]
  obtain ⟨⟨family, value, hvalue⟩, prefixLen, hprefix⟩ := net
  obtain ⟨family', value', hvalue'⟩ := ip
  simp

theorem IpNet.exists_contains_ne (net : IpNet) (h : net.prefixLen < net.addr.family.width)
    (ip : IpAddr) : ∃ other, net.Contains other ∧ other ≠ ip := by
  have hbits : net.hostBits ≠ 0 := Nat.sub_ne_zero_of_lt h
  have hsize : 2 ∣ 2 ^ net.hostBits := dvd_pow_self 2 hbits
  -- The network address is even, so its successor is an address of the family as well.
  have hnext : net.network.value + 1 < 2 ^ net.addr.family.width := by
    have hlt := net.network.value_lt
    obtain ⟨half, hhalf⟩ : 2 ∣ net.network.value := hsize.mul_left _
    obtain ⟨half', hhalf'⟩ : 2 ∣ 2 ^ net.addr.family.width := dvd_pow_self 2 (by omega)
    have hfamily : net.network.family = net.addr.family := rfl
    rw [hfamily] at hlt
    omega
  by_cases hip : net.network = ip
  · refine ⟨⟨net.addr.family, net.network.value + 1, hnext⟩, ⟨rfl, ?_⟩, ?_⟩
    · have hpos := Nat.le_of_dvd (Nat.two_pow_pos _) hsize
      rw [PrefixBlock.Mem, PrefixBlock.last]
      exact ⟨Nat.le_succ _, Nat.add_le_add_left (by omega) _⟩
    · rintro rfl
      exact absurd (congrArg IpAddr.value hip) (Nat.succ_ne_self _).symm
  · exact ⟨net.network, net.contains_network, hip⟩

variable {text : AddressText}

theorem refused_iff_of_only {entry src : String} {ip : IpAddr} {net entryNet : IpNet}
    {rule : FirewallRule} (hentry : text.parseNet entry = some entryNet)
    (honly : ∀ other, entryNet.Contains other ↔ other = ip)
    (hblocks : rule.action.blocks = true) (hsrc : rule.srcCidr = some src)
    (hnet : text.parseNet src = some net) :
    checkRulesAgainstProtected text [rule] [entry] ≠ .ok () ↔ net.Contains ip := by
  have hallow : rule.action ≠ .allow := by
    rintro hallow
    simp [hallow, FirewallAction.blocks] at hblocks
  have htouches : Refused text [entry] rule ↔ net.Overlaps entryNet := by
    simp [Refused, TouchesProtected, hallow, hblocks, hsrc, hnet, hentry]
  have hshared : (∃ other, net.Contains other ∧ entryNet.Contains other) ↔ net.Contains ip := by
    simp [honly]
  rw [ne_eq, checkRules_ok_iff, List.forall_mem_singleton, not_not, htouches, IpNet.overlaps_iff,
    hshared, and_iff_right_iff_imp]
  intro hcontains
  exact hcontains.1.symm.trans ((honly ip).mpr rfl).1

/-- The entry that enrolment makes sure of stands for the manager alone exactly if the manager has
an IPv4 address. -/
theorem seeded_entry_exact_iff (text : NetText) (parser : UrlParser text.toAddressText)
    (resolve : String → Except String (List IpAddr)) (managerUrl : String) {ip : IpAddr}
    (h : managerAddress? text.toAddressText parser resolve managerUrl = some ip)
    (protectedCidrs : List String) :
    ∃ entry, seedProtectedCidrs text.toAddressText parser resolve managerUrl protectedCidrs =
        (if entry ∈ protectedCidrs then protectedCidrs else protectedCidrs ++ [entry]) ∧
      (ExactEntry text.toAddressText entry ip ↔ ip.family = .v4) := by
  have hwidth : 32 ≤ ip.family.width := by cases ip.family <;> decide
  have hparse : text.parseNet (text.displayAddr ip ++ "/32") = some ⟨ip, 32, hwidth⟩ := by
    have hsuffix : "/32" = "/" ++ toString 32 := by decide +kernel
    rw [← text.parseNet_displayNet, displayNet, String.append_assoc, hsuffix]
  refine ⟨text.displayAddr ip ++ "/32", ?_, ?_, ?_⟩
  · simp only [seedProtectedCidrs, autoDetectManagerCidr, h, Option.map_some]
  · intro hexact
    cases hfamily : ip.family with
    | v4 => rfl
    | v6 =>
      obtain ⟨net, hnet, honly⟩ := hexact.only
      obtain rfl := Option.some.inj (hparse.symm.trans hnet)
      obtain ⟨other, hcontains, hne⟩ := IpNet.exists_contains_ne ⟨ip, 32, hwidth⟩
        (by simp [hfamily, IpFamily.width]) ip
      exact absurd ((honly other).mp hcontains) hne
  · intro hfamily
    have honly := IpNet.contains_iff_of_full ⟨ip, 32, hwidth⟩ (by simp [hfamily, IpFamily.width])
    exact ⟨⟨_, hparse, honly⟩, fun _ _ _ => refused_iff_of_only hparse honly⟩

/-- The address of a manager with IPv4. -/
def managerV4 : IpAddr := ⟨.v4, 10 * 2 ^ 24 + 1, by decide⟩

/-- The address of a manager with IPv6. -/
def managerV6 : IpAddr := ⟨.v6, 0x20010db8 * 2 ^ 96 + 1, by decide⟩

/-- The resolver that knows both. -/
def resolveManagers (authority : String) : Except String (List IpAddr) :=
  if authority = "manager-v4:443" then .ok [managerV4]
  else if authority = "manager-v6:443" then .ok [managerV6]
  else .error "Name or service not known"

/-- A rule that denies another network of the provider of the second one. -/
def denyNeighbourRule : FirewallRule :=
  { denySshRule with srcCidr := some "2001:0db8:0001:0000:0000:0000:0000:0000/48" }

/-- The rule is refused for the entry of the manager, whose address it does not contain. -/
theorem neighbour_of_ipv6_manager_refused :
    managerAddress? dottedText plainUrlParser resolveManagers "https://manager-v6:443" =
        some managerV6 ∧
      seedProtectedCidrs dottedText plainUrlParser resolveManagers "https://manager-v6:443" [] =
        ["2001:0db8:0000:0000:0000:0000:0000:0001/32"] ∧
      ¬ ExactEntry dottedText "2001:0db8:0000:0000:0000:0000:0000:0001/32" managerV6 := by
  refine ⟨by decide +kernel, by decide +kernel, fun hexact => ?_⟩
  have hrefused := hexact.refused denyNeighbourRule _
    ⟨⟨.v6, 0x20010db80001 * 2 ^ 80, by decide⟩, 48, by decide⟩ rfl rfl (by decide +kernel)
  exact absurd (hrefused.mp (by decide +kernel)) (by decide +kernel)

theorem ipv4_manager_exact :
    ∃ entry, entry ∈ seedProtectedCidrs dottedText plainUrlParser resolveManagers
        "https://manager-v4:443" [] ∧ ExactEntry dottedText entry managerV4 := by
  obtain ⟨entry, hseed, hexact⟩ := seeded_entry_exact_iff dottedNetText plainUrlParser
    resolveManagers "https://manager-v4:443" (show _ = some managerV4 by decide +kernel) []
  exact ⟨entry, hseed ▸ List.mem_singleton_self _, hexact.mpr rfl⟩

end FirewallManager
