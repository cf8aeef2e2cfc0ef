import FirewallManager.Net.Dotted

/-!
# The text of a network

A network is printed as its address, a slash and its prefix length. `NetText` is an address syntax
in which a printed network is read back, as the `ipnet` crate does. `AddressText.withNets` gives one
for every syntax of addresses, because a slash is no address character. In a `ZeroText` the zero
addresses are `0.0.0.0` and `::`.
-/

namespace FirewallManager

/-- The text of a network. -/
def displayNet (text : AddressText) (net : IpNet) : String :=
  text.displayAddr net.addr ++ "/" ++ toString net.prefixLen

/-- A printed network is read back, and the text of a network is not empty and has only address
characters and slashes. -/
structure NetText extends AddressText where
  parseNet_displayNet : ∀ net, parseNet (displayNet toAddressText net) = some net
  net_chars : ∀ text net, parseNet text = some net →
    text.toList ≠ [] ∧ ∀ c ∈ text.toList, isAddrChar c = true ∨ c = '/'

section Laws

variable (text : AddressText)

theorem displayAddr_chars (ip : IpAddr) :
    ∀ c ∈ (text.displayAddr ip).toList, isAddrChar c = true :=
  (text.addr_chars _ ip (text.parseAddr_displayAddr ip)).2

theorem parseNetWith_displayNet (net : IpNet) :
    parseNetWith text.parseAddr (displayNet text net) = some net := by
  have haddr : '/' ∉ (text.displayAddr net.addr).toList := fun h =>
    absurd (displayAddr_chars text net.addr '/' h) (by decide)
  have hlength : '/' ∉ (toString net.prefixLen).toList := fun h =>
    absurd (Text.isDigit_of_mem_toString h) (by decide)
  have hchars : (displayNet text net).toList =
      (text.displayAddr net.addr).toList ++ '/' :: (toString net.prefixLen).toList := by
    simp [displayNet]
  rw [parseNetWith, hchars, Text.cut_field haddr, Text.cut_field_end hlength]
  simp only [String.ofList_toList, text.parseAddr_displayAddr, Text.parseDecimal_toString,
    dif_pos net.prefixLen_le]

theorem parseNetWith_chars {entry : String} {net : IpNet}
    (h : parseNetWith text.parseAddr entry = some net) :
    entry.toList ≠ [] ∧ ∀ c ∈ entry.toList, isAddrChar c = true ∨ c = '/' := by
  unfold parseNetWith at h
  split at h
  next address length hcut =>
    split at h
    next addr prefixLen haddr hlength =>
      have haddress : ∀ c ∈ address, isAddrChar c = true := by
        have hchars := (text.addr_chars _ addr haddr).2
        rwa [String.toList_ofList] at hchars
      have hdigits : ∀ c ∈ length, isAddrChar c = true := by
        intro c hc
        unfold Text.parseDecimal at hlength
        split at hlength
        next hall =>
          rw [String.toList_ofList] at hall
          simp [isAddrChar, List.all_eq_true.mp hall.2 c hc]
        next => cases hlength
      refine ⟨fun hnil => ?_, fun c hc => ?_⟩
      · rw [hnil] at hcut
        cases hcut
      · rcases Text.mem_cut hc with hslash | ⟨field, hfield, hmem⟩
        · exact Or.inr hslash
        · rw [hcut] at hfield
          rcases List.mem_cons.mp hfield with rfl | hsecond
          · exact Or.inl (haddress c hmem)
          · rw [List.mem_singleton.mp hsecond] at hmem
            exact Or.inl (hdigits c hmem)
    next => cases h
  next => cases h

variable {text}

theorem parseNetWith_of_addr {entry : String} {ip : IpAddr} (h : text.parseAddr entry = some ip) :
    parseNetWith text.parseAddr entry = none := by
  have hslash : '/' ∉ entry.toList := fun hmem =>
    absurd ((text.addr_chars entry ip h).2 '/' hmem) (by decide)
  rw [parseNetWith, Text.cut_field_end hslash]

end Laws

/-- A syntax of addresses with `address/length` for networks. -/
def AddressText.withNets (text : AddressText) : NetText where
  toAddressText :=
    { text with
      parseNet := parseNetWith text.parseAddr
      parseNet_of_addr := fun _ _ h => parseNetWith_of_addr h }
  parseNet_displayNet := parseNetWith_displayNet text
  net_chars := fun _ _ h => parseNetWith_chars text h

/-- Dotted quads and full groups read back what they print. -/
def dottedNetText : NetText :=
  { dottedText with
    parseNet_displayNet := parseNetWith_displayNet dottedText
    net_chars := fun _ _ h => parseNetWith_chars dottedText h }

/-! ## The zero addresses -/

/-- The address of a family with no bit set. -/
def IpAddr.zero (family : IpFamily) : IpAddr where
  family := family
  value := 0
  value_lt := Nat.two_pow_pos _

/-- A syntax in which the zero addresses have their usual texts. -/
structure ZeroText extends NetText where
  display_zero_v4 : displayAddr (.zero .v4) = "0.0.0.0"
  display_zero_v6 : displayAddr (.zero .v6) = "::"

theorem ZeroText.displayNet_v4 (text : ZeroText) :
    displayNet text.toAddressText ⟨.zero .v4, 0, Nat.zero_le _⟩ = "0.0.0.0/0" := by
  rw [displayNet, text.display_zero_v4]
  rfl

theorem IpNet.contains_of_prefixLen_zero {net : IpNet} {ip : IpAddr} (h : net.prefixLen = 0)
    (hfamily : ip.family = net.addr.family) : net.Contains ip := by
  refine ⟨hfamily, (PrefixBlock.mem_iff _ _ _).mpr ?_⟩
  have hbits : net.hostBits = net.addr.family.width := by
    rw [IpNet.hostBits, h, Nat.sub_zero]
  have hip : ip.value < 2 ^ net.addr.family.width := hfamily ▸ ip.value_lt
  rw [hbits, Nat.div_eq_of_lt hip, Nat.div_eq_of_lt net.addr.value_lt]

/-- The zero address of IPv6 is abbreviated, every other address is in full groups. -/
def displayShort (ip : IpAddr) : String :=
  if ip = .zero .v6 then "::" else dottedText.displayAddr ip

/-- Read an address with that abbreviation. -/
def parseShort (text : String) : Option IpAddr :=
  if text = "::" then some (.zero .v6) else dottedText.parseAddr text

/-- A printed address is read back: no other address is printed as two colons. -/
theorem parseShort_displayShort (ip : IpAddr) : parseShort (displayShort ip) = some ip := by
  unfold parseShort displayShort
  by_cases hzero : ip = .zero .v6
  · rw [if_pos hzero, if_pos rfl, hzero]
  · have hcolons : dottedText.displayAddr ip ≠ "::" := by
      intro htext
      have hread := dottedText.parseAddr_displayAddr ip
      rw [htext] at hread
      have hnone : dottedText.parseAddr "::" = none := by decide +kernel
      rw [hnone] at hread
      cases hread
    rw [if_neg hzero, if_neg hcolons, dottedText.parseAddr_displayAddr]

theorem parseShort_chars {text : String} {ip : IpAddr} (h : parseShort text = some ip) :
    text.toList ≠ [] ∧ ∀ c ∈ text.toList, isAddrChar c = true := by
  unfold parseShort at h
  split at h
  next htext =>
    rw [htext]
    refine ⟨by decide, ?_⟩
    intro c hc
    obtain rfl : c = ':' := by simpa using hc
    decide
  next => exact dottedText.addr_chars text ip h

/-- Dotted quads and full groups, with the zero address of IPv6 abbreviated. -/
def shortAddresses : AddressText where
  parseAddr := parseShort
  displayAddr := displayShort
  parseNet := fun _ => none
  parseAddr_displayAddr := parseShort_displayShort
  addr_chars := fun _ _ h => parseShort_chars h
  parseNet_of_addr := fun _ _ _ => rfl

/-- The concrete syntax with that abbreviation. -/
def shortText : ZeroText where
  toNetText := shortAddresses.withNets
  display_zero_v4 := by decide +kernel
  display_zero_v6 := by decide +kernel

end FirewallManager
