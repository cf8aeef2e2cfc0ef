import FirewallManager.Net.Address
import FirewallManager.Lib.Text

/-!
# A concrete address syntax

`dottedText` is one `AddressText`: dotted quads for IPv4, eight full groups of four digits for
IPv6, and `address/length` for networks. Concrete runs use it. An address is read by printing a
candidate and comparing, so only canonical texts are accepted.
-/

namespace FirewallManager

open List

/-- The lowest `count` hexadecimal digits of a number, most significant first. -/
def hexDigits : Nat → Nat → List Char
  | 0, _ => []
  | count + 1, n => hexDigits count (n / 16) ++ [Nat.digitChar (n % 16)]

/-- The value of a hexadecimal digit. -/
def hexValue (c : Char) : Nat :=
  if c.isDigit then c.toNat - 48 else c.toNat - 87

/-- The number that a list of hexadecimal digits stands for. -/
def readHex (digits : List Char) : Nat :=
  digits.foldl (fun n c => 16 * n + hexValue c) 0

theorem hexValue_digitChar : ∀ n < 16, hexValue (Nat.digitChar n) = n := by
  decide

theorem isAddrChar_digitChar :
    ∀ n < 16, isAddrChar (Nat.digitChar n) = true ∧ Nat.digitChar n ≠ ':' := by
  decide

theorem readHex_hexDigits {count n : Nat} (h : n < 16 ^ count) :
    readHex (hexDigits count n) = n := by
  induction count generalizing n with
  | zero =>
    obtain rfl : n = 0 := by simpa using h
    rfl
  | succ count ih =>
    have hdiv : n / 16 < 16 ^ count := by
      rw [Nat.div_lt_iff_lt_mul (by decide), ← Nat.pow_succ]
      exact h
    have hrest : readHex (hexDigits count (n / 16)) = n / 16 := ih hdiv
    rw [hexDigits, readHex, foldl_append, ← readHex, hrest]
    simp only [foldl_cons, foldl_nil,
      hexValue_digitChar (n % 16) (Nat.mod_lt _ (by decide))]
    omega

theorem mem_hexDigits {count n : Nat} {c : Char} (h : c ∈ hexDigits count n) :
    isAddrChar c = true ∧ c ≠ ':' := by
  induction count generalizing n with
  | zero => simp [hexDigits] at h
  | succ count ih =>
    rw [hexDigits, mem_append, mem_singleton] at h
    rcases h with h | rfl
    · exact ih h
    · exact isAddrChar_digitChar _ (Nat.mod_lt _ (by decide))

/-- Put a colon after every fourth digit but the last. -/
def groupDigits : List Char → List Char
  | a :: b :: c :: d :: e :: rest => a :: b :: c :: d :: ':' :: groupDigits (e :: rest)
  | rest => rest

theorem filter_groupDigits {digits : List Char} (h : ':' ∉ digits) :
    (groupDigits digits).filter (· != ':') = digits := by
  induction digits using groupDigits.induct with
  | case1 a b c d e rest ih =>
    simp only [mem_cons, not_or] at h
    obtain ⟨ha, hb, hc, hd, hrest⟩ := h
    have hne : ∀ {x : Char}, ':' ≠ x → (x != ':') = true := fun hx => by simpa using hx.symm
    rw [groupDigits]
    simp only [filter_cons, hne ha, hne hb, hne hc, hne hd, if_true]
    rw [ih (by simpa using hrest)]
    rfl
  | case2 digits hshort =>
    rw [groupDigits]
    · exact filter_eq_self.mpr fun c hc => by
        simpa using fun heq : c = ':' => h (heq ▸ hc)
    · exact hshort

/-- The printed form of an address. -/
def displayDotted (ip : IpAddr) : List Char :=
  match ip.family with
  | .v4 =>
    (toString (ip.value / 2 ^ 24)).toList ++ '.' :: ((toString (ip.value / 2 ^ 16 % 256)).toList ++
      '.' :: ((toString (ip.value / 2 ^ 8 % 256)).toList ++
        '.' :: (toString (ip.value % 256)).toList))
  | .v6 => groupDigits (hexDigits 32 ip.value)

/-- The value of a dotted quad, not yet checked to be canonical. -/
def readQuad (chars : List Char) : Nat :=
  match (Text.cut '.' chars).map fun field => Text.parseDecimal (String.ofList field) with
  | [some a, some b, some c, some d] => a * 2 ^ 24 + b * 2 ^ 16 + c * 2 ^ 8 + d
  | _ => 0

/-- The address that a text may be the printed form of. -/
def readDotted (chars : List Char) : Option IpAddr :=
  if ':' ∈ chars then
    let value := readHex (chars.filter (· != ':'))
    if h : value < 2 ^ IpFamily.v6.width then some ⟨.v6, value, h⟩ else none
  else
    let value := readQuad chars
    if h : value < 2 ^ IpFamily.v4.width then some ⟨.v4, value, h⟩ else none

/-- Read an address: a candidate whose printed form is the text itself. -/
def parseDotted (text : String) : Option IpAddr :=
  (readDotted text.toList).filter fun ip => displayDotted ip == text.toList

/-- A network in the syntax of the addresses: an address, a slash and a prefix length. -/
def parseNetWith (parseAddr : String → Option IpAddr) (text : String) : Option IpNet :=
  match Text.cut '/' text.toList with
  | [address, length] =>
    match parseAddr (String.ofList address), Text.parseDecimal (String.ofList length) with
    | some addr, some prefixLen =>
      if h : prefixLen ≤ addr.family.width then some ⟨addr, prefixLen, h⟩ else none
    | _, _ => none
  | _ => none

/-- Read a network `address/length`. -/
def parseDottedNet : String → Option IpNet :=
  parseNetWith parseDotted

theorem dot_not_mem_toString (n : Nat) : '.' ∉ (toString n).toList := fun h =>
  absurd (Text.isDigit_of_mem_toString h) (by decide)

theorem colon_not_mem_toString (n : Nat) : ':' ∉ (toString n).toList := fun h =>
  absurd (Text.isDigit_of_mem_toString h) (by decide)

theorem readQuad_display {ip : IpAddr} (h : ip.family = .v4) :
    readQuad (displayDotted ip) = ip.value := by
  have hlt : ip.value < 2 ^ 32 := by simpa [h, IpFamily.width] using ip.value_lt
  have hcut : Text.cut '.' (displayDotted ip) =
      [(toString (ip.value / 2 ^ 24)).toList, (toString (ip.value / 2 ^ 16 % 256)).toList,
        (toString (ip.value / 2 ^ 8 % 256)).toList, (toString (ip.value % 256)).toList] := by
    rw [displayDotted, h]
    simp only [Text.cut_field (dot_not_mem_toString _), Text.cut_field_end (dot_not_mem_toString _)]
  rw [readQuad, hcut]
  simp only [map_cons, map_nil, String.ofList_toList, Text.parseDecimal_toString]
  omega

/-- The digits of an IPv6 address have a colon between them. -/
theorem colon_mem_groupDigits {digits : List Char} (h : 4 < digits.length) :
    ':' ∈ groupDigits digits := by
  match digits, h with
  | a :: b :: c :: d :: e :: rest, _ => simp [groupDigits]

theorem length_hexDigits (count n : Nat) : (hexDigits count n).length = count := by
  induction count generalizing n with
  | zero => rfl
  | succ count ih => simp [hexDigits, ih]

theorem readDotted_display (ip : IpAddr) : readDotted (displayDotted ip) = some ip := by
  obtain ⟨family, value, hlt⟩ := ip
  cases family with
  | v4 =>
    have hcolon : ':' ∉ displayDotted ⟨.v4, value, hlt⟩ := by
      simp [displayDotted, -Nat.toString_eq_repr, colon_not_mem_toString]
    rw [readDotted, if_neg hcolon]
    simp only [readQuad_display, hlt, dif_pos]
  | v6 =>
    have hdigits : ':' ∉ hexDigits 32 value := fun h => (mem_hexDigits h).2 rfl
    have hcolon : ':' ∈ displayDotted ⟨.v6, value, hlt⟩ :=
      colon_mem_groupDigits (by rw [length_hexDigits]; decide)
    have hvalue : readHex ((displayDotted ⟨.v6, value, hlt⟩).filter (· != ':')) = value := by
      rw [displayDotted, filter_groupDigits hdigits, readHex_hexDigits]
      simpa [IpFamily.width] using hlt
    rw [readDotted, if_pos hcolon]
    simp only [hvalue, hlt, dif_pos]

theorem isAddrChar_of_mem_groupDigits {digits : List Char} {c : Char}
    (hdigits : ∀ d ∈ digits, isAddrChar d = true) (h : c ∈ groupDigits digits) :
    isAddrChar c = true := by
  induction digits using groupDigits.induct with
  | case1 w x y z e rest ih =>
    rw [groupDigits] at h
    simp only [forall_mem_cons] at hdigits
    obtain ⟨hw, hx, hy, hz, hrest⟩ := hdigits
    simp only [mem_cons] at h
    rcases h with rfl | rfl | rfl | rfl | rfl | h
    · exact hw
    · exact hx
    · exact hy
    · exact hz
    · decide
    · exact ih (by simpa using hrest) h
  | case2 digits hshort =>
    rw [groupDigits] at h
    · exact hdigits c h
    · exact hshort

theorem displayDotted_chars (ip : IpAddr) :
    displayDotted ip ≠ [] ∧ ∀ c ∈ displayDotted ip, isAddrChar c = true := by
  have hdigit {n : Nat} {c : Char} (h : c ∈ (toString n).toList) : isAddrChar c = true := by
    simp [isAddrChar, Text.isDigit_of_mem_toString h]
  obtain ⟨family, value, hlt⟩ := ip
  cases family with
  | v4 =>
    refine ⟨by simp [displayDotted], fun c hc => ?_⟩
    simp only [displayDotted, mem_append, mem_cons] at hc
    rcases hc with hc | rfl | hc | rfl | hc | rfl | hc <;> first | exact hdigit hc | decide
  | v6 =>
    refine ⟨fun hnil => ?_, fun c hc =>
      isAddrChar_of_mem_groupDigits (fun d hd => (mem_hexDigits hd).1) hc⟩
    have hcolon : ':' ∈ displayDotted ⟨.v6, value, hlt⟩ :=
      colon_mem_groupDigits (by rw [length_hexDigits]; decide)
    simp [hnil] at hcolon

theorem displayDotted_of_parse {text : String} {ip : IpAddr} (h : parseDotted text = some ip) :
    displayDotted ip = text.toList := by
  rw [parseDotted, Option.filter_eq_some_iff] at h
  exact beq_iff_eq.mp h.2

/-- Dotted quads, full IPv6 groups, and networks with a prefix length. -/
def dottedText : AddressText where
  parseAddr := parseDotted
  displayAddr := fun ip => String.ofList (displayDotted ip)
  parseNet := parseDottedNet
  parseAddr_displayAddr := fun ip => by
    simp [parseDotted, readDotted_display]
  addr_chars := fun text ip h => by
    rw [← displayDotted_of_parse h]
    exact displayDotted_chars ip
  parseNet_of_addr := fun text ip h => by
    have hslash : '/' ∉ text.toList := fun hmem => by
      rw [← displayDotted_of_parse h] at hmem
      exact absurd ((displayDotted_chars ip).2 '/' hmem) (by decide)
    rw [parseDottedNet, parseNetWith, Text.cut_field_end hslash]

example : dottedText.parseAddr "10.0.0.1" = some ⟨.v4, 0x0A000001, by decide⟩ := by
  decide

end FirewallManager
