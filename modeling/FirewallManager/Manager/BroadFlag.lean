import FirewallManager.Manager.RuleEdit
import FirewallManager.Net.NetText

/-!
# What the broad-allow flag says

`checkRule` compares the text of the source with the two usual spellings of everything, and asks for
absent ports. A rule of the table may allow everything in other words: an `inet` value keeps the
host bits of its address whatever its prefix length, and a range may have all ports.
`broad_flag_exact_iff` says for which rules the flag means that the rule allows every source and
every port.
-/

namespace FirewallManager

/-- The address of a family with all bits set. -/
def IpAddr.last (family : IpFamily) : IpAddr where
  family := family
  value := 2 ^ family.width - 1
  value_lt := Nat.sub_lt (Nat.two_pow_pos _) Nat.one_pos

/-- The source matches every address of its family. -/
def MatchesEverySource (src : Option IpNet) : Prop :=
  ∀ net ∈ src, ∀ ip : IpAddr, ip.family = net.addr.family → net.Contains ip

/-- The ports match every port. -/
def MatchesEveryPort (ports : Option PortRange) : Prop :=
  ∀ range ∈ ports, ∀ port : Int, 1 ≤ port → port ≤ 65535 →
    range.start ≤ port ∧ port ≤ range.stop

/-- The rule allows every source of a family to every port. -/
def StoredRule.AllowsEverything (rule : StoredRule) (src : Option IpNet) : Prop :=
  rule.action = .allow ∧ MatchesEverySource src ∧ MatchesEveryPort rule.dstPorts

/-- The row with the text of an `inet` value as its source. -/
def StoredRule.from (text : AddressText) (src : Option IpNet) (rule : StoredRule) : StoredRule :=
  { rule with srcCidr := src.map (displayNet text) }

theorem matchesEverySource_iff {src : Option IpNet} :
    MatchesEverySource src ↔ ∀ net ∈ src, net.prefixLen = 0 := by
  refine forall₂_congr fun net _ => ?_
  have hle := net.prefixLen_le
  constructor
  · intro h
    -- The block contains both ends of the family.
    have hfirst := (h (.zero net.addr.family) rfl).2
    have hlast := (h (.last net.addr.family) rfl).2
    rw [PrefixBlock.mem_iff] at hfirst hlast
    rw [← hfirst] at hlast
    simp only [IpAddr.zero, IpAddr.last, Nat.zero_div, Nat.div_eq_zero_iff] at hlast
    have hpow : 2 ^ net.addr.family.width ≤ 2 ^ net.hostBits := by
      have hpos := Nat.two_pow_pos net.hostBits
      omega
    have hwidth := (Nat.pow_le_pow_iff_right (by decide)).mp hpow
    unfold IpNet.hostBits at hwidth
    have hsome : 0 < net.addr.family.width := by cases net.addr.family <;> decide
    omega
  · exact fun h _ hfamily => IpNet.contains_of_prefixLen_zero h hfamily

theorem matchesEveryPort_iff {ports : Option PortRange} :
    MatchesEveryPort ports ↔ ∀ range ∈ ports, range.start = 1 ∧ range.stop = 65535 := by
  refine forall₂_congr fun range _ => ?_
  have hone := range.one_le_start
  have horder := range.start_le_stop
  have hstop := range.stop_le
  constructor
  · intro h
    have hfirst := h 1 (by omega) (by omega)
    have hlast := h 65535 (by omega) (by omega)
    omega
  · intro h port hlow hhigh
    omega

theorem displayNet_injective (text : NetText) :
    Function.Injective (displayNet text.toAddressText) := by
  intro net net' h
  have hread := text.parseNet_displayNet net
  rw [h, text.parseNet_displayNet] at hread
  exact (Option.some.inj hread).symm

/-- The spellings that `checkRule` knows are those of the two networks without a bit set. -/
theorem broad_spelling_iff (text : ZeroText) (net : IpNet) :
    (displayNet text.toAddressText net = "0.0.0.0/0" ∨
        displayNet text.toAddressText net = "::/0" ∨
        displayNet text.toAddressText net = "any") ↔
      net.prefixLen = 0 ∧ net.addr.value = 0 := by
  have hzero (family : IpFamily) : net = ⟨.zero family, 0, Nat.zero_le _⟩ ↔
      net.addr.family = family ∧ net.prefixLen = 0 ∧ net.addr.value = 0 := by
    obtain ⟨⟨_, _, _⟩, _, _⟩ := net
    simp [IpAddr.zero, and_comm, and_left_comm]
  have hv6 : displayNet text.toAddressText ⟨.zero .v6, 0, Nat.zero_le _⟩ = "::/0" := by
    rw [displayNet, text.display_zero_v6]
    rfl
  have hany : displayNet text.toAddressText net ≠ "any" := by
    intro htext
    have hslash : '/' ∈ (displayNet text.toAddressText net).toList := by
      simp [displayNet]
    rw [htext] at hslash
    revert hslash
    decide
  have hinj := displayNet_injective text.toNetText
  rw [← text.displayNet_v4, ← hv6, hinj.eq_iff, hinj.eq_iff, hzero, hzero, or_iff_left hany]
  cases net.addr.family <;> simp

theorem requiresApproval_iff (text : ZeroText) (rule : StoredRule) (src : Option IpNet) :
    (checkRule (rule.from text.toAddressText src).toModel).requiresApproval = true ↔
      rule.action = .allow ∧ (∀ net ∈ src, net.prefixLen = 0 ∧ net.addr.value = 0) ∧
        rule.dstPorts = none := by
  have hports : ((rule.dstPorts.map PortRange.start).isNone &&
      (rule.dstPorts.map PortRange.stop).isNone) = true ↔ rule.dstPorts = none := by
    cases rule.dstPorts <;> simp
  unfold checkRule
  dsimp only [StoredRule.from, StoredRule.toModel]
  simp only [hports]
  cases src with
  | none =>
    by_cases h : rule.action = .allow ∧ rule.dstPorts = none
    · simp [h]
    · simp [h]
  | some net =>
    have hspelling := broad_spelling_iff text net
    simp only [Option.map_some, Bool.or_eq_true, beq_iff_eq, or_assoc, hspelling,
      Option.mem_def, Option.some.injEq, forall_eq']
    split
    next h => simpa using h
    next h => simpa using h

/-- **When the broad-allow flag means what it says.** For every row whose source is absent or the
text of an `inet` value, the flag says that the rule allows every source of its family to every port
if and only if a rule that does so has no ports and no bit of its source is set. -/
theorem broad_flag_exact_iff (text : ZeroText) (rule : StoredRule) (src : Option IpNet) :
    ((checkRule (rule.from text.toAddressText src).toModel).requiresApproval = true ↔
        rule.AllowsEverything src) ↔
      (rule.AllowsEverything src →
        rule.dstPorts = none ∧ ∀ net ∈ src, net.addr.value = 0) := by
  rw [requiresApproval_iff]
  constructor
  · intro hflag hbroad
    obtain ⟨-, hsrc, hports⟩ := hflag.mpr hbroad
    exact ⟨hports, fun net hnet => (hsrc net hnet).2⟩
  · intro hspelled
    constructor
    · rintro ⟨haction, hsrc, hports⟩
      refine ⟨haction, matchesEverySource_iff.mpr fun net hnet => (hsrc net hnet).1, ?_⟩
      rw [matchesEveryPort_iff, hports]
      exact nofun
    · intro hbroad
      obtain ⟨hports, hzero⟩ := hspelled hbroad
      have hlength := matchesEverySource_iff.mp hbroad.2.1
      exact ⟨hbroad.1, fun net hnet => ⟨hlength net hnet, hzero net hnet⟩, hports⟩

/-- A row that allows inbound traffic to the given ports. -/
def openRow (ports : Option PortRange) : StoredRule :=
  { insideRule with protocol := .any, srcCidr := none, dstPorts := ports }

theorem tenZero_lt : 167772160 < 2 ^ IpFamily.v4.width := by decide

/-- The network 10.0.0.0/0. -/
def tenZero : IpNet :=
  ⟨⟨.v4, 167772160, tenZero_lt⟩, 0, Nat.zero_le _⟩

/-- All ports as a range. -/
def allPorts : PortRange :=
  ⟨1, 65535, by decide, by decide, by decide⟩

/-- A rule from 10.0.0.0/0, and a rule to the ports 1 to 65535, allow everything and are not
flagged. -/
theorem respelled_rules_not_flagged :
    (((openRow none).from shortText.toAddressText (some tenZero)).srcCidr = some "10.0.0.0/0" ∧
        (openRow none).AllowsEverything (some tenZero) ∧
        (checkRule ((openRow none).from shortText.toAddressText
          (some tenZero)).toModel).requiresApproval = false) ∧
      (openRow (some allPorts)).AllowsEverything none ∧
        (checkRule ((openRow (some allPorts)).from shortText.toAddressText
          none).toModel).requiresApproval = false := by
  have hsource : MatchesEverySource (some tenZero) := by
    rw [matchesEverySource_iff]
    decide
  have hports : MatchesEveryPort (some allPorts) := by
    rw [matchesEveryPort_iff]
    decide
  refine ⟨⟨by decide +kernel, ⟨rfl, hsource, nofun⟩, by decide +kernel⟩, ⟨rfl, nofun, hports⟩, ?_⟩
  decide +kernel

end FirewallManager
