import FirewallManager.Core.RulesHash
import FirewallManager.Net.NetText

/-!
# What the drift hash can tell apart

The hasher reads the fields of the rules without separators, and an absent field feeds nothing. The
fields can be read back if the layout is known, which is the number of bytes of every field.
`hash_input_unambiguous_iff` says that this is all that is missing, and
`source_taken_for_destination` is a pair of rules with the same bytes.
-/

namespace FirewallManager

open List

/-- The fields have the labels of the enumerations, networks as `address/length`, and a port. -/
structure RuleHashParts.Canonical (text : AddressText) (parts : RuleHashParts) : Prop where
  action : ∃ action : FirewallAction, parts.action = action.asStr
  direction : ∃ direction : FirewallDirection, parts.direction = direction.asStr
  protocol : ∃ protocol : FirewallProtocol, parts.protocol = protocol.asStr
  srcCidr : ∀ cidr ∈ parts.srcCidr, ∃ net, text.parseNet cidr = some net
  dstCidr : ∀ cidr ∈ parts.dstCidr, ∃ net, text.parseNet cidr = some net
  port : ∀ port ∈ parts.dstPortStart, 1 ≤ port ∧ port ≤ 65535

namespace RuleHashParts

/-- What every field feeds to the hasher. -/
def pieces (parts : RuleHashParts) : List (Option (List UInt8)) :=
  [some parts.id.asBytes, some (Text.utf8 parts.action), some (Text.utf8 parts.direction),
    some (Text.utf8 parts.protocol), parts.srcCidr.map Text.utf8, parts.dstCidr.map Text.utf8,
    parts.dstPortStart.map Text.leBytes32]

/-- The number of bytes of every field that is there. -/
def layout (parts : RuleHashParts) : List (Option Nat) :=
  parts.pieces.map (·.map List.length)

theorem bytes_eq (parts : RuleHashParts) :
    parts.bytes = (parts.pieces.map (·.getD [])).flatten := by
  simp [bytes, pieces]

theorem length_bytes (parts : RuleHashParts) :
    parts.bytes.length = (parts.layout.map (·.getD 0)).sum := by
  rw [bytes_eq, length_flatten, layout, map_map, map_map]
  congr 1
  refine map_congr_left fun piece _ => ?_
  cases piece <;> rfl

variable {text : AddressText} {parts parts' : RuleHashParts}

theorem eq_of_bytes_eq (hparts : parts.Canonical text) (hparts' : parts'.Canonical text)
    (hlayout : parts.layout = parts'.layout) (h : parts.bytes = parts'.bytes) : parts = parts' := by
  have hpieces : parts.pieces = parts'.pieces := by
    rw [bytes_eq, bytes_eq] at h
    exact Text.pieces_eq_of_flatten_eq hlayout h
  simp only [pieces, List.cons.injEq, Option.some.injEq, and_true] at hpieces
  obtain ⟨hid, haction, hdirection, hprotocol, hsrc, hdst, hport⟩ := hpieces
  have hports : parts.dstPortStart = parts'.dstPortStart := by
    cases hp : parts.dstPortStart with
    | none => simpa [hp, eq_comm] using hport
    | some port =>
      obtain ⟨port', hp', hsame⟩ := Option.map_eq_some_iff.mp (hport.symm.trans (by rw [hp]; rfl))
      have hlow := hparts.port port hp
      have hlow' := hparts'.port port' hp'
      rw [hp', Text.leBytes32_inj ⟨by omega, by omega⟩ ⟨by omega, by omega⟩ hsame]
  have htext := Option.map_injective Text.utf8_injective
  cases parts
  cases parts'
  simp only [mk.injEq]
  exact ⟨Uuid.asBytes_injective hid, Text.utf8_injective haction, Text.utf8_injective hdirection,
    Text.utf8_injective hprotocol, htext hsrc, htext hdst, hports⟩

end RuleHashParts

variable {text : AddressText} {rules rules' : List RuleHashParts}

theorem eq_of_hashInput_eq (hrules : ∀ parts ∈ rules, parts.Canonical text)
    (hrules' : ∀ parts ∈ rules', parts.Canonical text)
    (hlayout : rules.map RuleHashParts.layout = rules'.map RuleHashParts.layout)
    (h : hashInput rules = hashInput rules') : rules = rules' := by
  induction rules generalizing rules' with
  | nil => exact (map_eq_nil_iff.mp hlayout.symm).symm
  | cons parts rules ih =>
    cases rules' with
    | nil => cases hlayout
    | cons parts' rules' =>
      obtain ⟨hfirst, hrest⟩ := List.cons.inj hlayout
      rw [forall_mem_cons] at hrules hrules'
      have hlength : parts.bytes.length = parts'.bytes.length := by
        rw [parts.length_bytes, parts'.length_bytes, hfirst]
      obtain ⟨hbytes, hinput⟩ := append_inj h hlength
      rw [RuleHashParts.eq_of_bytes_eq hrules.1 hrules'.1 hfirst hbytes,
        ih hrules.2 hrules'.2 hrest hinput]

/-- Two rulesets with the same bytes are the same exactly if they have the same layout. -/
theorem hash_input_unambiguous_iff (hrules : ∀ parts ∈ rules, parts.Canonical text)
    (hrules' : ∀ parts ∈ rules', parts.Canonical text)
    (hinput : hashInput rules = hashInput rules') :
    rules = rules' ↔ rules.map RuleHashParts.layout = rules'.map RuleHashParts.layout := by
  constructor
  · intro hsame
    rw [hsame]
  · intro hlayout
    exact eq_of_hashInput_eq hrules hrules' hlayout hinput

/-- An SSH rule. -/
def sshParts (id : Uuid) (srcCidr dstCidr : Option String) : RuleHashParts :=
  ⟨id, "allow", "in", "tcp", srcCidr, dstCidr, some 22⟩

theorem sshParts_canonical (id : Uuid) {srcCidr dstCidr : Option String}
    (hsrc : ∀ cidr ∈ srcCidr, cidr = "10.0.0.0/8") (hdst : ∀ cidr ∈ dstCidr, cidr = "10.0.0.0/8") :
    (sshParts id srcCidr dstCidr).Canonical dottedText := by
  have hnet : ∃ net, dottedText.parseNet "10.0.0.0/8" = some net :=
    ⟨⟨⟨.v4, 10 * 2 ^ 24, by decide⟩, 8, by decide⟩, by decide⟩
  refine ⟨⟨.allow, rfl⟩, ⟨.in, rfl⟩, ⟨.tcp, rfl⟩, fun cidr hcidr => hsrc cidr hcidr ▸ hnet,
    fun cidr hcidr => hdst cidr hcidr ▸ hnet, fun port hport => ?_⟩
  obtain rfl : 22 = port := Option.some.inj hport
  decide

/-- A rule from a network feeds the same bytes as the rule to it. -/
theorem source_taken_for_destination :
    (sshParts ⟨1⟩ (some "10.0.0.0/8") none).Canonical dottedText ∧
      (sshParts ⟨1⟩ none (some "10.0.0.0/8")).Canonical dottedText ∧
      hashInput [sshParts ⟨1⟩ (some "10.0.0.0/8") none] =
        hashInput [sshParts ⟨1⟩ none (some "10.0.0.0/8")] ∧
      [sshParts ⟨1⟩ (some "10.0.0.0/8") none] ≠ [sshParts ⟨1⟩ none (some "10.0.0.0/8")] :=
  ⟨sshParts_canonical _ (by simp) (by simp), sshParts_canonical _ (by simp) (by simp), rfl,
    by simp [sshParts]⟩

/-- Two rules, from and to a network, that can be taken for those to and from it. -/
def crossedParts (first second : Option String) : List RuleHashParts :=
  [sshParts ⟨1⟩ first second, sshParts ⟨2⟩ second first]

theorem crossedParts_canonical {first second : Option String}
    (hfirst : ∀ cidr ∈ first, cidr = "10.0.0.0/8")
    (hsecond : ∀ cidr ∈ second, cidr = "10.0.0.0/8") :
    ∀ parts ∈ crossedParts first second, parts.Canonical dottedText :=
  forall_mem_cons.mpr ⟨sshParts_canonical _ hfirst hsecond,
    forall_mem_singleton.mpr (sshParts_canonical _ hsecond hfirst)⟩

/-- They feed the same bytes, so it is their layouts that differ. -/
theorem crossed_layouts_differ :
    hashInput (crossedParts (some "10.0.0.0/8") none) =
        hashInput (crossedParts none (some "10.0.0.0/8")) ∧
      (crossedParts (some "10.0.0.0/8") none).map RuleHashParts.layout ≠
        (crossedParts none (some "10.0.0.0/8")).map RuleHashParts.layout := by
  have hinput : hashInput (crossedParts (some "10.0.0.0/8") none) =
      hashInput (crossedParts none (some "10.0.0.0/8")) := rfl
  refine ⟨hinput, fun hlayout => ?_⟩
  have hsame := (hash_input_unambiguous_iff (crossedParts_canonical (by simp) (by simp))
    (crossedParts_canonical (by simp) (by simp)) hinput).mpr hlayout
  simp [crossedParts, sshParts] at hsame

end FirewallManager
