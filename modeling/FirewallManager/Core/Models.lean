import FirewallManager.Lib.Text

/-!
# Domain model shared by the manager and the agent

The enumerations of `fw-core` with their text forms, and the typed firewall rule. The text
forms are both the labels of the PostgreSQL enum types and the lower-case JSON names. The
backends print a protocol through its debug name instead, which is the same text
(`FirewallProtocol.toLowercase_debugName`).
-/

namespace FirewallManager

open List

/-- A UUID, read as a 128-bit big-endian number. -/
structure Uuid where
  value : BitVec 128
  deriving DecidableEq, Repr

/-- The sixteen bytes of a UUID, most significant first. -/
def Uuid.asBytes (id : Uuid) : List UInt8 :=
  (List.range 16).map fun i => UInt8.ofNat (id.value.toNat / 2 ^ (8 * (15 - i)))

theorem Uuid.asBytes_length (id : Uuid) : id.asBytes.length = 16 := by
  simp [Uuid.asBytes]

/-- The hyphenated text of a UUID. -/
def Uuid.text (id : Uuid) : String :=
  let digits := (Text.hexEncode id.asBytes).toList
  let part (start len : Nat) := String.ofList ((digits.drop start).take len)
  String.intercalate "-" [part 0 8, part 8 4, part 12 4, part 16 4, part 20 12]

/-- Numbers with the same low base-256 digits agree up to there. -/
theorem mod_eq_of_digits_eq {m n : Nat} (k : Nat)
    (h : ∀ i < k, m / 2 ^ (8 * i) % 256 = n / 2 ^ (8 * i) % 256) :
    m % 2 ^ (8 * k) = n % 2 ^ (8 * k) := by
  induction k with
  | zero => simp [Nat.mod_one]
  | succ k ih =>
    have hlow := ih fun i hi => h i (by omega)
    have hdigit := h k (by omega)
    have hpow : 2 ^ (8 * (k + 1)) = 2 ^ (8 * k) * 256 := by
      rw [Nat.mul_succ, Nat.pow_add]
    rw [hpow, Nat.mod_mul, Nat.mod_mul, hlow, hdigit]

theorem Uuid.asBytes_injective : Function.Injective Uuid.asBytes := by
  intro a b h
  have hdigits : ∀ i < 16,
      a.value.toNat / 2 ^ (8 * i) % 256 = b.value.toNat / 2 ^ (8 * i) % 256 := by
    intro i hi
    have hbyte := map_inj_left.mp h (15 - i) (mem_range.mpr (by omega))
    have hindex : 15 - (15 - i) = i := by omega
    rw [hindex] at hbyte
    exact congrArg UInt8.toNat hbyte
  have hmod := mod_eq_of_digits_eq 16 hdigits
  rw [Nat.mod_eq_of_lt a.value.isLt, Nat.mod_eq_of_lt b.value.isLt] at hmod
  cases a
  cases b
  rw [Uuid.mk.injEq]
  exact BitVec.eq_of_toNat_eq hmod

theorem Uuid.toList_text (id : Uuid) {digits : List Char}
    (h : (Text.hexEncode id.asBytes).toList = digits) :
    id.text.toList = (digits.drop 0).take 8 ++ '-' :: ((digits.drop 8).take 4 ++ '-' ::
      ((digits.drop 12).take 4 ++ '-' :: ((digits.drop 16).take 4 ++ '-' ::
        (digits.drop 20).take 12))) := by
  simp [Uuid.text, h]

theorem Uuid.filter_text (id : Uuid) :
    id.text.toList.filter (· ≠ '-') = (Text.hexEncode id.asBytes).toList := by
  have hplain : ∀ c ∈ (Text.hexEncode id.asBytes).toList, decide (c ≠ '-') = true := by
    intro c hc
    have hdigit := Text.isHexDigit_of_mem_hexEncode hc
    exact decide_eq_true fun heq => absurd (heq ▸ hdigit) (by decide)
  have hlength : (Text.hexEncode id.asBytes).toList.length = 32 := by
    rw [Text.length_hexEncode, Uuid.asBytes_length]
  generalize hdigits : (Text.hexEncode id.asBytes).toList = digits at hplain hlength
  have hpart (start len : Nat) :
      ((digits.drop start).take len).filter (· ≠ '-') = (digits.drop start).take len :=
    filter_eq_self.mpr fun c hc =>
      hplain c (mem_of_mem_drop (mem_of_mem_take hc))
  have hjoin (start len : Nat) :
      (digits.drop start).take len ++ digits.drop (start + len) = digits.drop start := by
    rw [← drop_drop, take_append_drop]
  have hlast : (digits.drop 20).take 12 = digits.drop 20 :=
    take_of_length_le (by rw [length_drop]; omega)
  rw [id.toList_text hdigits]
  simp only [filter_append, filter_cons, hpart, ne_eq, not_true_eq_false, decide_false,
    Bool.false_eq_true, if_false]
  rw [hlast, hjoin 16 4, hjoin 12 4, hjoin 8 4, hjoin 0 8, drop_zero]

theorem Uuid.text_injective : Function.Injective Uuid.text := by
  intro a b h
  have hdigits := (Uuid.filter_text a).symm.trans
    ((congrArg (fun text : String => text.toList.filter (· ≠ '-')) h).trans (Uuid.filter_text b))
  exact Uuid.asBytes_injective (Text.hexEncode_injective (String.toList_inj.mp hdigits))

theorem Uuid.isWhitespace_of_mem_text {id : Uuid} {c : Char} (hc : c ∈ id.text.toList) :
    Text.isWhitespace c = false := by
  by_cases hhyphen : c = '-'
  · rw [hhyphen]
    rfl
  · have hdigit : c ∈ id.text.toList.filter (· ≠ '-') :=
      mem_filter.mpr ⟨hc, decide_eq_true hhyphen⟩
    rw [id.filter_text] at hdigit
    obtain ⟨n, hn, rfl⟩ := Text.exists_digit_of_mem_hexEncode hdigit
    exact Text.isWhitespace_digitChar n hn

theorem Uuid.trim_text (id : Uuid) : Text.trim id.text = id.text :=
  Text.trim_eq_self fun _ hc => Uuid.isWhitespace_of_mem_text hc

/-- What a firewall rule does with the packets it matches. -/
inductive FirewallAction where
  | allow
  | deny
  | reject
  | limit
  | masquerade
  deriving DecidableEq, Repr

/-- The label of an action. -/
def FirewallAction.asStr : FirewallAction → String
  | .allow => "allow"
  | .deny => "deny"
  | .reject => "reject"
  | .limit => "limit"
  | .masquerade => "masquerade"

/-- A policy set's default input or output policy. An absent default leaves the direction
untouched, so only the three explicit values exist. -/
inductive FirewallDefaultPolicy where
  | allow
  | deny
  | reject
  deriving DecidableEq, Repr

/-- The label of a default policy. -/
def FirewallDefaultPolicy.asStr : FirewallDefaultPolicy → String
  | .allow => "allow"
  | .deny => "deny"
  | .reject => "reject"

/-- The traffic direction a rule is written for. -/
inductive FirewallDirection where
  | in
  | out
  | forward
  deriving DecidableEq, Repr

/-- The label of a direction. -/
def FirewallDirection.asStr : FirewallDirection → String
  | .in => "in"
  | .out => "out"
  | .forward => "forward"

/-- The protocol a rule is written for. -/
inductive FirewallProtocol where
  | any
  | tcp
  | udp
  | icmp
  | icmpv6
  | gre
  | esp
  | ah
  | sctp
  deriving DecidableEq, Repr

/-- The label of a protocol. -/
def FirewallProtocol.asStr : FirewallProtocol → String
  | .any => "any"
  | .tcp => "tcp"
  | .udp => "udp"
  | .icmp => "icmp"
  | .icmpv6 => "icmpv6"
  | .gre => "gre"
  | .esp => "esp"
  | .ah => "ah"
  | .sctp => "sctp"

/-- The variant name that `{:?}` prints. The backends lower-case it instead of using the
label. -/
def FirewallProtocol.debugName : FirewallProtocol → String
  | .any => "Any"
  | .tcp => "Tcp"
  | .udp => "Udp"
  | .icmp => "Icmp"
  | .icmpv6 => "Icmpv6"
  | .gre => "Gre"
  | .esp => "Esp"
  | .ah => "Ah"
  | .sctp => "Sctp"

/-- The role of a user of the management API. -/
inductive UserRole where
  | admin
  | operator
  | reporter
  | breakGlassOperator
  deriving DecidableEq, Repr

/-- The reported health of a host. -/
inductive HostHealthStatus where
  | pending
  | healthy
  | degraded
  | unreachable
  deriving DecidableEq, Repr

/-- The kinds of action the manager queues for an agent. -/
inductive PendingActionType where
  | applyRules
  | rollback
  | safeModeOn
  | safeModeOff
  | reloadConfig
  | agentUpgrade
  deriving DecidableEq, Repr

/-- The label of a pending action type, which the agent dispatches on. -/
def PendingActionType.label : PendingActionType → String
  | .applyRules => "apply_rules"
  | .rollback => "rollback"
  | .safeModeOn => "safe_mode_on"
  | .safeModeOff => "safe_mode_off"
  | .reloadConfig => "reload_config"
  | .agentUpgrade => "agent_upgrade"

/-- The life cycle of a pending action. -/
inductive PendingActionStatus where
  | queued
  | pushing
  | delivered
  | executed
  | failed
  | expired
  deriving DecidableEq, Repr

/-- A typed firewall rule. Ports are `i32` values. -/
structure FirewallRule where
  id : Uuid
  name : String
  description : String
  action : FirewallAction
  direction : FirewallDirection
  protocol : FirewallProtocol
  srcCidr : Option String
  srcPortStart : Option Int
  srcPortEnd : Option Int
  dstCidr : Option String
  dstPortStart : Option Int
  dstPortEnd : Option Int
  interfaceIn : Option String
  interfaceOut : Option String
  comment : String
  log : Bool
  priority : Int
  deriving DecidableEq, Repr

/-- A rule that opens the SSH port. -/
def sshRule : FirewallRule where
  id := ⟨22⟩
  name := "ssh"
  description := ""
  action := .allow
  direction := .in
  protocol := .tcp
  srcCidr := none
  srcPortStart := none
  srcPortEnd := none
  dstCidr := none
  dstPortStart := some 22
  dstPortEnd := some 22
  interfaceIn := none
  interfaceOut := none
  comment := "ssh"
  log := false
  priority := 100

theorem FirewallProtocol.toLowercase_debugName (protocol : FirewallProtocol) :
    Text.toLowercase protocol.debugName = protocol.asStr := by
  cases protocol <;> decide

end FirewallManager
