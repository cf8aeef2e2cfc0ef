import FirewallManager.Auth.Logout
import FirewallManager.Net.NetText

/-!
# The address behind a proxy

A trusted proxy appends the address of its client to the forwarding header that the client has sent.
The middleware takes the first address of the header, which is the one that the client wrote.
`resolve_proxied_iff` says when it arrives at the address of the client all the same: the client
sent no header, or one that starts with its own address. `forwarded_client_iff` is the law about two
requests that differ in the header only.
-/

namespace FirewallManager

open List

/-- The value of a header: any bytes. -/
structure HeaderValue where
  bytes : List UInt8
  deriving DecidableEq, Repr

/-- A byte that may stand in the text of a header: a tab, or a visible character of ASCII. -/
def isVisible (byte : UInt8) : Bool :=
  byte == 9 || (decide (32 ≤ byte) && decide (byte < 127))

/-- `to_str`: the text of a value without any other byte. -/
def HeaderValue.toStr (value : HeaderValue) : Option String :=
  if value.bytes.all isVisible then
    some (String.ofList (value.bytes.map fun byte => Char.ofNat byte.toNat))
  else none

/-- The bytes of a text in ASCII. -/
def asciiBytes (text : String) : List UInt8 :=
  text.toList.map fun c => UInt8.ofNat c.toNat

/-- The character is a visible one of ASCII. -/
def isVisibleChar (c : Char) : Bool :=
  decide (32 ≤ c.toNat) && decide (c.toNat < 127)

section Text

theorem isVisible_ofNat {c : Char} (h : isVisibleChar c = true) :
    isVisible (UInt8.ofNat c.toNat) = true ∧ Char.ofNat (UInt8.ofNat c.toNat).toNat = c := by
  obtain ⟨hlow, hhigh⟩ : 32 ≤ c.toNat ∧ c.toNat < 127 := by
    simpa [isVisibleChar] using h
  have hnat : (UInt8.ofNat c.toNat).toNat = c.toNat := by
    rw [UInt8.toNat_ofNat']
    omega
  refine ⟨?_, ?_⟩
  · have hbounds : (32 : UInt8) ≤ UInt8.ofNat c.toNat ∧ UInt8.ofNat c.toNat < 127 := by
      rw [UInt8.le_iff_toNat_le, UInt8.lt_iff_toNat_lt, hnat]
      exact ⟨hlow, hhigh⟩
    simp [isVisible, hbounds.1, hbounds.2]
  · rw [hnat, Char.ofNat_toNat]

theorem toStr_asciiBytes {text : String} (h : ∀ c ∈ text.toList, isVisibleChar c = true) :
    HeaderValue.toStr ⟨asciiBytes text⟩ = some text := by
  have hvisible : (asciiBytes text).all isVisible = true := by
    rw [asciiBytes, all_map, all_eq_true]
    intro c hc
    exact (isVisible_ofNat (h c hc)).1
  have hchars : (asciiBytes text).map (fun byte => Char.ofNat byte.toNat) = text.toList := by
    rw [asciiBytes, map_map]
    exact (map_congr_left fun c hc => (isVisible_ofNat (h c hc)).2).trans
      (map_id text.toList)
  rw [HeaderValue.toStr, if_pos hvisible, hchars, String.ofList_toList]

theorem toStr_append (value : HeaderValue) {text : String}
    (h : ∀ c ∈ text.toList, isVisibleChar c = true) :
    HeaderValue.toStr ⟨value.bytes ++ asciiBytes text⟩ = value.toStr.map (· ++ text) := by
  have htext := toStr_asciiBytes h
  unfold HeaderValue.toStr at htext ⊢
  dsimp only at htext ⊢
  split at htext
  next hvisible =>
    rw [all_append, hvisible, Bool.and_true, map_append, String.ofList_append,
      Option.some.inj htext]
    split <;> rfl
  next => cases htext

theorem bounds_of_isAddrChar {c : Char} (h : isAddrChar c = true) :
    46 ≤ c.toNat ∧ c.toNat ≤ 102 := by
  simp only [isAddrChar, Char.isDigit, Bool.or_eq_true, Bool.and_eq_true, decide_eq_true_eq,
    beq_iff_eq, Char.le_def, UInt32.le_iff_toNat_le, ge_iff_le] at h
  rcases h with (((⟨hlow, hhigh⟩ | ⟨hlow, hhigh⟩) | ⟨hlow, hhigh⟩) | rfl) | rfl
  · exact ⟨Nat.le_trans (by decide) hlow, Nat.le_trans hhigh (by decide)⟩
  · exact ⟨Nat.le_trans (by decide) hlow, Nat.le_trans hhigh (by decide)⟩
  · exact ⟨Nat.le_trans (by decide) hlow, Nat.le_trans hhigh (by decide)⟩
  · decide
  · decide

theorem isVisibleChar_of_isAddrChar {c : Char} (h : isAddrChar c = true) :
    isVisibleChar c = true := by
  obtain ⟨hlow, hhigh⟩ := bounds_of_isAddrChar h
  unfold isVisibleChar
  rw [Bool.and_eq_true, decide_eq_true_eq, decide_eq_true_eq]
  omega

theorem isWhitespace_of_isAddrChar {c : Char} (h : isAddrChar c = true) :
    Text.isWhitespace c = false := by
  obtain ⟨hlow, hhigh⟩ := bounds_of_isAddrChar h
  by_contra hblank
  simp only [Text.isWhitespace, Bool.not_eq_false, Bool.or_eq_true, Bool.and_eq_true,
    decide_eq_true_eq, beq_iff_eq] at hblank
  omega

end Text

/-- The first address of a forwarding header. -/
def firstForwarded (text : AddressText) (header : String) : Option IpAddr :=
  (Text.cut ',' header.toList).head?.bind fun first =>
    text.parseAddr (Text.trim (String.ofList first))

/-- The forwarding header that a proxy passes on: that of its client, and the client's address. -/
def appendClient (text : AddressText) (client : IpAddr) : Option HeaderValue → HeaderValue
  | none => ⟨asciiBytes (text.displayAddr client)⟩
  | some value => ⟨value.bytes ++ asciiBytes (", " ++ text.displayAddr client)⟩

/-- The request of a client as it comes from the proxy. -/
def proxied (text : AddressText) (peer client : IpAddr) (authorization : Option String)
    (sent : Option HeaderValue) : HttpRequest where
  peer := some peer
  authorization := authorization
  forwardedFor := (appendClient text client sent).toStr

/-- The header of the client, if it sent one, starts with the address. -/
def StartsWith (text : AddressText) (client : IpAddr) (sent : Option HeaderValue) : Prop :=
  ∀ value, sent = some value → ∃ header, value.toStr = some header ∧
    firstForwarded text header = some client

section Resolve

variable {env : AuthEnv} {trusted : List IpNet} {peer client : IpAddr}

theorem resolveClientIp_trusted {request : HttpRequest} (hrequest : request.peer = some peer)
    (hpeer : ∃ net ∈ trusted, net.Contains peer) :
    resolveClientIp env request trusted =
      some ((request.forwardedFor.bind (firstForwarded env.text)).getD peer) := by
  obtain ⟨net, hnet, hcontains⟩ := hpeer
  have htrusted : (!trusted.isEmpty &&
      trusted.any fun net => decide (net.Contains peer)) = true := by
    rw [Bool.and_eq_true, Bool.not_eq_true', isEmpty_eq_false_iff_exists_mem, any_eq_true]
    exact ⟨⟨net, hnet⟩, net, hnet, decide_eq_true hcontains⟩
  rw [resolveClientIp, hrequest, Option.map_some, if_pos htrusted]
  rfl

theorem firstForwarded_displayAddr (text : AddressText) (ip : IpAddr) :
    firstForwarded text (text.displayAddr ip) = some ip := by
  have hcomma : ',' ∉ (text.displayAddr ip).toList := by
    intro hmem
    exact absurd (displayAddr_chars text ip ',' hmem) (by decide)
  have hblank : ∀ c ∈ (text.displayAddr ip).toList, Text.isWhitespace c = false := by
    intro c hc
    exact isWhitespace_of_isAddrChar (displayAddr_chars text ip c hc)
  rw [firstForwarded, Text.cut_field_end hcomma, head?_cons, Option.bind_some,
    String.ofList_toList, Text.trim_eq_self hblank, text.parseAddr_displayAddr]

theorem firstForwarded_append (text : AddressText) (header rest : String) :
    firstForwarded text (header ++ (", " ++ rest)) = firstForwarded text header := by
  have hlist : (header ++ (", " ++ rest)).toList = header.toList ++ ',' :: ' ' :: rest.toList := by
    rw [String.toList_append, String.toList_append]
    rfl
  rw [firstForwarded, hlist, Text.cut_append,
    head?_append_of_ne_nil _ (Text.cut_ne_nil _), firstForwarded]

theorem toStr_appendClient (text : AddressText) (client : IpAddr) (sent : Option HeaderValue) :
    (appendClient text client sent).toStr =
      match sent with
      | none => some (text.displayAddr client)
      | some value => value.toStr.map (· ++ (", " ++ text.displayAddr client)) := by
  have hclient : ∀ c ∈ (text.displayAddr client).toList, isVisibleChar c = true := by
    intro c hc
    exact isVisibleChar_of_isAddrChar (displayAddr_chars text client c hc)
  cases sent with
  | none => exact toStr_asciiBytes hclient
  | some value =>
    refine toStr_append value ?_
    intro c hc
    rw [String.toList_append] at hc
    rcases mem_append.mp hc with hcomma | hc
    · have hpair : c = ',' ∨ c = ' ' := by simpa using hcomma
      rcases hpair with rfl | rfl <;> rfl
    · exact hclient c hc

theorem resolve_proxied_iff (hpeer : ∃ net ∈ trusted, net.Contains peer)
    (hclient : ∀ net ∈ trusted, ¬ net.Contains client) (authorization : Option String)
    (sent : Option HeaderValue) :
    resolveClientIp env (proxied env.text peer client authorization sent) trusted = some client ↔
      StartsWith env.text client sent := by
  have hne : peer ≠ client := by
    rintro rfl
    obtain ⟨net, hnet, hcontains⟩ := hpeer
    exact hclient net hnet hcontains
  rw [resolveClientIp_trusted rfl hpeer, Option.some.injEq]
  show (((appendClient env.text client sent).toStr).bind (firstForwarded env.text)).getD peer =
    client ↔ _
  rw [toStr_appendClient]
  cases sent with
  | none =>
    rw [Option.bind_some, firstForwarded_displayAddr, Option.getD_some]
    refine iff_of_true rfl ?_
    intro value hvalue
    cases hvalue
  | some value =>
    dsimp only
    rw [Option.bind_map]
    simp only [Function.comp_def, firstForwarded_append]
    constructor
    · intro hfirst other hother
      obtain rfl := Option.some.inj hother
      cases hheader : value.toStr with
      | none =>
        rw [hheader] at hfirst
        exact absurd hfirst hne
      | some header =>
        rw [hheader, Option.bind_some] at hfirst
        refine ⟨header, rfl, ?_⟩
        cases hparsed : firstForwarded env.text header with
        | none =>
          rw [hparsed] at hfirst
          exact absurd hfirst hne
        | some ip =>
          rw [hparsed, Option.getD_some] at hfirst
          rw [hfirst]
    · intro hstarts
      obtain ⟨header, hheader, hfirst⟩ := hstarts value rfl
      rw [hheader, Option.bind_some, hfirst, Option.getD_some]

theorem checkClientIp_congr {config : AuthConfig} {request other : HttpRequest}
    (h : resolveClientIp env request config.trustedProxies =
      resolveClientIp env other config.trustedProxies) :
    checkClientIp env config request = checkClientIp env config other := by
  rw [checkClientIp, h, checkClientIp]

end Resolve

/-- **When the forwarding header cannot be spoofed.** Let a trusted proxy append the address of an
untrusted client to whatever forwarding headers the client sends in two requests. Both are resolved
to the address of the client, and the address check decides them alike under every list, if and only
if neither header starts with anything else than that address. -/
theorem forwarded_client_iff (env : AuthEnv) (trusted : List IpNet) (peer client : IpAddr)
    (authorization : Option String) (hpeer : ∃ net ∈ trusted, net.Contains peer)
    (hclient : ∀ net ∈ trusted, ¬ net.Contains client) (sent other : Option HeaderValue) :
    (resolveClientIp env (proxied env.text peer client authorization sent) trusted =
          some client ∧
        resolveClientIp env (proxied env.text peer client authorization other) trusted =
          some client ∧
        ∀ whitelist,
          checkClientIp env ⟨whitelist, trusted⟩
              (proxied env.text peer client authorization sent) =
            checkClientIp env ⟨whitelist, trusted⟩
              (proxied env.text peer client authorization other)) ↔
      StartsWith env.text client sent ∧ StartsWith env.text client other := by
  rw [← resolve_proxied_iff hpeer hclient authorization sent,
    ← resolve_proxied_iff hpeer hclient authorization other]
  constructor
  · rintro ⟨hsent, hother, -⟩
    exact ⟨hsent, hother⟩
  · rintro ⟨hsent, hother⟩
    refine ⟨hsent, hother, ?_⟩
    intro whitelist
    exact checkClientIp_congr (hsent.trans hother.symm)

/-- The trusted proxies 10.0.0.0/8. -/
def proxyNet : IpNet :=
  ⟨⟨.v4, 167772160, by decide⟩, 8, by decide⟩

/-- The proxy 10.0.0.5. -/
def proxyPeer : IpAddr :=
  ⟨.v4, 167772165, by decide⟩

/-- The client 203.0.113.9. -/
def outsideClient : IpAddr :=
  ⟨.v4, 3405803785, by decide⟩

/-- The network 198.51.100.0/24 of the administrators. -/
def officeNet : IpNet :=
  ⟨⟨.v4, 3325256704, by decide⟩, 24, by decide⟩

/-- A client that puts its own address first is resolved to it, as one without a header is. -/
theorem own_address_first :
    resolveClientIp plainAuth (proxied dottedText proxyPeer outsideClient none none) [proxyNet] =
        some outsideClient ∧
      resolveClientIp plainAuth (proxied dottedText proxyPeer outsideClient none
        (some ⟨asciiBytes "203.0.113.9, 192.0.2.1"⟩)) [proxyNet] = some outsideClient := by
  have hpeer : ∃ net ∈ [proxyNet], net.Contains proxyPeer := by decide +kernel
  have hclient : ∀ net ∈ [proxyNet], ¬ net.Contains outsideClient := by decide +kernel
  have hnone : StartsWith dottedText outsideClient none := by
    intro value hvalue
    cases hvalue
  have hown : StartsWith dottedText outsideClient
      (some ⟨asciiBytes "203.0.113.9, 192.0.2.1"⟩) := by
    intro value hvalue
    obtain rfl := Option.some.inj hvalue
    exact ⟨"203.0.113.9, 192.0.2.1", by decide +kernel, by decide +kernel⟩
  obtain ⟨hsent, hother, -⟩ := (forwarded_client_iff plainAuth [proxyNet] proxyPeer outsideClient
    none hpeer hclient none _).mpr ⟨hnone, hown⟩
  exact ⟨hsent, hother⟩

/-- A client that puts an address of the administrators first passes the address check, which
refuses it without the header. -/
theorem spoofed_address_admitted :
    proxyNet.Contains proxyPeer ∧ ¬ proxyNet.Contains outsideClient ∧
      checkClientIp plainAuth ⟨[officeNet], [proxyNet]⟩
        (proxied dottedText proxyPeer outsideClient none
          (some ⟨asciiBytes "198.51.100.5"⟩)) = .ok () ∧
      checkClientIp plainAuth ⟨[officeNet], [proxyNet]⟩
        (proxied dottedText proxyPeer outsideClient none none) =
          .error (.forbiddenIp "Access denied") := by
  refine ⟨?_, ?_, ?_, ?_⟩ <;> decide +kernel

end FirewallManager
