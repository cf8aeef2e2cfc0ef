import FirewallManager.Agent.PullLoop

/-!
# The manager URL from enrolment to apply

At enrolment the agent rewrites the manager URL so that its host is an IP address
(`normalizeManagerUrlToIp`). At every apply it reads the address and the port back from the URL
(`managerEndpoint`). The two treat IPv6 differently: the writer puts the address in brackets, as a
URL has to have it, and the reader parses the host with the brackets still around it, which no
address text has. `manager_url_round_trip_iff` says that the round trip succeeds exactly for IPv4.

The URL parser is a parameter. `UrlParser` carries what is used about it: how it splits a URL whose
host is an address.
-/

namespace FirewallManager

/-- The parts of a URL that enrolment reads. -/
structure ManagerUrl extends ParsedUrl where
  scheme : String
  deriving DecidableEq, Repr

/-- The URL of a host and a port. -/
def hostUrl (scheme host : String) (port : UInt16) : String :=
  scheme ++ "://" ++ host ++ ":" ++ toString port.toNat

/-- An address in the host position of a URL: IPv6 is put in brackets. -/
def hostRepr (text : AddressText) (ip : IpAddr) : String :=
  match ip.family with
  | .v6 => "[" ++ text.displayAddr ip ++ "]"
  | .v4 => text.displayAddr ip

/-- The schemes of a manager URL. -/
def isManagerScheme (scheme : String) : Bool :=
  scheme == "https" || scheme == "http"

/-- The URL parser. It gives an IPv4 host as its text and an IPv6 host in brackets, in a spelling
of its own, and reports a port that is written out also when it is the default one. -/
structure UrlParser (text : AddressText) where
  parse : String → Except String ManagerUrl
  parse_v4 : ∀ scheme ip port, isManagerScheme scheme = true → ip.family = .v4 →
    parse (hostUrl scheme (hostRepr text ip) port) =
      .ok ⟨⟨some (text.displayAddr ip), some port⟩, scheme⟩
  parse_v6 : ∀ scheme ip port, isManagerScheme scheme = true → ip.family = .v6 →
    ∃ inner, parse (hostUrl scheme (hostRepr text ip) port) =
      .ok ⟨⟨some ("[" ++ inner ++ "]"), some port⟩, scheme⟩

section Enrolment

variable (text : AddressText) (parser : UrlParser text)
  (resolve : String → Except String (List IpAddr))

/-- The host of a URL if it is an address, or the first usable one that it resolves to. -/
def managerAddress (host : String) (port : UInt16) : Except String IpAddr :=
  match text.parseAddr host with
  | some ip => .ok ip
  | none =>
    match resolve (host ++ ":" ++ toString port.toNat) with
    | .error e => .error ("failed to resolve manager hostname " ++ host ++ ": " ++ e)
    | .ok addrs =>
      match addrs.find? fun ip => !ip.isUnspecified with
      | some ip => .ok ip
      | none => .error ("manager hostname " ++ host ++ " resolved to no usable IP")

/-- `normalize_manager_url_to_ip`. -/
def normalizeManagerUrlToIp (raw : String) : Except String String :=
  match parser.parse raw with
  | .error e => .error ("invalid manager URL: " ++ e)
  | .ok parsed =>
    if !isManagerScheme parsed.scheme then
      .error ("unsupported manager URL scheme: " ++ parsed.scheme)
    else
      match parsed.hostStr with
      | none => .error "manager URL has no host"
      | some host =>
        match parsed.portOrKnownDefault with
        | none => .error "manager URL has no port"
        | some port =>
          match managerAddress text resolve host port with
          | .error e => .error e
          | .ok ip =>
            if ip.isUnspecified then
              .error ("manager address must be a specific IP, got " ++
                text.displayAddr ip ++ " — set the manager server.host to a real " ++
                "address, not a bind address")
            else .ok (hostUrl parsed.scheme (hostRepr text ip) port)

/-- What is known when a URL was normalised. -/
structure Normalized (raw url : String) where
  parsed : ManagerUrl
  host : String
  port : UInt16
  ip : IpAddr
  parses : parser.parse raw = .ok parsed
  scheme : isManagerScheme parsed.scheme = true
  hostStr : parsed.hostStr = some host
  portOrKnownDefault : parsed.portOrKnownDefault = some port
  address : managerAddress text resolve host port = .ok ip
  specific : ip.isUnspecified = false
  written : url = hostUrl parsed.scheme (hostRepr text ip) port

variable {text parser resolve}

theorem normalized_of_ok {raw url : String}
    (h : normalizeManagerUrlToIp text parser resolve raw = .ok url) :
    Nonempty (Normalized text parser resolve raw url) := by
  unfold normalizeManagerUrlToIp at h
  split at h
  next => cases h
  next parsed hparsed =>
    split at h
    next => cases h
    next hscheme =>
      split at h
      next => cases h
      next host hhost =>
        split at h
        next => cases h
        next port hport =>
          split at h
          next => cases h
          next ip haddress =>
            split at h
            next => cases h
            next hspecific =>
              exact ⟨{
                parsed := parsed
                host := host
                port := port
                ip := ip
                parses := hparsed
                scheme := by simpa using hscheme
                hostStr := hhost
                portOrKnownDefault := hport
                address := haddress
                specific := by simpa using hspecific
                written := (Except.ok.inj h).symm }⟩

end Enrolment

section RoundTrip

variable {σ : Type} {env : AgentEnv σ} {parser : UrlParser env.text}
  {resolve : String → Except String (List IpAddr)}

/-- The agent reads URLs with the parser that enrolment used. -/
def SameParser (env : AgentEnv σ) (parser : UrlParser env.text) : Prop :=
  ∀ raw, env.parseUrl raw = (parser.parse raw).map (·.toParsedUrl)

theorem parseAddr_bracketed (text : AddressText) (inner : String) :
    text.parseAddr ("[" ++ inner ++ "]") = none := by
  cases hip : text.parseAddr ("[" ++ inner ++ "]") with
  | none => rfl
  | some ip =>
    have hchars := (text.addr_chars _ ip hip).2 '[' (by simp)
    exact absurd hchars (by decide)

theorem managerEndpoint_v4 (hparser : SameParser env parser)
    {scheme : String} {ip : IpAddr} (port : UInt16) (hscheme : isManagerScheme scheme = true)
    (hfamily : ip.family = .v4) (hspecific : ip.isUnspecified = false) :
    managerEndpoint env (hostUrl scheme (hostRepr env.text ip) port) =
      .ok (env.text.displayAddr ip, port) := by
  have hurl := hparser (hostUrl scheme (hostRepr env.text ip) port)
  rw [parser.parse_v4 scheme ip port hscheme hfamily] at hurl
  have hip := env.text.parseAddr_displayAddr ip
  simp [managerEndpoint, hurl, Except.map, hip, hspecific]

theorem managerEndpoint_v6 (hparser : SameParser env parser)
    {scheme : String} {ip : IpAddr} (port : UInt16) (hscheme : isManagerScheme scheme = true)
    (hfamily : ip.family = .v6) :
    ∃ inner, managerEndpoint env (hostUrl scheme (hostRepr env.text ip) port) =
      .error ("manager_agent_url host is not an IP (got " ++ ("[" ++ inner ++ "]") ++
        "); re-enroll with an IP manager address") := by
  obtain ⟨inner, hparsed⟩ := parser.parse_v6 scheme ip port hscheme hfamily
  have hurl := hparser (hostUrl scheme (hostRepr env.text ip) port)
  rw [hparsed] at hurl
  have hip := parseAddr_bracketed env.text inner
  refine ⟨inner, ?_⟩
  simp only [managerEndpoint, hurl, Except.map, hip]

/-- A URL that enrolment wrote is read back at apply, with the address and the port that were
written into it, exactly when the address is an IPv4 one. -/
theorem manager_url_round_trip_iff (env : AgentEnv σ) {parser : UrlParser env.text}
    (hparser : SameParser env parser) {raw url : String}
    (h : normalizeManagerUrlToIp env.text parser resolve raw = .ok url) :
    ∃ n : Normalized env.text parser resolve raw url,
      (managerEndpoint env url = .ok (env.text.displayAddr n.ip, n.port) ↔ n.ip.family = .v4) ∧
        (n.ip.family = .v6 → ∃ e, managerEndpoint env url = .error e) := by
  obtain ⟨n⟩ := normalized_of_ok h
  have hv6 : n.ip.family = .v6 → ∃ e, managerEndpoint env url = .error e := by
    intro hfamily
    rw [n.written]
    obtain ⟨inner, herror⟩ := managerEndpoint_v6 hparser n.port n.scheme hfamily
    exact ⟨_, herror⟩
  refine ⟨n, ⟨?_, ?_⟩, hv6⟩
  · intro hok
    cases hfamily : n.ip.family with
    | v4 => rfl
    | v6 =>
      obtain ⟨e, herror⟩ := hv6 hfamily
      rw [herror] at hok
      cases hok
  · intro hfamily
    exact (congrArg (managerEndpoint env) n.written).trans
      (managerEndpoint_v4 hparser n.port n.scheme hfamily n.specific)

end RoundTrip

/-- Split `host:port` at its last colon. -/
def splitPort (authority : List Char) : Option (List Char × List Char) :=
  match authority.reverse.dropWhile Char.isDigit with
  | ':' :: host => some (host.reverse, (authority.reverse.takeWhile Char.isDigit).reverse)
  | _ => none

theorem splitPort_append (host : List Char) (port : Nat) :
    splitPort (host ++ ':' :: (toString port).toList) = some (host, (toString port).toList) := by
  have hdigits : ∀ c ∈ (toString port).toList.reverse, c.isDigit = true := fun c hc =>
    Text.isDigit_of_mem_toString (List.mem_reverse.mp hc)
  have hreverse : (host ++ ':' :: (toString port).toList).reverse =
      (toString port).toList.reverse ++ ':' :: host.reverse := by
    simp
  rw [splitPort, hreverse, List.dropWhile_append_of_pos hdigits,
    List.takeWhile_append_of_pos hdigits]
  simp

/-- Read `host:port`. -/
def plainAuthority (scheme authority : String) : Except String ManagerUrl :=
  match splitPort authority.toList with
  | none => .error "invalid port number"
  | some (host, port) =>
    .ok ⟨⟨some (String.ofList host), (Text.parseDecimal (String.ofList port)).map UInt16.ofNat⟩,
      scheme⟩

/-- A URL parser for `scheme://host:port`. -/
def plainParse (raw : String) : Except String ManagerUrl :=
  match Text.afterStart "https://" raw with
  | some authority => plainAuthority "https" authority
  | none =>
    match Text.afterStart "http://" raw with
    | some authority => plainAuthority "http" authority
    | none => .error "relative URL without a base"

theorem plainAuthority_eq (scheme host : String) (port : UInt16) :
    plainAuthority scheme (host ++ ":" ++ toString port.toNat) =
      .ok ⟨⟨some host, some port⟩, scheme⟩ := by
  have hsplit : splitPort (host ++ ":" ++ toString port.toNat).toList =
      some (host.toList, (toString port.toNat).toList) := by
    rw [← splitPort_append, String.toList_append, String.toList_append, List.append_assoc]
    rfl
  simp only [plainAuthority, hsplit, String.ofList_toList, Text.parseDecimal_toString,
    Option.map_some, UInt16.ofNat_toNat]

theorem afterStart_https_http (rest : String) :
    Text.afterStart "https://" ("http://" ++ rest) = none := by
  have hstart : "https://".toList.isPrefixOf ("http://" ++ rest).toList = false := by
    rw [String.toList_append]
    rfl
  rw [Text.afterStart, hstart]
  rfl

theorem plainParse_hostUrl {scheme : String} (host : String) (port : UInt16)
    (hscheme : isManagerScheme scheme = true) :
    plainParse (hostUrl scheme host port) = .ok ⟨⟨some host, some port⟩, scheme⟩ := by
  rw [isManagerScheme, Bool.or_eq_true, beq_iff_eq, beq_iff_eq] at hscheme
  rcases hscheme with rfl | rfl
  · have hurl : hostUrl "https" host port =
        "https://" ++ (host ++ ":" ++ toString port.toNat) := by
      rw [← String.append_assoc, ← String.append_assoc]
      rfl
    rw [hurl, plainParse, Text.afterStart_append]
    exact plainAuthority_eq "https" host port
  · have hurl : hostUrl "http" host port =
        "http://" ++ (host ++ ":" ++ toString port.toNat) := by
      rw [← String.append_assoc, ← String.append_assoc]
      rfl
    rw [hurl, plainParse, afterStart_https_http, Text.afterStart_append]
    exact plainAuthority_eq "http" host port

/-- The parser with the concrete address syntax. -/
def plainUrlParser : UrlParser dottedText where
  parse := plainParse
  parse_v4 := by
    intro scheme ip port hscheme hfamily
    rw [plainParse_hostUrl _ _ hscheme, hostRepr, hfamily]
  parse_v6 := by
    intro scheme ip port hscheme hfamily
    refine ⟨dottedText.displayAddr ip, ?_⟩
    rw [plainParse_hostUrl _ _ hscheme, hostRepr, hfamily]

/-- A host on which every process succeeds and prints nothing. -/
def silentMachine : Machine Unit where
  exec := fun _ _ os => (⟨true, "", ""⟩, os)
  removeFile := fun _ os => (true, os)
  applyLock := fun os => (.ok (), os)

/-- An agent with that parser. -/
def plainUrlEnv : AgentEnv Unit where
  text := dottedText
  parseUrl := fun raw => (plainParse raw).map (·.toParsedUrl)
  sha256 := id
  machine := silentMachine
  backend := ufwBackend id silentMachine
  hostId := ⟨1⟩

/-- The socket addresses of a literal: the loopback address of IPv6 in brackets, with its port. -/
def resolveLoopback (authority : String) : Except String (List IpAddr) :=
  if authority = "[0000:0000:0000:0000:0000:0000:0000:0001]:8443" then
    .ok [⟨.v6, 1, by decide⟩]
  else .error "Name or service not known"

/-- Enrolment accepts an IPv6 manager, and every apply refuses the URL it wrote. -/
theorem ipv6_manager_refused :
    normalizeManagerUrlToIp dottedText plainUrlParser resolveLoopback
        "https://[0000:0000:0000:0000:0000:0000:0000:0001]:8443" =
      .ok "https://[0000:0000:0000:0000:0000:0000:0000:0001]:8443" ∧
    managerEndpoint plainUrlEnv "https://[0000:0000:0000:0000:0000:0000:0000:0001]:8443" =
      .error ("manager_agent_url host is not an IP (got " ++
        "[0000:0000:0000:0000:0000:0000:0000:0001]); re-enroll with an IP manager address") := by
  decide +kernel

/-- The round trip of an IPv4 manager. -/
theorem manager_url_round_trip_at_v4 :
    ∃ n : Normalized dottedText plainUrlParser resolveLoopback "https://10.0.0.1:8443"
        "https://10.0.0.1:8443",
      (managerEndpoint plainUrlEnv "https://10.0.0.1:8443" =
          .ok (dottedText.displayAddr n.ip, n.port) ↔ n.ip.family = .v4) ∧
        (n.ip.family = .v6 → ∃ e, managerEndpoint plainUrlEnv "https://10.0.0.1:8443" = .error e) :=
  manager_url_round_trip_iff plainUrlEnv (fun _ => rfl) (by decide +kernel)

end FirewallManager
