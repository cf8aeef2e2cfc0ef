import FirewallManager.Auth.ForwardedFor
import FirewallManager.Manager.Settings

/-!
# The list of allowed addresses

The guard of `updateIpWhitelist` asks whether a new list covers the peer of the request. The
middleware asks whether it covers the resolved address. `accepted_whitelist_admits_iff` says when a
list that the guard has accepted admits the next request of the same client.

The list in memory is the one that counts. `whitelist_enforced_iff` says which runs of the two
handlers and of starts keep it in line with the stored one.
-/

namespace FirewallManager

open List

/-- The request comes from a trusted proxy and its forwarding header starts with the address. -/
def ForwardedVia (text : AddressText) (trusted : List IpNet) (request : HttpRequest) (ip : IpAddr) :
    Prop :=
  ∃ peer header, request.peer = some peer ∧ (∃ net ∈ trusted, net.Contains peer) ∧
    request.forwardedFor = some header ∧ firstForwarded text header = some ip

/-- One of the networks has the address. -/
def Covers (nets : List IpNet) (ip : IpAddr) : Prop :=
  ∃ net ∈ nets, net.Contains ip

section Guard

variable {env : AuthEnv} {request : HttpRequest}

theorem resolveClientIp_forwarded {trusted : List IpNet} {ip : IpAddr}
    (h : ForwardedVia env.text trusted request ip) :
    resolveClientIp env request trusted = some ip := by
  obtain ⟨peer, header, hpeer, htrusted, hheader, hfirst⟩ := h
  rw [resolveClientIp_trusted hpeer htrusted, hheader, Option.bind_some, hfirst, Option.getD_some]

theorem resolveClientIp_direct {trusted : List IpNet}
    (h : ∀ ip, ¬ ForwardedVia env.text trusted request ip) :
    resolveClientIp env request trusted = request.peer := by
  cases hpeer : request.peer with
  | none => rw [resolveClientIp, hpeer, Option.map_none]
  | some peer =>
    by_cases htrusted : ∃ net ∈ trusted, net.Contains peer
    · have hnone : request.forwardedFor.bind (firstForwarded env.text) = none := by
        refine Option.eq_none_iff_forall_not_mem.mpr ?_
        intro ip hip
        obtain ⟨header, hheader, hfirst⟩ := Option.bind_eq_some_iff.mp hip
        exact h ip ⟨peer, header, hpeer, htrusted, hheader, hfirst⟩
      rw [resolveClientIp_trusted hpeer htrusted, hnone, Option.getD_none]
    · have hany : (trusted.any fun net => decide (net.Contains peer)) = false := by
        rw [any_eq_false]
        intro net hnet
        rw [decide_eq_true_eq]
        exact fun hcontains => htrusted ⟨net, hnet, hcontains⟩
      rw [resolveClientIp, hpeer, Option.map_some, hany, Bool.and_false]
      rfl

theorem isIpAllowed_iff {config : AuthConfig} {ip : IpAddr} :
    config.isIpAllowed ip = true ↔ config.ipWhitelist = [] ∨ Covers config.ipWhitelist ip := by
  rw [AuthConfig.isIpAllowed, Bool.or_eq_true, List.isEmpty_iff, any_eq_true]
  simp only [decide_eq_true_eq, Covers]

theorem checkClientIp_ok_iff {config : AuthConfig} (hne : config.ipWhitelist ≠ []) :
    checkClientIp env config request = .ok () ↔
      ∃ ip, resolveClientIp env request config.trustedProxies = some ip ∧
        Covers config.ipWhitelist ip := by
  have hempty : ¬ config.ipWhitelist.isEmpty = true := by rwa [List.isEmpty_iff]
  rw [checkClientIp, if_neg hempty]
  cases resolveClientIp env request config.trustedProxies with
  | none => simp
  | some ip =>
    have hallowed : config.isIpAllowed ip = true ↔ Covers config.ipWhitelist ip :=
      isIpAllowed_iff.trans (or_iff_right hne)
    by_cases hcovers : Covers config.ipWhitelist ip
    · simp [hallowed.mpr hcovers, hcovers]
    · simp [mt hallowed.mp hcovers, hcovers]

theorem requireAuth_ip {config : AuthConfig} {now : Nat} {store : AuthStore} {user : RequestUser}
    (h : requireAuth env config now store request = .ok user) : user.ip = request.peer := by
  unfold requireAuth at h
  split at h
  next => cases h
  next =>
    split at h
    next => cases h
    next =>
      split at h
      next => cases h
      next =>
        split at h
        next => cases h
        next =>
          split at h
          next => cases h
          next => rw [← Except.ok.inj h]

/-- The guard looks for a network of the list in memory. -/
theorem covers_of_coversRequester {text : AddressText} {entries : List String} {ip : IpAddr}
    (h : coversRequester text entries ip = true) : Covers (entries.filterMap text.parseNet) ip := by
  obtain ⟨entry, hentry, hnet⟩ := any_eq_true.mp h
  cases hparse : text.parseNet entry with
  | none =>
    rw [hparse] at hnet
    cases hnet
  | some net =>
    rw [hparse] at hnet
    exact ⟨net, mem_filterMap.mpr ⟨entry, hentry, hparse⟩, of_decide_eq_true hnet⟩

end Guard

/-- **When the guard agrees with the middleware.** Let `updateIpWhitelist` accept a list that is not
empty on a request. The next request with the same peer and headers passes the address check if and
only if the peer is known and the list also covers the address that a trusted proxy forwards. -/
theorem accepted_whitelist_admits_iff (env : AuthEnv) (now : Nat) (store : AuthStore)
    (settings after : Settings) (request : HttpRequest) (user : RequestUser)
    (entries : List String) (huser : requireAuth env settings.auth now store request = .ok user)
    (hne : entries ≠ [])
    (hok : updateIpWhitelist env.text user entries settings = (.ok (), after)) :
    checkClientIp env after.auth request = .ok () ↔
      request.peer ≠ none ∧ ∀ ip, ForwardedVia env.text settings.auth.trustedProxies request ip →
        Covers after.auth.ipWhitelist ip := by
  obtain ⟨validated, hvalidated, -, hauth, hguard⟩ := updateIpWhitelist_ok hok
  have hsome : validated ≠ [] := validated_ne_nil hvalidated hne
  have hpeer : Covers after.auth.ipWhitelist (request.peer.getD unspecifiedV4) := by
    rw [hauth, ← requireAuth_ip huser]
    exact covers_of_coversRequester (hguard.resolve_left hsome)
  have hlist : after.auth.ipWhitelist ≠ [] := by
    obtain ⟨net, hnet, -⟩ := hpeer
    exact ne_nil_of_mem hnet
  have htrusted : after.auth.trustedProxies = settings.auth.trustedProxies := by
    rw [hauth]
    rfl
  rw [checkClientIp_ok_iff hlist, htrusted]
  by_cases hforwarded : ∃ ip, ForwardedVia env.text settings.auth.trustedProxies request ip
  · obtain ⟨ip, hip⟩ := hforwarded
    have hresolved := resolveClientIp_forwarded hip
    constructor
    · rintro ⟨client, hclient, hcovers⟩
      obtain ⟨peer, -, hpeerSome, -⟩ := id hip
      refine ⟨by simp [hpeerSome], ?_⟩
      intro other hother
      rw [resolveClientIp_forwarded hother] at hclient
      rwa [Option.some.inj hclient]
    · rintro ⟨-, hall⟩
      exact ⟨ip, hresolved, hall ip hip⟩
  · have hnone := not_exists.mp hforwarded
    rw [resolveClientIp_direct hnone]
    constructor
    · rintro ⟨client, hclient, -⟩
      refine ⟨by simp [hclient], ?_⟩
      intro other hother
      exact absurd hother (hnone other)
    · rintro ⟨hknown, -⟩
      obtain ⟨peer, hpeerSome⟩ := Option.ne_none_iff_exists'.mp hknown
      rw [hpeerSome, Option.getD_some] at hpeer
      exact ⟨peer, hpeerSome, hpeer⟩

/-- The manager before any list is saved, with trusted proxies. -/
def openSettings (trusted : List IpNet) : Settings :=
  ⟨.empty, .empty, ⟨[], trusted⟩⟩

/-- The tables after the login of the admin. -/
def adminStore : AuthStore :=
  sessionStep plainAuth openConfig oneAdmin adminLogin

/-- A request of the admin from 10.0.0.5. -/
def adminFrom (forwardedFor : Option String) : HttpRequest :=
  HttpRequest.bearer ⟨some proxyPeer, none, forwardedFor⟩
    ((adminAnswer.toOption.map LoginResponse.accessToken).getD "")

/-- The admin as the handlers see the request. -/
def adminUser : RequestUser where
  userId := ⟨1⟩
  username := "admin"
  role := .admin
  claims := issuedClaims 100 adminDraw.jti ⟨1⟩ "admin" "admin"
  ip := some proxyPeer

theorem requireAuth_adminFrom (trusted : List IpNet) (forwardedFor : Option String) :
    requireAuth plainAuth (openSettings trusted).auth 101 adminStore (adminFrom forwardedFor) =
      .ok adminUser := by
  have hlive : isJtiRevoked adminStore adminDraw.jti.text = false := by decide +kernel
  have hid : plainAuth.parseUuid (Uuid.text ⟨1⟩) = some ⟨1⟩ := readUuid_text ⟨1⟩
  refine (requireAuth_issued adminToken_issued rfl (by decide) hlive).trans ?_
  rw [hid]
  rfl

/-- The settings after the admin has saved 10.0.0.0/8. -/
def tenSaved (trusted : List IpNet) : Settings :=
  (updateIpWhitelist dottedText adminUser ["10.0.0.0/8"] (openSettings trusted)).2

/-- Without a proxy the admin gets in after saving a list with the own address. -/
theorem direct_admin_admitted :
    checkClientIp plainAuth (tenSaved []).auth (adminFrom none) = .ok () := by
  have huser := requireAuth_adminFrom [] none
  have hanswer : (updateIpWhitelist dottedText adminUser ["10.0.0.0/8"] (openSettings [])).1 =
      .ok () := by
    decide +kernel
  refine (accepted_whitelist_admits_iff plainAuth 101 adminStore (openSettings []) (tenSaved [])
    (adminFrom none) adminUser ["10.0.0.0/8"] huser (by decide) (Prod.ext hanswer rfl)).mpr ?_
  refine ⟨by decide, ?_⟩
  rintro ip ⟨peer, header, -, ⟨net, hnet, -⟩, -⟩
  cases hnet

/-- Behind a trusted proxy the admin saves a list that covers the proxy, and is locked out. -/
theorem proxied_admin_locked_out :
    requireAuth plainAuth (openSettings [proxyNet]).auth 101 adminStore
        (adminFrom (some "203.0.113.9")) = .ok adminUser ∧
      (updateIpWhitelist dottedText adminUser ["10.0.0.0/8"] (openSettings [proxyNet])).1 =
        .ok () ∧
      checkClientIp plainAuth (tenSaved [proxyNet]).auth (adminFrom (some "203.0.113.9")) =
        .error (.forbiddenIp "Access denied") := by
  refine ⟨requireAuth_adminFrom _ _, ?_, ?_⟩ <;> decide +kernel

section Enforced

variable (text : AddressText)

/-- The network that a stored entry stands for: a network, or a single address. -/
def entryNet (entry : String) : Option IpNet :=
  match text.parseNet (Text.trim entry) with
  | some net => some net
  | none => (text.parseAddr (Text.trim entry)).map hostNet

/-- The stored entries admit the address. No entries admit all. -/
def Admits (entries : List String) (ip : IpAddr) : Prop :=
  entries = [] ∨ Covers (entries.filterMap (entryNet text)) ip

/-- The list in memory admits what the entries admit. -/
def AuthConfig.Follows (config : AuthConfig) (entries : List String) : Prop :=
  ∀ ip, config.isIpAllowed ip = true ↔ Admits text entries ip

/-- The list in memory admits what the stored list admits. -/
def Settings.Enforced (settings : Settings) : Prop :=
  settings.auth.Follows text (savedWhitelist settings.config)

/-- What can happen to the list. -/
inductive SettingsCall where
  | updateIpWhitelist (user : RequestUser) (entries : List String)
  | updateSettings (user : AuthUser) (body : UpdateSettingsRequest)
  | restart (file : SecurityConfig)

/-- The settings after a call. -/
def settingsStep (settings : Settings) : SettingsCall → Settings
  | .updateIpWhitelist user entries => (updateIpWhitelist text user entries settings).2
  | .updateSettings user body => (updateSettings user body settings).2
  | .restart file => settings.restart text file

/-- A settings update stores only what the list in memory admits already, and a start finds a file
that admits what is stored. -/
def SettingsCall.InLine (settings : Settings) : SettingsCall → Prop
  | .updateIpWhitelist _ _ => True
  | .updateSettings user body => user.role.isAdmin = true →
      ∀ entries, body.ipWhitelist = some entries → settings.auth.Follows text entries
  | .restart file => (AuthConfig.new text file).Follows text (savedWhitelist settings.config)

variable {text}

theorem entryNet_displayNet (net : IpNet) :
    entryNet text (displayNet text net) = text.parseNet (displayNet text net) := by
  have hslash : '/' ∈ (displayNet text net).toList := by
    simp [displayNet]
  have hblank : ∀ c ∈ (displayNet text net).toList, Text.isWhitespace c = false := by
    intro c hc
    rw [displayNet, String.toList_append, String.toList_append, mem_append,
      mem_append] at hc
    rcases hc with (haddr | hsep) | hdigit
    · exact isWhitespace_of_isAddrChar (displayAddr_chars text net.addr c haddr)
    · obtain rfl : c = '/' := by simpa using hsep
      rfl
    · have haddr : isAddrChar c = true := by
        simp [isAddrChar, Text.isDigit_of_mem_toString hdigit]
      exact isWhitespace_of_isAddrChar haddr
  have haddr : text.parseAddr (displayNet text net) = none := by
    refine Option.eq_none_iff_forall_not_mem.mpr ?_
    intro ip hip
    exact absurd ((text.addr_chars _ ip hip).2 '/' hslash) (by decide)
  rw [entryNet, Text.trim_eq_self hblank, haddr]
  cases text.parseNet (displayNet text net) <;> rfl

theorem follows_updateIpWhitelist {config : AuthConfig} {entries validated : List String}
    {ip : IpAddr} (hvalidated : entries.mapM (validateCidrOrIp text) = .ok validated)
    (hguard : validated = [] ∨ coversRequester text validated ip = true) :
    (config.updateIpWhitelist text validated).Follows text validated := by
  have hsame : validated.filterMap (entryNet text) = validated.filterMap text.parseNet := by
    refine filterMap_congr ?_
    intro entry hentry
    obtain ⟨net, rfl⟩ := mem_validated hvalidated hentry
    exact entryNet_displayNet net
  intro other
  rw [isIpAllowed_iff, Admits, hsame]
  show validated.filterMap text.parseNet = [] ∨ _ ↔ _
  rcases hguard with rfl | hcovers
  · exact iff_of_true (Or.inl rfl) (Or.inl rfl)
  · obtain ⟨net, hnet, -⟩ := covers_of_coversRequester hcovers
    have hentries : validated ≠ [] := by
      rintro rfl
      cases hnet
    rw [or_iff_right (ne_nil_of_mem hnet), or_iff_right hentries]
    rfl

theorem enforced_updateSettings {settings : Settings} (h : settings.Enforced text)
    (user : AuthUser) (body : UpdateSettingsRequest) :
    (updateSettings user body settings).2.Enforced text ↔
      (SettingsCall.updateSettings user body).InLine text settings := by
  cases hadmin : user.role.isAdmin with
  | false =>
    have hsame : (updateSettings user body settings).2 = settings := by
      rw [updateSettings, hadmin]
      rfl
    rw [hsame]
    refine iff_of_true h ?_
    intro htrue
    rw [hadmin] at htrue
    cases htrue
  | true =>
    have hafter : (updateSettings user body settings).2.Enforced text ↔
        settings.auth.Follows text
          (body.ipWhitelist.getD (savedWhitelist settings.config)) := by
      rw [updateSettings, hadmin, ← savedWhitelist_store]
      rfl
    rw [hafter]
    show _ ↔ (user.role.isAdmin = true → _)
    cases hlist : body.ipWhitelist with
    | none =>
      refine iff_of_true h ?_
      intro _ entries hentries
      cases hentries
    | some entries =>
      constructor
      · intro hfollows _ other hother
        obtain rfl := Option.some.inj hother
        exact hfollows
      · intro hinline
        exact hinline hadmin entries rfl

theorem enforced_settingsStep (settings : Settings) (call : SettingsCall)
    (h : settings.Enforced text) :
    (settingsStep text settings call).Enforced text ↔ call.InLine text settings := by
  cases call with
  | updateIpWhitelist user entries =>
    refine iff_of_true ?_ trivial
    show (updateIpWhitelist text user entries settings).2.Enforced text
    cases hresult : (updateIpWhitelist text user entries settings).1 with
    | error error => rwa [updateIpWhitelist_error hresult]
    | ok _ =>
      obtain ⟨validated, hvalidated, hconfig, hauth, hguard⟩ :=
        updateIpWhitelist_ok (Prod.ext hresult rfl)
      rw [Settings.Enforced, hconfig, hauth, savedWhitelist_setConfig, if_pos rfl,
        Json.asStrings_ofStrings]
      exact follows_updateIpWhitelist hvalidated hguard
  | updateSettings user body => exact enforced_updateSettings h user body
  | restart file => exact Iff.rfl

end Enforced

/-- **When the enforced list is the saved one.** From a start of the manager on any stored settings,
the list in memory admits what the stored list admits in every state of a run if and only if every
start finds a configuration file that admits what is stored, and no settings update of an admin
stores a list that admits anything else than the one in memory. -/
theorem whitelist_enforced_iff (text : AddressText) (before : Settings) (file : SecurityConfig)
    (calls : List SettingsCall) :
    Runs.Throughout (settingsStep text) (Settings.Enforced text) (before.restart text file) calls ↔
      Runs.Meets (settingsStep text) (fun settings call => call.InLine text settings) before
        (.restart file :: calls) := by
  show _ ↔ (before.restart text file).Enforced text ∧
    Runs.Meets (settingsStep text) _ (before.restart text file) calls
  constructor
  · intro h
    have hstart : (before.restart text file).Enforced text := h 0
    refine ⟨hstart, ?_⟩
    have hstep : ∀ settings call, settings.Enforced text → True →
        ((settingsStep text settings call).Enforced text ↔ call.InLine text settings) :=
      fun settings call hinv _ => enforced_settingsStep settings call hinv
    exact (Runs.throughout_iff_meets hstep hstart fun _ _ => trivial).mp h
  · rintro ⟨hstart, hmeets⟩
    exact Runs.run_invariant
      (fun settings call hinv hinline => (enforced_settingsStep settings call hinv).mpr hinline)
      hstart hmeets

/-- A settings update of the admin with the list 10.0.0.0/8. -/
def saveTen : SettingsCall :=
  .updateSettings adminUser.toAuthUser ⟨none, none, none, some ["10.0.0.0/8"], none, none⟩

/-- The update stores the list, and the list in memory goes on admitting every address. -/
theorem saved_list_not_enforced :
    ((openSettings []).restart dottedText ⟨[], []⟩).Enforced dottedText ∧
      ¬ (settingsStep dottedText ((openSettings []).restart dottedText ⟨[], []⟩)
        saveTen).Enforced dottedText := by
  refine ⟨fun _ => iff_of_true rfl (Or.inl rfl), ?_⟩
  intro henforced
  have hsaved : savedWhitelist (settingsStep dottedText
      ((openSettings []).restart dottedText ⟨[], []⟩) saveTen).config = ["10.0.0.0/8"] :=
    savedWhitelist_store _ _
  have hnets : ["10.0.0.0/8"].filterMap (entryNet dottedText) = [proxyNet] := by
    decide +kernel
  have hadmits := (henforced outsideClient).mp rfl
  rw [hsaved, Admits, hnets] at hadmits
  rcases hadmits with hnil | ⟨net, hnet, hcontains⟩
  · cases hnil
  · obtain rfl := mem_singleton.mp hnet
    exact absurd hcontains (by decide +kernel)

end FirewallManager
