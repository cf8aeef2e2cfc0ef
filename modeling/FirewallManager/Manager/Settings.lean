import FirewallManager.Auth.Access
import FirewallManager.Net.NetText

/-!
# Settings

The settings are rows of `system_config`, a key with a JSON text. The list of addresses that may
reach the manager is one of them, and it is also in memory, where the middleware reads it. Two
handlers write the row: `updateIpWhitelist` checks the entries and replaces the list in memory, and
`updateSettings` does neither. A start of the manager fills the list in memory from its
configuration file.

`updateIpWhitelist_ok` says what an accepted list leaves in both places.
-/

namespace FirewallManager

/-- JSON values. A number that is not an integer is kept as its text. -/
inductive Json where
  | null
  | bool (value : Bool)
  | int (value : Int)
  | float (text : String)
  | str (text : String)
  | arr (items : List Json)
  | obj (fields : List (String × Json))

namespace Json

/-- The text of a string. -/
def asStr : Json → Option String
  | .str text => some text
  | _ => none

/-- An integer that fits in 64 bits. -/
def asI64 : Json → Option Int
  | .int value => if -2 ^ 63 ≤ value ∧ value < 2 ^ 63 then some value else none
  | _ => none

/-- The value of a field. -/
def get (name : String) : Json → Option Json
  | .obj fields => (fields.find? fun field => field.1 == name).map Prod.snd
  | _ => none

/-- A list of strings. -/
def ofStrings (entries : List String) : Json :=
  .arr (entries.map .str)

/-- Read a list of strings. -/
def asStrings : Json → Option (List String)
  | .arr items => items.mapM asStr
  | _ => none

theorem asStrings_ofStrings (entries : List String) :
    (ofStrings entries).asStrings = some entries := by
  show (entries.map Json.str).mapM asStr = some entries
  induction entries with
  | nil => rfl
  | cons entry entries ih =>
    rw [List.map_cons, List.mapM_cons, ih]
    rfl

end Json

/-- A row of `system_config`, with the JSON value that its text stands for. -/
structure SettingRow where
  key : String
  value : Json

/-- The settings in the database, the check-in intervals of the hosts, and the address rules in
memory. -/
structure Settings where
  config : Table SettingRow.key
  overrides : Table HostConfigOverride.hostId
  auth : AuthConfig

/-- The address lists of the configuration file. -/
structure SecurityConfig where
  ipWhitelist : List String
  trustedProxies : List String
  deriving DecidableEq, Repr

/-- The body of a settings update. An absent section stays as it is. -/
structure UpdateSettingsRequest where
  oidc : Option Json
  smtp : Option Json
  polling : Option Json
  ipWhitelist : Option (List String)
  webTlsStrategy : Option String
  notification : Option Json

/-- The value of a setting. -/
def getConfigJson (config : Table SettingRow.key) (key : String) : Option Json :=
  (config.find? key).map SettingRow.value

/-- Store a setting. -/
def setConfig (config : Table SettingRow.key) (key : String) (value : Json) :
    Table SettingRow.key :=
  config.upsert ⟨key, value⟩ (fun row => { row with value := value }) fun _ => rfl

/-- Store a setting if it is there. -/
def setConfig? (config : Table SettingRow.key) (key : String) :
    Option Json → Table SettingRow.key
  | none => config
  | some value => setConfig config key value

/-- The stored list of addresses. What is not a list of strings counts as empty. -/
def savedWhitelist (config : Table SettingRow.key) : List String :=
  ((getConfigJson config "ip_whitelist").bind Json.asStrings).getD []

/-- The settings that stand in for those that were never saved. -/
def defaultOidc : Json :=
  .obj [("enabled", .bool false), ("issuer", .str ""), ("client_id", .str ""),
    ("client_secret", .str ""), ("redirect_uri", .str "")]

/-- The default of the mail section. -/
def defaultSmtp : Json :=
  .obj [("enabled", .bool false), ("host", .str ""), ("port", .int 587), ("username", .str ""),
    ("password", .str ""), ("from", .str ""), ("tls_mode", .str "starttls")]

/-- The default of the polling section. -/
def defaultPolling : Json :=
  .obj [("check_in_interval_secs", .int 900)]

/-- The default of the notification section. -/
def defaultNotification : Json :=
  .obj [("email_enabled", .bool false), ("webhook_enabled", .bool false), ("webhook_url", .str "")]

/-- `GET /settings`. -/
def getSettings (config : Table SettingRow.key) : Json :=
  .obj [("oidc", (getConfigJson config "settings_oidc").getD defaultOidc),
    ("smtp", (getConfigJson config "settings_smtp").getD defaultSmtp),
    ("polling", (getConfigJson config "settings_polling").getD defaultPolling),
    ("ip_whitelist", .ofStrings (savedWhitelist config)),
    ("web_tls_strategy", .str
      (((getConfigJson config "settings_web_tls_strategy").bind Json.asStr).getD "internal_ca")),
    ("notification", (getConfigJson config "settings_notification").getD defaultNotification)]

/-- The check-in interval in the polling section, between a second and a day. -/
def pollingInterval (polling : Json) : Option Int :=
  ((polling.get "check_in_interval_secs").bind Json.asI64).map fun secs => max 1 (min secs 86400)

/-- Give every host the interval. A host that has it already keeps its version. -/
def pushInterval (overrides : Table HostConfigOverride.hostId) (interval : Int) :
    Table HostConfigOverride.hostId :=
  overrides.update (fun row => decide (row.checkInIntervalSecs ≠ interval))
    (fun row => { row with
      checkInIntervalSecs := interval, configVersion := row.configVersion + 1 })
    fun _ => rfl

/-- The rows that a settings update stores. -/
def UpdateSettingsRequest.store (body : UpdateSettingsRequest) (config : Table SettingRow.key) :
    Table SettingRow.key :=
  let config := setConfig? config "ip_whitelist" (body.ipWhitelist.map Json.ofStrings)
  let config := setConfig? config "settings_oidc" body.oidc
  let config := setConfig? config "settings_smtp" body.smtp
  let config := setConfig? config "settings_polling" body.polling
  let config := setConfig? config "settings_web_tls_strategy" (body.webTlsStrategy.map Json.str)
  setConfig? config "settings_notification" body.notification

/-- `PUT /settings`. The list of addresses is stored as it comes, and the one in memory stays. -/
def updateSettings (auth : AuthUser) (body : UpdateSettingsRequest) (settings : Settings) :
    Except AppError Json × Settings :=
  if !auth.role.isAdmin then (.error (.forbidden "Admin role required"), settings)
  else
    let config := body.store settings.config
    (.ok (getSettings config), { settings with
      config := config
      overrides :=
        match body.polling.bind pollingInterval with
        | some interval => pushInterval settings.overrides interval
        | none => settings.overrides })

section Whitelist

variable (text : AddressText)

/-- The network of a single address. -/
def hostNet (ip : IpAddr) : IpNet where
  addr := ip
  prefixLen := ip.family.width
  prefixLen_le := Nat.le_refl _

/-- `validate_cidr_or_ip`: the normal form of an entry, or the entry itself as the error. -/
def validateCidrOrIp (entry : String) : Except String String :=
  let trimmed := Text.trim entry
  if trimmed = "" then .error entry
  else
    match text.parseNet trimmed with
    | some net => .ok (displayNet text net)
    | none =>
      match text.parseAddr trimmed with
      | some ip => .ok (displayNet text (hostNet ip))
      | none => .error entry

/-- The address rules at a start. An entry that is not a network is dropped. -/
def AuthConfig.new (file : SecurityConfig) : AuthConfig where
  ipWhitelist := file.ipWhitelist.filterMap text.parseNet
  trustedProxies := file.trustedProxies.filterMap text.parseNet

/-- Replace the list in memory. -/
def AuthConfig.updateIpWhitelist (config : AuthConfig) (entries : List String) : AuthConfig :=
  { config with ipWhitelist := entries.filterMap text.parseNet }

/-- `0.0.0.0`. -/
def unspecifiedV4 : IpAddr where
  family := .v4
  value := 0
  value_lt := Nat.two_pow_pos _

/-- One of the entries is a network with the address. -/
def coversRequester (entries : List String) (ip : IpAddr) : Bool :=
  entries.any fun entry => (text.parseNet entry).any fun net => decide (net.Contains ip)

/-- `PUT /settings/ip-whitelist`. A list that is not empty has to cover the peer of the request. -/
def updateIpWhitelist (auth : RequestUser) (entries : List String) (settings : Settings) :
    Except AppError Unit × Settings :=
  if !auth.role.isAdmin then (.error (.forbidden "Admin role required"), settings)
  else
    match entries.mapM (validateCidrOrIp text) with
    | .error bad =>
      (.error (.badRequest ("Invalid IP/CIDR entry: '" ++ bad ++
        "'. Use formats like 10.0.0.0/8, 192.168.1.0/24, or 10.0.0.1")), settings)
    | .ok validated =>
      let requesterIp := auth.ip.getD unspecifiedV4
      if !validated.isEmpty && !coversRequester text validated requesterIp then
        (.error (.badRequest ("Lockout prevention: your IP (" ++ text.displayAddr requesterIp ++
          ") is not in the new whitelist. Add your IP or subnet to the list before saving, " ++
          "or clear the list to allow all IPs.")), settings)
      else
        (.ok (), { settings with
          config := setConfig settings.config "ip_whitelist" (.ofStrings validated)
          auth := settings.auth.updateIpWhitelist text validated })

/-- A start of the manager. The stored list is not looked at. -/
def Settings.restart (settings : Settings) (file : SecurityConfig) : Settings :=
  { settings with auth := .new text file }

variable {text}

theorem validateCidrOrIp_ok {entry normal : String}
    (h : validateCidrOrIp text entry = .ok normal) : ∃ net, normal = displayNet text net := by
  unfold validateCidrOrIp at h
  dsimp only at h
  split at h
  next => cases h
  next =>
    split at h
    next net _ => exact ⟨net, (Except.ok.inj h).symm⟩
    next =>
      split at h
      next ip _ => exact ⟨hostNet ip, (Except.ok.inj h).symm⟩
      next => cases h

variable {entries : List String}

theorem mapM_validate_cons {entry : String} {validated : List String}
    (h : (entry :: entries).mapM (validateCidrOrIp text) = .ok validated) :
    ∃ first rest, validateCidrOrIp text entry = .ok first ∧
      entries.mapM (validateCidrOrIp text) = .ok rest ∧ validated = first :: rest := by
  rw [List.mapM_cons] at h
  cases hentry : validateCidrOrIp text entry with
  | error bad =>
    rw [hentry] at h
    cases h
  | ok first =>
    cases hentries : entries.mapM (validateCidrOrIp text) with
    | error bad =>
      rw [hentry, hentries] at h
      cases h
    | ok rest =>
      rw [hentry, hentries] at h
      exact ⟨first, rest, rfl, rfl, (Except.ok.inj h).symm⟩

theorem mem_validated {validated : List String}
    (h : entries.mapM (validateCidrOrIp text) = .ok validated) {normal : String}
    (hnormal : normal ∈ validated) : ∃ net, normal = displayNet text net := by
  induction entries generalizing validated with
  | nil =>
    obtain rfl : [] = validated := Except.ok.inj h
    cases hnormal
  | cons entry entries ih =>
    obtain ⟨first, rest, hentry, hentries, rfl⟩ := mapM_validate_cons h
    rcases List.mem_cons.mp hnormal with rfl | hrest
    · exact validateCidrOrIp_ok hentry
    · exact ih hentries hrest

theorem validated_ne_nil {validated : List String}
    (h : entries.mapM (validateCidrOrIp text) = .ok validated) (hne : entries ≠ []) :
    validated ≠ [] := by
  cases entries with
  | nil => exact absurd rfl hne
  | cons entry entries =>
    obtain ⟨first, rest, -, -, rfl⟩ := mapM_validate_cons h
    exact List.cons_ne_nil first rest

/-- What an accepted list leaves in the database and in memory, and that it covers the requester. -/
theorem updateIpWhitelist_ok {auth : RequestUser} {settings after : Settings}
    (h : updateIpWhitelist text auth entries settings = (.ok (), after)) :
    ∃ validated, entries.mapM (validateCidrOrIp text) = .ok validated ∧
      after.config = setConfig settings.config "ip_whitelist" (.ofStrings validated) ∧
      after.auth = settings.auth.updateIpWhitelist text validated ∧
      (validated = [] ∨ coversRequester text validated (auth.ip.getD unspecifiedV4) = true) := by
  unfold updateIpWhitelist at h
  split at h
  next => cases h
  next =>
    split at h
    next => cases h
    next validated hvalidated =>
      dsimp only at h
      split at h
      next => cases h
      next hcovers =>
        cases h
        refine ⟨validated, hvalidated, rfl, rfl, ?_⟩
        rw [Bool.and_eq_true, not_and, Bool.not_eq_true', Bool.not_eq_true',
          Bool.not_eq_false] at hcovers
        cases validated with
        | nil => exact Or.inl rfl
        | cons entry rest => exact Or.inr (hcovers rfl)

theorem updateIpWhitelist_error {auth : RequestUser} {settings : Settings} {error : AppError}
    (h : (updateIpWhitelist text auth entries settings).1 = .error error) :
    (updateIpWhitelist text auth entries settings).2 = settings := by
  unfold updateIpWhitelist at h ⊢
  split
  next => rfl
  next hadmin =>
    rw [if_neg hadmin] at h
    split
    next => rfl
    next validated hvalidated =>
      rw [hvalidated] at h
      dsimp only at h ⊢
      split
      next => rfl
      next hcovers =>
        rw [if_neg hcovers] at h
        cases h

end Whitelist

/-- Storing a setting changes the list of addresses only under its key. -/
theorem savedWhitelist_setConfig (config : Table SettingRow.key) (key : String) (value : Json) :
    savedWhitelist (setConfig config key value) =
      if key = "ip_whitelist" then (value.asStrings).getD [] else savedWhitelist config := by
  unfold savedWhitelist getConfigJson setConfig
  rw [Table.find?_upsert]
  by_cases hkey : key = "ip_whitelist"
  · rw [if_pos hkey, if_pos hkey]
    cases config.find? "ip_whitelist" <;> rfl
  · rw [if_neg hkey, if_neg hkey]

theorem savedWhitelist_setConfig? {key : String} (hkey : key ≠ "ip_whitelist")
    (config : Table SettingRow.key) (value : Option Json) :
    savedWhitelist (setConfig? config key value) = savedWhitelist config := by
  cases value with
  | none => rfl
  | some value =>
    show savedWhitelist (setConfig config key value) = _
    rw [savedWhitelist_setConfig, if_neg hkey]

theorem savedWhitelist_store (body : UpdateSettingsRequest) (config : Table SettingRow.key) :
    savedWhitelist (body.store config) = body.ipWhitelist.getD (savedWhitelist config) := by
  unfold UpdateSettingsRequest.store
  rw [savedWhitelist_setConfig? (by decide), savedWhitelist_setConfig? (by decide),
    savedWhitelist_setConfig? (by decide), savedWhitelist_setConfig? (by decide),
    savedWhitelist_setConfig? (by decide)]
  cases body.ipWhitelist with
  | none => rfl
  | some entries =>
    show savedWhitelist (setConfig config "ip_whitelist" (.ofStrings entries)) = entries
    rw [savedWhitelist_setConfig, if_pos rfl, Json.asStrings_ofStrings]
    rfl

end FirewallManager
