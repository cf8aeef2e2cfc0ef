import FirewallManager.Auth.Allowlist

/-!
# What the entries of the allowlist admit

An entry of the list of allowed addresses is a network or a single address. `AuthConfig` keeps only
the networks, and without any it admits every address. `allowlist_fails_closed_iff` says for which
lists that opens the manager to addresses that no entry stands for.

The settings handler turns every entry into a network before it stores the list.
`normalisation_exact` says that nothing is lost on the way: an accepted list admits the union of
what its entries stand for.
-/

namespace FirewallManager

open List

section Entries

variable (text : NetText)

/-- The entries stand for the address. -/
def EntriesCover (entries : List String) (ip : IpAddr) : Prop :=
  ∃ entry ∈ entries, ∃ net, entryNet text.toAddressText entry = some net ∧ net.Contains ip

/-- What the configuration admits, the entries stand for. -/
def AuthConfig.FailsClosed (config : AuthConfig) (entries : List String) : Prop :=
  ∀ ip, config.isIpAllowed ip = true → EntriesCover text entries ip

variable {text}

theorem covers_filterMap_iff {entries : List String} {ip : IpAddr} :
    Covers (entries.filterMap (entryNet text.toAddressText)) ip ↔ EntriesCover text entries ip := by
  unfold Covers EntriesCover
  simp only [mem_filterMap]
  constructor
  · rintro ⟨net, ⟨entry, hentry, hnet⟩, hcontains⟩
    exact ⟨entry, hentry, net, hnet, hcontains⟩
  · rintro ⟨entry, hentry, net, hnet, hcontains⟩
    exact ⟨net, ⟨entry, hentry, hnet⟩, hcontains⟩

theorem entryNet_of_parseNet {entry : String} {net : IpNet} (h : text.parseNet entry = some net) :
    entryNet text.toAddressText entry = some net := by
  have hblank : ∀ c ∈ entry.toList, Text.isWhitespace c = false := by
    intro c hc
    rcases (text.net_chars entry net h).2 c hc with haddr | rfl
    · exact isWhitespace_of_isAddrChar haddr
    · rfl
  rw [entryNet, Text.trim_eq_self hblank, h]

theorem entryNet_of_blank {entry : String} (h : Text.trim entry = "") :
    entryNet text.toAddressText entry = none := by
  have hnet : text.parseNet "" = none := by
    refine Option.eq_none_iff_forall_not_mem.mpr ?_
    intro net hnet
    exact (text.net_chars "" net hnet).1 rfl
  have haddr : text.parseAddr "" = none := by
    refine Option.eq_none_iff_forall_not_mem.mpr ?_
    intro ip hip
    exact (text.addr_chars "" ip hip).1 rfl
  rw [entryNet, h, hnet, haddr]
  rfl

/-- A list of networks that a configuration keeps admits what it should exactly if it keeps one, or
if the entries stand for all addresses anyway. -/
theorem failsClosed_iff {config : AuthConfig} {entries : List String}
    (h : config.ipWhitelist = entries.filterMap text.parseNet) :
    config.FailsClosed text entries ↔
      (∃ entry ∈ entries, (text.parseNet entry).isSome = true) ∨
        ∀ ip, EntriesCover text entries ip := by
  unfold AuthConfig.FailsClosed
  simp only [isIpAllowed_iff, h]
  by_cases hkept : ∃ entry ∈ entries, (text.parseNet entry).isSome = true
  · refine iff_of_true ?_ (Or.inl hkept)
    obtain ⟨entry, hentry, hsome⟩ := hkept
    obtain ⟨net, hnet⟩ := Option.isSome_iff_exists.mp hsome
    rintro ip (hempty | ⟨found, hfound, hcontains⟩)
    · have hmem : net ∈ entries.filterMap text.parseNet :=
        mem_filterMap.mpr ⟨entry, hentry, hnet⟩
      rw [hempty] at hmem
      cases hmem
    · obtain ⟨source, hsource, hparse⟩ := mem_filterMap.mp hfound
      exact ⟨source, hsource, found, entryNet_of_parseNet hparse, hcontains⟩
  · have hempty : entries.filterMap text.parseNet = [] := by
      rw [filterMap_eq_nil_iff]
      intro entry hentry
      rw [← Option.not_isSome_iff_eq_none]
      exact fun hsome => hkept ⟨entry, hentry, hsome⟩
    rw [or_iff_right hkept, hempty]
    constructor
    · intro hall ip
      exact hall ip (Or.inl rfl)
    · intro hall ip _
      exact hall ip

end Entries

/-- **When the allowlist fails closed.** Both ways to fill the list in memory admit only addresses
that some entry stands for if and only if one of the entries is a network as it is written, or the
entries stand for every address. -/
theorem allowlist_fails_closed_iff (text : NetText) (entries proxies : List String)
    (config : AuthConfig) :
    ((AuthConfig.new text.toAddressText ⟨entries, proxies⟩).FailsClosed text entries ↔
        (∃ entry ∈ entries, (text.parseNet entry).isSome = true) ∨
          ∀ ip, EntriesCover text entries ip) ∧
      ((config.updateIpWhitelist text.toAddressText entries).FailsClosed text entries ↔
        (∃ entry ∈ entries, (text.parseNet entry).isSome = true) ∨
          ∀ ip, EntriesCover text entries ip) :=
  ⟨failsClosed_iff rfl, failsClosed_iff rfl⟩

/-- A list with one bare address admits everybody. -/
theorem bare_address_admits_all :
    ((AuthConfig.new dottedNetText.toAddressText ⟨["10.0.0.1"], []⟩).isIpAllowed outsideClient =
        true ∧
      ((openSettings []).auth.updateIpWhitelist dottedNetText.toAddressText
        ["10.0.0.1"]).isIpAllowed outsideClient = true) ∧
      ¬ EntriesCover dottedNetText ["10.0.0.1"] outsideClient := by
  refine ⟨by decide +kernel, ?_⟩
  rw [← covers_filterMap_iff, Covers]
  decide +kernel

section Normalisation

variable {text : NetText}

theorem validateCidrOrIp_eq (entry : String) :
    validateCidrOrIp text.toAddressText entry =
      match entryNet text.toAddressText entry with
      | some net => .ok (displayNet text.toAddressText net)
      | none => .error entry := by
  unfold validateCidrOrIp
  by_cases hblank : Text.trim entry = ""
  · rw [if_pos hblank, entryNet_of_blank hblank]
  · rw [if_neg hblank, entryNet]
    cases text.parseNet (Text.trim entry) with
    | some net => rfl
    | none =>
      cases text.parseAddr (Text.trim entry) with
      | some ip => rfl
      | none => rfl

theorem entryNet_display (net : IpNet) :
    entryNet text.toAddressText (displayNet text.toAddressText net) = some net :=
  (entryNet_displayNet net).trans (text.parseNet_displayNet net)

theorem entryNet_eq_none_iff {entry : String} :
    entryNet text.toAddressText entry = none ↔
      text.parseNet (Text.trim entry) = none ∧ text.parseAddr (Text.trim entry) = none := by
  rw [entryNet]
  cases text.parseNet (Text.trim entry) <;> simp

/-- The check stops at the first entry that stands for nothing, or prints the networks of all. -/
theorem mapM_validate (text : NetText) (entries : List String) :
    (∃ bad ∈ entries, entryNet text.toAddressText bad = none ∧
        entries.mapM (validateCidrOrIp text.toAddressText) = .error bad) ∨
      ∃ nets : List IpNet, entries.map (entryNet text.toAddressText) = nets.map some ∧
        entries.mapM (validateCidrOrIp text.toAddressText) =
          .ok (nets.map (displayNet text.toAddressText)) := by
  induction entries with
  | nil => exact Or.inr ⟨[], rfl, rfl⟩
  | cons entry entries ih =>
    have hentry : validateCidrOrIp text.toAddressText entry = _ := validateCidrOrIp_eq entry
    rw [mapM_cons]
    cases hnet : entryNet text.toAddressText entry with
    | none =>
      rw [hnet] at hentry
      rw [hentry]
      exact Or.inl ⟨entry, mem_cons_self, hnet, rfl⟩
    | some net =>
      rw [hnet] at hentry
      rw [hentry]
      rcases ih with ⟨bad, hbad, hnone, herror⟩ | ⟨nets, hnets, hok⟩
      · rw [herror]
        exact Or.inl ⟨bad, mem_cons_of_mem _ hbad, hnone, rfl⟩
      · rw [hok]
        refine Or.inr ⟨net :: nets, ?_, rfl⟩
        rw [map_cons, map_cons, hnet, hnets]

theorem filterMap_parseNet_display (nets : List IpNet) :
    (nets.map (displayNet text.toAddressText)).filterMap text.parseNet = nets := by
  have hparse : text.parseNet ∘ displayNet text.toAddressText = some :=
    funext text.parseNet_displayNet
  rw [filterMap_map, hparse, filterMap_some]

theorem updateIpWhitelist_refused {auth : RequestUser} {entries : List String} {bad : String}
    (settings : Settings) (hadmin : auth.role.isAdmin = true)
    (h : entries.mapM (validateCidrOrIp text.toAddressText) = .error bad) :
    updateIpWhitelist text.toAddressText auth entries settings =
      (.error (.badRequest ("Invalid IP/CIDR entry: '" ++ bad ++
        "'. Use formats like 10.0.0.0/8, 192.168.1.0/24, or 10.0.0.1")), settings) := by
  rw [updateIpWhitelist, hadmin, h]
  rfl

end Normalisation

/-- **The check of an allowlist is exact.** For every list of entries, either the check names an
entry that is neither a network nor an address, and the handler refuses the list; or it gives a list
of the same length that it would give back again. The configuration keeps all of that list and, if
it is not empty, admits exactly the addresses that the entries stand for. -/
theorem normalisation_exact (text : NetText) (entries : List String) :
    (∃ bad ∈ entries, text.parseNet (Text.trim bad) = none ∧
        text.parseAddr (Text.trim bad) = none ∧
        entries.mapM (validateCidrOrIp text.toAddressText) = .error bad ∧
        ∀ (auth : RequestUser) (settings : Settings), auth.role.isAdmin = true →
          updateIpWhitelist text.toAddressText auth entries settings =
            (.error (.badRequest ("Invalid IP/CIDR entry: '" ++ bad ++
              "'. Use formats like 10.0.0.0/8, 192.168.1.0/24, or 10.0.0.1")), settings)) ∨
      ∃ validated, entries.mapM (validateCidrOrIp text.toAddressText) = .ok validated ∧
        validated.length = entries.length ∧
        (∀ normal ∈ validated, validateCidrOrIp text.toAddressText normal = .ok normal) ∧
        (∀ (auth : RequestUser) (settings after : Settings),
          updateIpWhitelist text.toAddressText auth entries settings = (.ok (), after) →
            after.auth = settings.auth.updateIpWhitelist text.toAddressText validated) ∧
        ∀ config : AuthConfig,
          (config.updateIpWhitelist text.toAddressText validated).ipWhitelist.length =
            validated.length ∧
          (entries ≠ [] → ∀ ip,
            (config.updateIpWhitelist text.toAddressText validated).isIpAllowed ip = true ↔
              EntriesCover text entries ip) := by
  rcases mapM_validate text entries with ⟨bad, hbad, hnone, herror⟩ | ⟨nets, hnets, hok⟩
  · refine Or.inl ⟨bad, hbad, (entryNet_eq_none_iff.mp hnone).1, (entryNet_eq_none_iff.mp hnone).2,
      herror, ?_⟩
    intro auth settings hadmin
    exact updateIpWhitelist_refused settings hadmin herror
  · have hlength : nets.length = entries.length := by
      simpa using (congrArg List.length hnets).symm
    have hentries : entries.filterMap (entryNet text.toAddressText) = nets := by
      calc entries.filterMap (entryNet text.toAddressText)
          = (entries.map (entryNet text.toAddressText)).filterMap id := by
            rw [filterMap_map, Function.id_comp]
        _ = nets := by
            rw [hnets, filterMap_map, Function.id_comp, filterMap_some]
    refine Or.inr ⟨nets.map (displayNet text.toAddressText), hok, ?_, ?_, ?_, ?_⟩
    · rw [length_map, hlength]
    · intro normal hnormal
      obtain ⟨net, -, rfl⟩ := mem_map.mp hnormal
      rw [validateCidrOrIp_eq, entryNet_display]
    · intro auth settings after haccepted
      obtain ⟨validated, hvalidated, -, hauth, -⟩ := updateIpWhitelist_ok haccepted
      rw [hok] at hvalidated
      rw [hauth, ← Except.ok.inj hvalidated]
    · intro config
      have hkept : (config.updateIpWhitelist text.toAddressText
          (nets.map (displayNet text.toAddressText))).ipWhitelist = nets :=
        filterMap_parseNet_display nets
      refine ⟨by rw [hkept, length_map], ?_⟩
      intro hne ip
      have hsome : nets ≠ [] := by
        rwa [← length_pos_iff, hlength, length_pos_iff]
      rw [isIpAllowed_iff, hkept, or_iff_right hsome, ← covers_filterMap_iff, hentries]

end FirewallManager
