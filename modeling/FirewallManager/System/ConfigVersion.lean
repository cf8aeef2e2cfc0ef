import FirewallManager.Enrollment.Interleaving
import FirewallManager.Manager.Settings
import FirewallManager.System.ActionDelivery
import FirewallManager.System.Convergence

/-!
# Settings and their versions

The check-in interval of a host is a row of `host_config_overrides` with a version. A settings
update counts the version up on the rows whose interval it changes, an approval makes a row with
version 1 and hands the same interval to the agent, and a check-in sends the row to an agent with an
older version.

`Tracks` relates what an agent has, or what waits for it in a bundle, to the row. Every operation of
the manager keeps it (`Keeps`), a check-in restores it for the agent (`tracks_cycle`), and
`config_versions_agree` is the law over runs.
-/

namespace FirewallManager

open List

/-- `global_check_in_interval`. -/
def globalCheckInInterval (config : Table SettingRow.key) : Int :=
  ((getConfigJson config "settings_polling").bind pollingInterval).getD 900

/-- Wrapping to 32 bits with sign. -/
def wrapI32 (n : Int) : Int :=
  n.bmod (2 ^ 32)

/-- Wrapping to 64 bits with sign. -/
def wrapI64 (n : Int) : Int :=
  n.bmod (2 ^ 64)

/-- `detect_stale_agents`, for one host: the status for the seconds since its last check-in. -/
def staleStatus (interval : Option Int) (elapsed : Option Int) : HostHealthStatus :=
  let interval := interval.getD 900
  let stale2x := wrapI64 (interval * 2)
  let stale4x := wrapI64 (interval * 4)
  match elapsed with
  | some elapsed =>
    if elapsed > stale4x then .unreachable
    else if elapsed > stale2x then .degraded
    else .healthy
  | none => .pending

/-- The hold of an event stream, in the arithmetic of `events`. -/
def eventsHold (interval : Int) : Nat :=
  (max (wrapI32 (interval - 30)) 30 % 2 ^ 64).toNat

/-- `save_config`, as far as the pull loop uses it: the agent takes over what its bundle says, and
protects the address of the manager. -/
def Agent.enroll {σ : Type} (agent : Agent σ) (bundle : PkiBundle) (url : String)
    (managerCidr : Option String) : Agent σ :=
  let intervalSecs := bundle.checkInIntervalSecs.toNat
  { agent with
    config := { agent.config with
      managerAgentUrl := url
      checkInIntervalSecs := intervalSecs
      configVersion := bundle.configVersion
      protectedCidrs :=
        match managerCidr with
        | some cidr =>
          if cidr ∈ agent.config.protectedCidrs then agent.config.protectedCidrs
          else agent.config.protectedCidrs ++ [cidr]
        | none => agent.config.protectedCidrs }
    intervalSecs := intervalSecs
    configVersion := bundle.configVersion }

/-- The manager, and an agent with the host that it is enrolled as. -/
structure ConfigState (σ : Type) where
  config : Table SettingRow.key
  auth : AuthConfig
  store : EnrollStore
  approved : Table ApprovedEntry.pollingHash
  host : Option Uuid
  agent : Agent σ

/-- The manager's tables. -/
def ConfigState.base {σ : Type} (state : ConfigState σ) : Database :=
  state.store.pki.base

/-- The state with other tables. -/
def ConfigState.withBase {σ : Type} (state : ConfigState σ) (base : Database) : ConfigState σ :=
  { state with store := { state.store with pki := { state.store.pki with base := base } } }

/-- What happens. Submissions and denials change the waiting requests in any way. A poll that finds
a bundle takes it, and the agent may fail to store it. -/
inductive ConfigOp where
  | updateSettings (user : AuthUser) (body : UpdateSettingsRequest)
  | requests (rows : Table fun row : PendingEnrollment => row.id)
  | approve (user : AuthUser) (now : Nat) (id : Uuid) (draws : ApprovalDraws)
  | poll (token : String) (stored : Option (String × Option String))
  | cycle (network : Network) (now : Nat) (input : CycleInput)

/-- A poll that finds a bundle which the agent stores. -/
def ConfigOp.Enrols (env : EnrollEnv) (approved : Table ApprovedEntry.pollingHash) :
    ConfigOp → Prop
  | .poll token stored => approved.has (env.hashToken token) = true ∧ stored.isSome = true
  | _ => False

section Steps

variable {σ : Type} (eenv : EnrollEnv) (aenv : AgentEnv σ) (menv : ManagerEnv)

/-- One operation. An agent that is not enrolled has no cycles. -/
def configStep (state : ConfigState σ) : ConfigOp → ConfigState σ
  | .updateSettings user body =>
    let settings :=
      (updateSettings user body ⟨state.config, state.base.configOverrides, state.auth⟩).2
    { state.withBase { state.base with configOverrides := settings.overrides } with
      config := settings.config }
  | .requests rows => { state with store := { state.store with requests := rows } }
  | .approve user now id draws =>
    let last := approveSteps eenv user now id draws (globalCheckInInterval state.config) 5
      (approveStart user id state.store, state.store, state.approved)
    { state with store := last.2.1, approved := last.2.2 }
  | .poll token stored =>
    match pollStart eenv token state.approved with
    | (.answered (.approved bundle host), approved) =>
      match stored with
      | some (url, cidr) =>
        { state with
          approved := approved, host := some host,
          agent := state.agent.enroll bundle url cidr }
      | none => { state with approved := approved }
    | (_, approved) => { state with approved := approved }
  | .cycle network now input =>
    match state.host with
    | none => state
    | some host =>
      let linked := (runPullCycle { aenv with hostId := host }
        (managerLink menv network now host) input ⟨state.agent, state.base⟩).2
      { state.withBase linked.manager with agent := linked.agent }

end Steps

/-! ## A row and what was sent of it -/

/-- The interval is between a second and a day. -/
def InRange (interval : Int) : Prop :=
  1 ≤ interval ∧ interval ≤ 86400

/-- A version and an interval that were read from the row of a host some time ago. -/
def Tracks (overrides : Table HostConfigOverride.hostId) (host : Uuid) (version interval : Int) :
    Prop :=
  ∃ row, overrides.find? host = some row ∧ version ≤ row.configVersion ∧
    (version = row.configVersion → interval = row.checkInIntervalSecs) ∧ InRange interval

/-- What was read from the old rows may have been read from the new ones. -/
def Keeps (old new : Table HostConfigOverride.hostId) : Prop :=
  ∀ host version interval, Tracks old host version interval → Tracks new host version interval

theorem Keeps.refl (overrides : Table HostConfigOverride.hostId) : Keeps overrides overrides :=
  fun _ _ _ h => h

/-- The manager's tables and the bundles that wait. -/
structure Consistent (base : Database) (approved : Table ApprovedEntry.pollingHash) : Prop where
  rows : ∀ row ∈ base.configOverrides.rows, InRange row.checkInIntervalSecs
  hosts : ∀ row ∈ base.configOverrides.rows, base.hosts.has row.hostId = true
  bundles : ∀ entry ∈ approved.rows,
    Tracks base.configOverrides entry.hostId entry.bundle.configVersion
      entry.bundle.checkInIntervalSecs

theorem inRange_pollingInterval {polling : Json} {interval : Int}
    (h : pollingInterval polling = some interval) : InRange interval := by
  obtain ⟨secs, -, rfl⟩ := Option.map_eq_some_iff.mp h
  unfold InRange
  omega

theorem inRange_globalCheckInInterval (config : Table SettingRow.key) :
    InRange (globalCheckInInterval config) := by
  unfold globalCheckInInterval
  cases hstored : (getConfigJson config "settings_polling").bind pollingInterval with
  | none =>
    show InRange 900
    unfold InRange
    omega
  | some interval =>
    obtain ⟨polling, -, hinterval⟩ := Option.bind_eq_some_iff.mp hstored
    exact inRange_pollingInterval hinterval

theorem keeps_pushInterval (overrides : Table HostConfigOverride.hostId) (interval : Int) :
    Keeps overrides (pushInterval overrides interval) := by
  rintro host version had ⟨row, hfind, hle, hsame, hrange⟩
  have hnew : (pushInterval overrides interval).find? host =
      some (if decide (row.checkInIntervalSecs ≠ interval) = true then
        { row with checkInIntervalSecs := interval, configVersion := row.configVersion + 1 }
        else row) := by
    rw [pushInterval, Table.find?_update, hfind]
    rfl
  by_cases hchanged : row.checkInIntervalSecs ≠ interval
  · rw [if_pos (decide_eq_true hchanged)] at hnew
    refine ⟨_, hnew, ?_, fun heq => ?_, hrange⟩
    · show version ≤ row.configVersion + 1
      omega
    · have heq' : version = row.configVersion + 1 := heq
      omega
  · rw [if_neg fun h => hchanged (of_decide_eq_true h)] at hnew
    exact ⟨row, hnew, hle, hsame, hrange⟩

theorem keeps_insertNew (overrides : Table HostConfigOverride.hostId) (row : HostConfigOverride) :
    Keeps overrides (overrides.insertNew row) := by
  rintro host version had ⟨old, hfind, hrest⟩
  obtain ⟨hmem, hhost⟩ := Table.mem_of_find? hfind
  exact ⟨old, Table.find?_eq_some_iff.mpr ⟨Table.mem_insertNew.mpr (.inl hmem), hhost⟩, hrest⟩

/-! ## Settings updates -/

section Settings

variable {base : Database} {approved : Table ApprovedEntry.pollingHash}

theorem updateSettings_overrides (user : AuthUser) (body : UpdateSettingsRequest)
    (settings : Settings) :
    (updateSettings user body settings).2.overrides = settings.overrides ∨
      ∃ interval, InRange interval ∧
        (updateSettings user body settings).2.overrides =
          pushInterval settings.overrides interval := by
  unfold updateSettings
  split
  next => exact .inl rfl
  next =>
    cases hinterval : body.polling.bind pollingInterval with
    | none => exact .inl rfl
    | some interval =>
      obtain ⟨polling, -, hpolling⟩ := Option.bind_eq_some_iff.mp hinterval
      exact .inr ⟨interval, inRange_pollingInterval hpolling, rfl⟩

theorem Consistent.push (h : Consistent base approved) {interval : Int}
    (hrange : InRange interval) :
    Consistent { base with configOverrides := pushInterval base.configOverrides interval }
      approved where
  rows := by
    intro row hrow
    obtain ⟨old, hold, rfl⟩ := mem_map.mp hrow
    split
    · exact hrange
    · exact h.rows old hold
  hosts := by
    intro row hrow
    obtain ⟨old, hold, rfl⟩ := mem_map.mp hrow
    split
    · exact h.hosts old hold
    · exact h.hosts old hold
  bundles := fun entry hentry =>
    keeps_pushInterval base.configOverrides interval _ _ _ (h.bundles entry hentry)

end Settings

/-! ## Approvals -/

section Approvals

variable {approved : Table ApprovedEntry.pollingHash}

theorem registerHost_tables {pki pki' : PkiDatabase} {req : EnrollmentRequest} {host : Uuid}
    {interval : Int} (h : pki.registerHost req host interval = some pki') :
    pki.base.hosts.has host = false ∧
      (∀ other, pki.base.hosts.has other = true → pki'.base.hosts.has other = true) ∧
      pki'.base.hosts.has host = true ∧
      pki'.base.configOverrides =
        pki.base.configOverrides.insertNew ⟨host, interval, true, false, none, 1⟩ := by
  unfold PkiDatabase.registerHost at h
  split at h
  next hosts hostNames hinsert _ =>
    cases h
    obtain ⟨hfree, hrows⟩ := Table.insert?_eq_some_iff.mp hinsert
    refine ⟨hfree, fun other hother => ?_, ?_, rfl⟩
    · obtain ⟨row, hrow, hid⟩ := Table.has_eq_true_iff.mp hother
      refine Table.has_eq_true_iff.mpr ⟨row, ?_, hid⟩
      show row ∈ hosts.rows
      rw [hrows]
      exact mem_append_left _ hrow
    · refine Table.has_eq_true_iff.mpr ⟨⟨host, none, .pending, none⟩, ?_, rfl⟩
      show _ ∈ hosts.rows
      rw [hrows]
      exact mem_append_right _ mem_cons_self
  next => cases h

theorem Consistent.register {pki pki' : PkiDatabase} (h : Consistent pki.base approved)
    {req : EnrollmentRequest} {host : Uuid} {interval : Int} (hrange : InRange interval)
    (hregister : pki.registerHost req host interval = some pki') :
    Consistent pki'.base approved ∧ Tracks pki'.base.configOverrides host 1 interval ∧
      Keeps pki.base.configOverrides pki'.base.configOverrides := by
  obtain ⟨hfree, hhosts, hhost, hrows⟩ := registerHost_tables hregister
  have hkeeps : Keeps pki.base.configOverrides pki'.base.configOverrides := by
    rw [hrows]
    exact keeps_insertNew _ _
  -- A host without a row in `hosts` has none in `host_config_overrides`.
  have hnone : pki.base.configOverrides.has host = false := by
    rw [Bool.eq_false_iff, Ne, Table.has_eq_true_iff]
    rintro ⟨row, hrow, hid⟩
    rw [← hid, h.hosts row hrow] at hfree
    cases hfree
  refine ⟨⟨?_, ?_, ?_⟩, ?_, hkeeps⟩
  · intro row hrow
    rw [hrows] at hrow
    rcases Table.mem_insertNew.mp hrow with hold | ⟨-, rfl⟩
    · exact h.rows row hold
    · exact hrange
  · intro row hrow
    rw [hrows] at hrow
    rcases Table.mem_insertNew.mp hrow with hold | ⟨-, rfl⟩
    · exact hhosts _ (h.hosts row hold)
    · exact hhost
  · exact fun entry hentry => hkeeps _ _ _ (h.bundles entry hentry)
  · refine ⟨⟨host, interval, true, false, none, 1⟩, ?_, Int.le_refl _, fun _ => rfl, hrange⟩
    rw [hrows]
    exact Table.find?_eq_some_iff.mpr ⟨Table.mem_insertNew.mpr (.inr ⟨hnone, rfl⟩), rfl⟩

/-- What an approval has done so far: the tables are consistent, the old rows are kept, and a host
that is not yet in the map has its row. -/
structure ApproveHolds (start : Table HostConfigOverride.hostId) (phase : ApprovePhase)
    (store : EnrollStore) (approved : Table ApprovedEntry.pollingHash) : Prop where
  tables : Consistent store.pki.base approved
  keeps : Keeps start store.pki.base.configOverrides
  registered : ∀ row host interval, phase = .registered row host interval →
    Tracks store.pki.base.configOverrides host 1 interval
  signed : ∀ row host bundle, phase = .signed row host bundle →
    Tracks store.pki.base.configOverrides host bundle.configVersion bundle.checkInIntervalSecs

theorem Consistent.cache {base : Database} (h : Consistent base approved) {entry : ApprovedEntry}
    (hentry : Tracks base.configOverrides entry.hostId entry.bundle.configVersion
      entry.bundle.checkInIntervalSecs) :
    Consistent base (cacheEntry entry approved) where
  rows := h.rows
  hosts := h.hosts
  bundles := by
    intro other hother
    rcases Table.mem_insertNew.mp hother with hold | ⟨-, rfl⟩
    · exact h.bundles other (Table.mem_delete.mp hold).1
    · exact hentry

theorem approveHolds_next {start : Table HostConfigOverride.hostId} (env : EnrollEnv) (now : Nat)
    (draws : ApprovalDraws) {interval : Int} (hrange : InRange interval) {call : ApproveCall}
    {store : EnrollStore} (h : ApproveHolds start call.phase store approved) :
    ApproveHolds start (approveNext env now draws interval call store approved).1
      (approveNext env now draws interval call store approved).2.1
      (approveNext env now draws interval call store approved).2.2 := by
  have hplain {phase : ApprovePhase} (hregistered : ∀ row host interval,
      phase ≠ .registered row host interval) (hsigned : ∀ row host bundle,
      phase ≠ .signed row host bundle) : ApproveHolds start phase store approved :=
    ⟨h.tables, h.keeps, fun row host interval heq => absurd heq (hregistered row host interval),
      fun row host bundle heq => absurd heq (hsigned row host bundle)⟩
  unfold approveNext
  split
  next row hphase =>
    split
    · exact hplain (fun _ _ _ => nofun) fun _ _ _ => nofun
    · exact hplain (fun _ _ _ => nofun) fun _ _ _ => nofun
  next row hphase =>
    split
    · exact hplain (fun _ _ _ => nofun) fun _ _ _ => nofun
    · split
      next => exact hplain (fun _ _ _ => nofun) fun _ _ _ => nofun
      next pki hregister =>
        obtain ⟨htables, htracks, hkeeps⟩ := h.tables.register hrange hregister
        refine ⟨htables, fun host version interval hold => hkeeps _ _ _ (h.keeps _ _ _ hold),
          ?_, fun _ _ _ => nofun⟩
        rintro _ _ _ ⟨⟩
        exact htracks
  next row host interval hphase =>
    have htracks := h.registered row host interval hphase
    dsimp only
    unfold approveSign
    split
    next => exact hplain (fun _ _ _ => nofun) fun _ _ _ => nofun
    next csr hcsr =>
      split
      next => exact hplain (fun _ _ _ => nofun) fun _ _ _ => nofun
      next cert hcert =>
        split
        next => exact hplain (fun _ _ _ => nofun) fun _ _ _ => nofun
        next pki hinsert =>
          have hbase := (PkiDatabase.insertCertificate_tables hinsert).2.1
          refine ⟨?_, ?_, fun _ _ _ => nofun, ?_⟩
          · show Consistent pki.base approved
            rw [hbase]
            exact h.tables
          · show Keeps start pki.base.configOverrides
            rw [hbase]
            exact h.keeps
          · rintro _ _ _ ⟨⟩
            show Tracks pki.base.configOverrides host 1 interval
            rw [hbase]
            exact htracks
  next row host bundle hphase =>
    refine ⟨h.tables.cache (h.signed row host bundle hphase), h.keeps, fun _ _ _ => nofun,
      fun _ _ _ => nofun⟩
  next host hphase =>
    exact ⟨⟨h.tables.rows, h.tables.hosts, h.tables.bundles⟩, h.keeps, fun _ _ _ => nofun,
      fun _ _ _ => nofun⟩
  next => exact hplain (fun _ _ _ => nofun) fun _ _ _ => nofun
  next => exact hplain (fun _ _ _ => nofun) fun _ _ _ => nofun

theorem approveHolds_steps {store : EnrollStore} (h : Consistent store.pki.base approved)
    (env : EnrollEnv) (user : AuthUser) (now : Nat) (id : Uuid) (draws : ApprovalDraws)
    {interval : Int} (hrange : InRange interval) (n : Nat) :
    ApproveHolds store.pki.base.configOverrides
      (approveSteps env user now id draws interval n
        (approveStart user id store, store, approved)).1
      (approveSteps env user now id draws interval n
        (approveStart user id store, store, approved)).2.1
      (approveSteps env user now id draws interval n
        (approveStart user id store, store, approved)).2.2 := by
  have hstart : ApproveHolds store.pki.base.configOverrides (approveStart user id store) store
      approved := by
    refine ⟨h, Keeps.refl _, ?_, ?_⟩
    · intro row host interval hphase
      unfold approveStart at hphase
      split at hphase
      · cases hphase
      · split at hphase
        · cases hphase
        · cases hphase
    · intro row host bundle hphase
      unfold approveStart at hphase
      split at hphase
      · cases hphase
      · split at hphase
        · cases hphase
        · cases hphase
  induction n with
  | zero => exact hstart
  | succ n ih =>
    rw [approveSteps, Function.iterate_succ_apply']
    exact approveHolds_next env now draws hrange ih

end Approvals

/-! ## Check-ins -/

/-- The interval and the version that the pull loop has. -/
def Agent.settings {σ : Type} (agent : Agent σ) : Nat × Int :=
  (agent.intervalSecs, agent.configVersion)

/-- What an agent can be told by its manager: its configuration, its interval and its version. -/
def Agent.options {σ : Type} (agent : Agent σ) : AgentConfig × Nat × Int :=
  (agent.config, agent.intervalSecs, agent.configVersion)

section Cycles

variable {σ μ : Type} {env : AgentEnv σ} {link : ManagerLink μ}

theorem options_applyStep (drift : Bool) (response : CheckInResponse) (agent : Agent σ) :
    (applyStep env drift response agent).2.options = agent.options := by
  unfold applyStep
  split
  next => rfl
  next plan _ =>
    have happly : (agent.apply env (applyEndpoint env agent.config.managerAgentUrl)
        plan).2.options = agent.options := rfl
    split
    next heq =>
      rw [heq] at happly
      exact happly
    next heq =>
      rw [heq] at happly
      exact happly

theorem options_handleActions (liveHash : String) (actions : List PendingActionDto)
    (linked : Linked σ μ) :
    (actions.foldl (handleAction env link liveHash) linked).agent.options =
      linked.agent.options := by
  induction actions generalizing linked with
  | nil => rfl
  | cons action rest ih =>
    rw [foldl_cons, ih]
    unfold handleAction
    split
    · rfl
    · rfl

theorem options_onCheckInFailed (agent : Agent σ) (now : Nat) :
    (agent.onCheckInFailed env now).options = agent.options := by
  unfold Agent.onCheckInFailed
  split
  next =>
    dsimp only
    split
    next =>
      unfold Agent.revertToLastGood
      split
      next =>
        split
        next => rfl
        next => rfl
      next => rfl
    next => rfl
  next => rfl

/-- The settings that a cycle is sent. -/
def pulledConfig (env : AgentEnv σ) (link : ManagerLink μ) (input : CycleInput)
    (linked : Linked σ μ) : Option ConfigUpdate :=
  match probe env linked.agent.world with
  | (.error _, _) => none
  | (.ok liveHash, world) =>
    (link.checkIn (checkInRequest env input { linked.agent with world := world }
      (localDrift linked.agent.files liveHash)) linked.manager).1.bind CheckInResponse.config

theorem runPullCycle_options (env : AgentEnv σ) (link : ManagerLink μ) (input : CycleInput)
    (linked : Linked σ μ) :
    (runPullCycle env link input linked).2.agent.options =
      (linked.agent.updateConfig (pulledConfig env link input linked)).options := by
  unfold runPullCycle pulledConfig
  cases probe env linked.agent.world with
  | mk result world =>
    cases result with
    | error e => rfl
    | ok liveHash =>
      dsimp only
      split
      next hnone =>
        rw [hnone]
        exact options_onCheckInFailed _ _
      next response manager hresponse =>
        rw [hresponse]
        unfold afterCheckIn
        dsimp only
        rw [options_handleActions]
        refine (options_applyStep _ _ _).trans ?_
        rw [Option.bind_some]
        cases hconfig : response.config with
        | none =>
          rw [Agent.settled, hconfig]
          rfl
        | some update =>
          rw [Agent.settled, hconfig]
          rfl

/-- What a cycle does to the settings: nothing, or it takes over those of the answer. -/
theorem runPullCycle_settings (env : AgentEnv σ) (link : ManagerLink μ) (input : CycleInput)
    (linked : Linked σ μ) :
    (runPullCycle env link input linked).2.agent.settings =
      match pulledConfig env link input linked with
      | some update => ((update.checkInIntervalSecs % 2 ^ 32).toNat, update.configVersion)
      | none => linked.agent.settings := by
  have hsettings := congrArg Prod.snd (runPullCycle_options env link input linked)
  cases hpulled : pulledConfig env link input linked with
  | none =>
    rw [hpulled] at hsettings
    exact hsettings
  | some update =>
    rw [hpulled] at hsettings
    exact hsettings

theorem runPullCycle_manager {P : μ → Prop}
    (hcheckIn : ∀ req manager, P manager → P (link.checkIn req manager).2)
    (hreport : ∀ req manager, P manager → P (link.reportResult req manager))
    (input : CycleInput) {linked : Linked σ μ} (hlinked : P linked.manager) :
    P (runPullCycle env link input linked).2.manager := by
  unfold runPullCycle
  split
  next => exact hlinked
  next liveHash world _ =>
    dsimp only
    have hnext := hcheckIn (checkInRequest env input { linked.agent with world := world }
      (localDrift linked.agent.files liveHash)) linked.manager hlinked
    split
    next heq =>
      rw [heq] at hnext
      exact hnext
    next heq =>
      rw [heq] at hnext
      exact afterCheckIn_manager hreport _ _ _ _ hnext

end Cycles

/-- The agent hears from its manager: probe, check-in and answer get through, and the host is known.
-/
def Hears {σ : Type} (aenv : AgentEnv σ) (network : Network) (host : Uuid)
    (linked : Linked σ Database) : Prop :=
  (∃ liveHash, (probe aenv linked.agent.world).1 = .ok liveHash) ∧ network.checkIn = .arrives ∧
    linked.manager.hosts.has host = true

theorem pulledConfig_of_hears {σ : Type} {aenv : AgentEnv σ} {network : Network} {host : Uuid}
    {linked : Linked σ Database} (h : Hears aenv network host linked) (menv : ManagerEnv)
    (now : Nat)
    (input : CycleInput) :
    pulledConfig aenv (managerLink menv network now host) input linked =
      linked.manager.newConfig host linked.agent.configVersion := by
  obtain ⟨⟨liveHash, hprobe⟩, harrives, hknown⟩ := h
  unfold pulledConfig
  cases hresult : probe aenv linked.agent.world with
  | mk result world =>
    rw [hresult] at hprobe
    obtain rfl : result = .ok liveHash := hprobe
    dsimp only
    rw [managerLink_checkIn _ harrives hknown]
    rfl

theorem pulledConfig_of_not_hears {σ : Type} {aenv : AgentEnv σ} {network : Network} {host : Uuid}
    {linked : Linked σ Database} (h : ¬ Hears aenv network host linked) (menv : ManagerEnv)
    (now : Nat) (input : CycleInput) :
    pulledConfig aenv (managerLink menv network now host) input linked = none := by
  unfold pulledConfig
  cases hresult : probe aenv linked.agent.world with
  | mk result world =>
    cases result with
    | error e => rfl
    | ok liveHash =>
      dsimp only [managerLink, Delivery.call]
      cases hcheckIn : network.checkIn with
      | requestLost => rfl
      | responseLost => rfl
      | arrives =>
        have hunknown : linked.manager.hosts.has host = false := by
          refine Bool.eq_false_iff.mpr fun hknown => h ⟨⟨liveHash, ?_⟩, hcheckIn, hknown⟩
          rw [hresult]
        rw [checkIn_of_not_has hunknown]
        rfl

/-- The tables that the settings of the hosts are in. -/
def SameConfig (db' db : Database) : Prop :=
  db'.configOverrides = db.configOverrides ∧ ∀ host, db'.hosts.has host = db.hosts.has host

theorem sameConfig_checkIn (menv : ManagerEnv) (now : Nat) (host : Uuid) (req : CheckInRequest)
    (db : Database) : SameConfig (checkIn menv now host req db).2 db := by
  refine ⟨?_, has_checkIn req⟩
  cases hknown : db.hosts.has host with
  | false => rw [checkIn_of_not_has hknown]
  | true =>
    rw [checkIn_of_has hknown]
    exact (checkInLogged_frame menv now host req db).1

theorem sameConfig_checkInResult (now : Nat) (host : Uuid) (req : CheckInResultRequest)
    (db : Database) : SameConfig (checkInResult now host req db) db := by
  refine ⟨?_, fun other => by rw [hosts_checkInResult]⟩
  unfold checkInResult
  cases req.actionId with
  | none => rfl
  | some id => rfl

section Linked

variable {σ : Type} (aenv : AgentEnv σ) (menv : ManagerEnv) (network : Network) (now : Nat)
  (host : Uuid) (input : CycleInput) (linked : Linked σ Database)

theorem sameConfig_cycle :
    SameConfig (runPullCycle aenv (managerLink menv network now host) input linked).2.manager
      linked.manager := by
  have htrans {last middle : Database} (h : SameConfig last middle)
      (h' : SameConfig middle linked.manager) : SameConfig last linked.manager :=
    ⟨h.1.trans h'.1, fun other => (h.2 other).trans (h'.2 other)⟩
  have hcheckIn : ∀ req db, SameConfig db linked.manager →
      SameConfig ((managerLink menv network now host).checkIn req db).2 linked.manager := by
    intro req db hdb
    show SameConfig (network.checkIn.call _ db).2 linked.manager
    cases network.checkIn with
    | arrives => exact htrans (sameConfig_checkIn menv now host req db) hdb
    | requestLost => exact hdb
    | responseLost => exact htrans (sameConfig_checkIn menv now host req db) hdb
  refine runPullCycle_manager hcheckIn ?_ input ⟨rfl, fun _ => rfl⟩
  exact managerLink_report fun req db => htrans (sameConfig_checkInResult now host req db)

theorem settings_cycle :
    (runPullCycle aenv (managerLink menv network now host) input linked).2.agent.settings =
        linked.agent.settings ∨
      ∃ row, linked.manager.configOverrides.find? host = some row ∧
        linked.agent.configVersion < row.configVersion ∧
        (runPullCycle aenv (managerLink menv network now host) input linked).2.agent.settings =
          ((row.checkInIntervalSecs % 2 ^ 32).toNat, row.configVersion) := by
  rw [runPullCycle_settings]
  by_cases hhears : Hears aenv network host linked
  · rw [pulledConfig_of_hears hhears]
    cases hnew : linked.manager.newConfig host linked.agent.configVersion with
    | none => exact .inl rfl
    | some update =>
      rw [Database.newConfig, Option.filter_eq_some_iff, Option.map_eq_some_iff] at hnew
      obtain ⟨⟨row, hfind, rfl⟩, hnewer⟩ := hnew
      exact .inr ⟨row, hfind, of_decide_eq_true hnewer, rfl⟩
  · rw [pulledConfig_of_not_hears hhears]
    exact .inl rfl

theorem version_le_cycle :
    linked.agent.configVersion ≤ (runPullCycle aenv (managerLink menv network now host) input
      linked).2.agent.configVersion := by
  rcases settings_cycle aenv menv network now host input linked with hsame | ⟨row, -, hnewer, hnew⟩
  · exact (congrArg Prod.snd hsame).ge
  · exact hnewer.le.trans (congrArg Prod.snd hnew).ge

theorem InRange.cast_u32 {interval : Int} (h : InRange interval) :
    ((interval % 2 ^ 32).toNat : Int) = interval := by
  unfold InRange at h
  omega

theorem tracks_cycle
    (hrows : ∀ row ∈ linked.manager.configOverrides.rows, InRange row.checkInIntervalSecs)
    (h : Tracks linked.manager.configOverrides host linked.agent.configVersion
      linked.agent.intervalSecs) :
    Tracks linked.manager.configOverrides host
      (runPullCycle aenv (managerLink menv network now host) input linked).2.agent.configVersion
      (runPullCycle aenv (managerLink menv network now host) input
        linked).2.agent.intervalSecs := by
  rcases settings_cycle aenv menv network now host input linked with hsame | ⟨row, hfind, -, hnew⟩
  · have hversion : (runPullCycle aenv (managerLink menv network now host) input
        linked).2.agent.configVersion = linked.agent.configVersion := congrArg Prod.snd hsame
    have hinterval : (runPullCycle aenv (managerLink menv network now host) input
        linked).2.agent.intervalSecs = linked.agent.intervalSecs := congrArg Prod.fst hsame
    rw [hversion, hinterval]
    exact h
  · have hversion : (runPullCycle aenv (managerLink menv network now host) input
        linked).2.agent.configVersion = row.configVersion := congrArg Prod.snd hnew
    have hinterval : (runPullCycle aenv (managerLink menv network now host) input
        linked).2.agent.intervalSecs = (row.checkInIntervalSecs % 2 ^ 32).toNat :=
      congrArg Prod.fst hnew
    have hrange := hrows row (Table.mem_of_find? hfind).1
    rw [hversion, hinterval, hrange.cast_u32]
    exact ⟨row, hfind, Int.le_refl _, fun _ => rfl, hrange⟩

end Linked

/-! ## Runs -/

/-- The computations on an interval that do not wrap: the cast of the agent, the comparison of the
detector and the hold of an event stream. -/
structure Exact (interval : Int) : Prop where
  agent : ((interval % 2 ^ 32).toNat : Int) = interval
  detector : ∀ elapsed, staleStatus (some interval) (some elapsed) =
    if elapsed > interval * 4 then .unreachable
    else if elapsed > interval * 2 then .degraded
    else .healthy
  events : (eventsHold interval : Int) = max (interval - 30) 30

/-- The intervals of a state: the one that approvals use, those of the hosts, those of the bundles
that wait, and the one of an enrolled agent. -/
inductive ConfigState.HasInterval {σ : Type} (state : ConfigState σ) : Int → Prop where
  | global : state.HasInterval (globalCheckInInterval state.config)
  | row {row : HostConfigOverride} (h : row ∈ state.base.configOverrides.rows) :
      state.HasInterval row.checkInIntervalSecs
  | bundle {entry : ApprovedEntry} (h : entry ∈ state.approved.rows) :
      state.HasInterval entry.bundle.checkInIntervalSecs
  | agent {host : Uuid} (h : state.host = some host) : state.HasInterval state.agent.intervalSecs

/-- The agent and the row of its host agree, and every interval is in range. -/
structure ConfigState.Agrees {σ : Type} (state : ConfigState σ) : Prop where
  version : ∀ host, state.host = some host →
    ∃ row, state.base.configOverrides.find? host = some row ∧
      state.agent.configVersion ≤ row.configVersion ∧
      (state.agent.configVersion = row.configVersion →
        (state.agent.intervalSecs : Int) = row.checkInIntervalSecs)
  intervals : ∀ interval, state.HasInterval interval → InRange interval ∧ Exact interval

theorem InRange.wrapI32 {interval : Int} (h : InRange interval) :
    FirewallManager.wrapI32 (interval - 30) = interval - 30 := by
  unfold InRange at h
  unfold FirewallManager.wrapI32
  rw [Int.bmod_eq_of_le]
  · omega
  · omega

theorem InRange.wrapI64 {interval factor : Int} (h : InRange interval) (hpos : 0 ≤ factor)
    (hsmall : factor ≤ 4) : FirewallManager.wrapI64 (interval * factor) = interval * factor := by
  unfold InRange at h
  have hnonneg : 0 ≤ interval * factor := by
    apply Int.mul_nonneg
    · omega
    · exact hpos
  have hle : interval * factor ≤ 86400 * 4 := by
    apply Int.mul_le_mul
    · exact h.2
    · exact hsmall
    · exact hpos
    · omega
  unfold FirewallManager.wrapI64
  rw [Int.bmod_eq_of_le]
  · omega
  · omega

theorem InRange.exact {interval : Int} (h : InRange interval) : Exact interval where
  agent := h.cast_u32
  detector := by
    intro elapsed
    unfold staleStatus
    dsimp only [Option.getD_some]
    rw [h.wrapI64 (by omega) (by omega), h.wrapI64 (by omega) (by omega)]
  events := by
    unfold eventsHold
    rw [h.wrapI32]
    unfold InRange at h
    omega

/-- The operation does not take the agent back to an older version, unless it enrols the agent. -/
def KeepsVersion {σ : Type} (eenv : EnrollEnv) (aenv : AgentEnv σ) (menv : ManagerEnv)
    (state : ConfigState σ) (op : ConfigOp) : Prop :=
  ¬ op.Enrols eenv state.approved →
    state.agent.configVersion ≤ (configStep eenv aenv menv state op).agent.configVersion

section Runs

variable {σ : Type} {eenv : EnrollEnv} {aenv : AgentEnv σ} {menv : ManagerEnv}

/-- The tables are consistent, and the agent has what it read from the row of its host. -/
def ConfigState.Invariant (state : ConfigState σ) : Prop :=
  Consistent state.base state.approved ∧
    ∀ host, state.host = some host →
      Tracks state.base.configOverrides host state.agent.configVersion state.agent.intervalSecs

variable {state : ConfigState σ}

theorem ConfigState.Invariant.withBase (h : state.Invariant) {base : Database}
    (htables : Consistent base state.approved)
    (hkeeps : Keeps state.base.configOverrides base.configOverrides)
    (config : Table SettingRow.key) :
    ({ state.withBase base with config := config } : ConfigState σ).Invariant :=
  ⟨htables, fun host hhost => hkeeps _ _ _ (h.2 host hhost)⟩

theorem invariant_updateSettings (h : state.Invariant) (user : AuthUser)
    (body : UpdateSettingsRequest) :
    (configStep eenv aenv menv state (.updateSettings user body)).Invariant := by
  have hcases := updateSettings_overrides user body
    ⟨state.config, state.base.configOverrides, state.auth⟩
  refine h.withBase ?_ ?_ _
  · rcases hcases with hsame | ⟨interval, hrange, hnew⟩
    · rw [hsame]
      exact h.1
    · rw [hnew]
      exact h.1.push hrange
  · rcases hcases with hsame | ⟨interval, -, hnew⟩
    · rw [hsame]
      exact Keeps.refl _
    · rw [hnew]
      exact keeps_pushInterval _ _

theorem invariant_poll (h : state.Invariant) (token : String)
    (stored : Option (String × Option String)) :
    (configStep eenv aenv menv state (.poll token stored)).Invariant := by
  show ConfigState.Invariant (match pollStart eenv token state.approved with
    | (.answered (.approved bundle host), approved) => _
    | (_, approved) => _)
  unfold pollStart
  cases hfind : state.approved.find? (eenv.hashToken token) with
  | none => exact h
  | some entry =>
    have htracks := h.1.bundles entry (Table.mem_of_find? hfind).1
    have htables : Consistent state.base (state.approved.delete fun other =>
        decide (other.pollingHash = eenv.hashToken token)) :=
      ⟨h.1.rows, h.1.hosts, fun other hother =>
        h.1.bundles other (Table.mem_delete.mp hother).1⟩
    cases stored with
    | none => exact ⟨htables, h.2⟩
    | some place =>
      refine ⟨htables, fun host hhost => ?_⟩
      cases hhost
      obtain ⟨row, hrow, hle, hsame, hrange⟩ := htracks
      -- The bundle's interval is positive, so the cast keeps it.
      have hcast : (entry.bundle.checkInIntervalSecs.toNat : Int) =
          entry.bundle.checkInIntervalSecs := by
        unfold InRange at hrange
        omega
      show Tracks state.base.configOverrides entry.hostId entry.bundle.configVersion
        entry.bundle.checkInIntervalSecs.toNat
      rw [hcast]
      exact ⟨row, hrow, hle, hsame, hrange⟩

theorem ConfigState.Invariant.withLinked (h : state.Invariant) {host : Uuid}
    (hhost : state.host = some host) {linked : Linked σ Database}
    (hsame : SameConfig linked.manager state.base)
    (htracks : Tracks state.base.configOverrides host linked.agent.configVersion
      linked.agent.intervalSecs) :
    ({ state.withBase linked.manager with agent := linked.agent } : ConfigState σ).Invariant := by
  obtain ⟨hoverrides, hhosts⟩ := hsame
  refine ⟨⟨?_, ?_, ?_⟩, fun other hother => ?_⟩
  · show ∀ row ∈ linked.manager.configOverrides.rows, _
    rw [hoverrides]
    exact h.1.rows
  · show ∀ row ∈ linked.manager.configOverrides.rows, linked.manager.hosts.has row.hostId = true
    rw [hoverrides]
    exact fun row hrow => (hhosts row.hostId).trans (h.1.hosts row hrow)
  · show ∀ entry ∈ state.approved.rows, Tracks linked.manager.configOverrides _ _ _
    rw [hoverrides]
    exact h.1.bundles
  · have hsome : state.host = some other := hother
    obtain rfl : host = other := Option.some.inj (hhost.symm.trans hsome)
    show Tracks linked.manager.configOverrides _ _ _
    rw [hoverrides]
    exact htracks

theorem invariant_cycle (h : state.Invariant) (network : Network) (now : Nat) (input : CycleInput) :
    (configStep eenv aenv menv state (.cycle network now input)).Invariant := by
  show ConfigState.Invariant (match state.host with
    | none => state
    | some host => _)
  cases hhost : state.host with
  | none => exact h
  | some host =>
    exact h.withLinked hhost (sameConfig_cycle _ menv network now host input _)
      (tracks_cycle _ menv network now host input ⟨state.agent, state.base⟩ h.1.rows
        (h.2 host hhost))

/-- Every operation keeps the invariant. -/
theorem invariant_step (h : state.Invariant) (op : ConfigOp) :
    (configStep eenv aenv menv state op).Invariant := by
  cases op with
  | updateSettings user body => exact invariant_updateSettings h user body
  | requests rows => exact h
  | approve user now id draws =>
    have hholds := approveHolds_steps h.1 eenv user now id draws
      (inRange_globalCheckInInterval state.config) 5
    exact ⟨hholds.tables, fun host hhost => hholds.keeps _ _ _ (h.2 host hhost)⟩
  | poll token stored => exact invariant_poll h token stored
  | cycle network now input => exact invariant_cycle h network now input

theorem ConfigState.Invariant.agrees (h : state.Invariant) :
    state.Agrees where
  version := by
    intro host hhost
    obtain ⟨row, hfind, hle, hsame, -⟩ := h.2 host hhost
    exact ⟨row, hfind, hle, hsame⟩
  intervals := by
    intro interval hinterval
    have hrange : InRange interval := by
      cases hinterval with
      | global => exact inRange_globalCheckInInterval state.config
      | row hrow => exact h.1.rows _ hrow
      | bundle hentry =>
        obtain ⟨-, -, -, -, hrange⟩ := h.1.bundles _ hentry
        exact hrange
      | agent hhost =>
        obtain ⟨-, -, -, -, hrange⟩ := h.2 _ hhost
        exact hrange
    exact ⟨hrange, hrange.exact⟩

/-- Only an enrolment takes the agent back to an older version. -/
theorem version_le_step (state : ConfigState σ) (op : ConfigOp) :
    KeepsVersion eenv aenv menv state op := by
  intro henrols
  cases op with
  | updateSettings user body => exact Int.le_refl _
  | requests rows => exact Int.le_refl _
  | approve user now id draws => exact Int.le_refl _
  | poll token stored =>
    show _ ≤ Agent.configVersion (ConfigState.agent
      (match pollStart eenv token state.approved with
      | (.answered (.approved bundle host), approved) => _
      | (_, approved) => _))
    unfold pollStart
    cases hfind : state.approved.find? (eenv.hashToken token) with
    | none => exact Int.le_refl _
    | some entry =>
      cases stored with
      | none => exact Int.le_refl _
      | some place => exact absurd ⟨by rw [Table.has, hfind]; rfl, rfl⟩ henrols
  | cycle network now input =>
    show _ ≤ Agent.configVersion (ConfigState.agent (match state.host with
      | none => state
      | some host => _))
    cases state.host with
    | none => exact Int.le_refl _
    | some host =>
      exact version_le_cycle _ menv network now host input ⟨state.agent, state.base⟩

end Runs

/-- In every state of every run, an enrolled agent has no newer version than the row of its host,
and the interval of the row if the versions are equal. All intervals are between a second and a day,
and nothing computed from them wraps. Between enrolments no operation takes the agent back to an
older version. -/
theorem config_versions_agree {σ : Type} (eenv : EnrollEnv) (aenv : AgentEnv σ) (menv : ManagerEnv)
    (start : ConfigState σ) (hrows : start.base.configOverrides.rows = [])
    (happroved : start.approved.rows = []) (hhost : start.host = none) (ops : List ConfigOp) :
    Runs.Throughout (configStep eenv aenv menv) ConfigState.Agrees start ops ∧
      Runs.Meets (configStep eenv aenv menv) (KeepsVersion eenv aenv menv) start ops := by
  have hstart : start.Invariant := by
    refine ⟨⟨?_, ?_, ?_⟩, ?_⟩
    · rw [hrows]
      exact forall_mem_nil _
    · rw [hrows]
      exact forall_mem_nil _
    · rw [happroved]
      exact forall_mem_nil _
    · rw [hhost]
      intro host h
      cases h
  have hversion : Runs.Meets (configStep eenv aenv menv) (KeepsVersion eenv aenv menv) start ops :=
    Runs.meets_of_forall version_le_step start ops
  have hinvariant : Runs.Throughout (configStep eenv aenv menv) ConfigState.Invariant start ops :=
    Runs.run_invariant (fun state op h _ => invariant_step h op) hstart hversion
  exact ⟨fun n => (hinvariant n).agrees, hversion⟩

/-- A manager with a request of the host `web`, and its agent before it is enrolled. -/
def beforeEnrolment : ConfigState Unit where
  config := .empty
  auth := ⟨[], []⟩
  store := { oneToken with
    requests := .singleton
      ⟨⟨⟨3⟩, "web", "10.0.0.1", some "csr"⟩, "web", plainEnv.hashToken "poll", 0, 100⟩ }
  approved := .empty
  host := none
  agent := quietAgent ⟨none, none, none, []⟩

/-- An admin sets the interval of all hosts. -/
def setInterval (secs : Int) : ConfigOp :=
  .updateSettings caAdmin
    ⟨none, none, some (.obj [("check_in_interval_secs", .int secs)]), none, none, none⟩

/-- The interval changes between the approval and the poll, and again after a cycle whose response
is lost. -/
def twoIntervals : List ConfigOp :=
  [.approve caAdmin 0 ⟨3⟩ ⟨⟨4⟩, ⟨5⟩, ⟨6⟩⟩, setInterval 60,
    .poll "poll" (some ("https://10.0.0.1:8443", none)),
    .cycle ⟨.responseLost, fun _ => .arrives⟩ 100 quietInput, setInterval 0,
    .cycle goodNetwork 200 quietInput]

/-- The agent ends with the third version, which has the least interval. -/
theorem two_intervals_agree :
    (Runs.run (configStep plainEnv quietEnv (ManagerEnv.scan markedDigest)) beforeEnrolment
        twoIntervals).agent.settings = (1, 3) ∧
      (Runs.run (configStep plainEnv quietEnv (ManagerEnv.scan markedDigest)) beforeEnrolment
        twoIntervals).Agrees := by
  refine ⟨by decide +kernel, ?_⟩
  exact (config_versions_agree plainEnv quietEnv (ManagerEnv.scan markedDigest) beforeEnrolment rfl
    rfl rfl twoIntervals).1 twoIntervals.length

end FirewallManager
