import FirewallManager.System.ConfigVersion

/-!
# A changed interval and the safe mode of an agent

The settings of a host are one row with one version. A settings update changes the interval in the
row and counts the version up, and the agent takes over the whole row at its next check-in, the
switch for the safe mode with it. Enrolment leaves this switch to the agent, and an approval makes
the row with the switch off.

`safeMode_cycles` says what a run of cycles does to the switch. `safe_mode_kept_iff` says that a
settings update and the check-ins after it leave the switch exactly if nothing is pushed or the row
has the value of the agent.
-/

namespace FirewallManager

/-! ## The row of the host -/

/-- The interval that a settings update gives to the hosts. -/
def UpdateSettingsRequest.pushedInterval (body : UpdateSettingsRequest) (user : AuthUser) :
    Option Int :=
  if user.role.isAdmin then body.polling.bind pollingInterval else none

/-- The settings update changes the interval of the row. -/
def HostConfigOverride.ChangedBy (row : HostConfigOverride) (user : AuthUser)
    (body : UpdateSettingsRequest) : Prop :=
  ∃ interval, body.pushedInterval user = some interval ∧ row.checkInIntervalSecs ≠ interval

/-- The row after a settings update. -/
def HostConfigOverride.updated (row : HostConfigOverride) (user : AuthUser)
    (body : UpdateSettingsRequest) : HostConfigOverride :=
  match body.pushedInterval user with
  | some interval =>
    if row.checkInIntervalSecs ≠ interval then
      { row with checkInIntervalSecs := interval, configVersion := row.configVersion + 1 }
    else row
  | none => row

/-- The row of the host that the agent is enrolled as. -/
def ConfigState.row {σ : Type} (state : ConfigState σ) : Option HostConfigOverride :=
  state.host.bind fun host => state.base.configOverrides.find? host

/-- The row that the next check-in sends: the one of the host, if it is newer. -/
def ConfigState.incoming {σ : Type} (state : ConfigState σ) : Option HostConfigOverride :=
  state.row.filter fun row => decide (row.configVersion > state.agent.configVersion)

/-- The first check-in after the settings update sends the row: it was newer already, or the update
makes it newer. -/
def ConfigState.PushedBy {σ : Type} (state : ConfigState σ) (user : AuthUser)
    (body : UpdateSettingsRequest) (row : HostConfigOverride) : Prop :=
  state.agent.configVersion < row.configVersion ∨
    row.ChangedBy user body ∧ state.agent.configVersion = row.configVersion

section Updates

variable {user : AuthUser} {body : UpdateSettingsRequest}

theorem HostConfigOverride.safeModeEnabled_updated (row : HostConfigOverride) :
    (row.updated user body).safeModeEnabled = row.safeModeEnabled := by
  unfold updated
  split
  next =>
    split
    · rfl
    · rfl
  next => rfl

theorem HostConfigOverride.lt_configVersion_updated {row : HostConfigOverride} {version : Int} :
    version < (row.updated user body).configVersion ↔
      version < row.configVersion ∨ row.ChangedBy user body ∧ version = row.configVersion := by
  unfold updated ChangedBy
  cases body.pushedInterval user with
  | none => simp
  | some interval =>
    dsimp only
    by_cases hchanged : row.checkInIntervalSecs ≠ interval
    · have hsome : ∃ pushed, some interval = some pushed ∧ row.checkInIntervalSecs ≠ pushed :=
        ⟨interval, rfl, hchanged⟩
      rw [if_pos hchanged, and_iff_right hsome]
      show version < row.configVersion + 1 ↔ _
      omega
    · have hnone : ¬ ∃ pushed, some interval = some pushed ∧
          row.checkInIntervalSecs ≠ pushed := by
        rintro ⟨pushed, ⟨⟩, hne⟩
        exact hchanged hne
      rw [if_neg hchanged, or_iff_left fun h => hnone h.1]

theorem find?_updateSettings (settings : Settings) (host : Uuid) :
    (updateSettings user body settings).2.overrides.find? host =
      (settings.overrides.find? host).map fun row => row.updated user body := by
  unfold updateSettings HostConfigOverride.updated UpdateSettingsRequest.pushedInterval
  cases user.role.isAdmin with
  | false => simp
  | true =>
    cases body.polling.bind pollingInterval with
    | none => simp
    | some interval =>
      simp only [Bool.not_true, Bool.false_eq_true, if_false, if_true]
      rw [pushInterval, Table.find?_update]
      simp only [decide_eq_true_eq]

end Updates

/-! ## Cycles -/

/-- One cycle of the agent. -/
structure PullCycle where
  network : Network
  now : Nat
  input : CycleInput

/-- The agent hears from its manager in the cycle. -/
def ConfigState.Hears {σ : Type} (aenv : AgentEnv σ) (state : ConfigState σ) (cycle : PullCycle) :
    Prop :=
  ∃ host, state.host = some host ∧
    FirewallManager.Hears { aenv with hostId := host } cycle.network host ⟨state.agent, state.base⟩

section Cycles

variable {σ : Type} (eenv : EnrollEnv) (aenv : AgentEnv σ) (menv : ManagerEnv)

/-- The state after a cycle. -/
def configCycle (state : ConfigState σ) (cycle : PullCycle) : ConfigState σ :=
  configStep eenv aenv menv state (.cycle cycle.network cycle.now cycle.input)

theorem configCycle_of_host {state : ConfigState σ} {host : Uuid} (hhost : state.host = some host)
    (cycle : PullCycle) :
    (configCycle eenv aenv menv state cycle).row = state.row ∧
      (configCycle eenv aenv menv state cycle).agent.options =
        (state.agent.updateConfig (pulledConfig { aenv with hostId := host }
          (managerLink menv cycle.network cycle.now host) cycle.input
          ⟨state.agent, state.base⟩)).options := by
  have hstep : configCycle eenv aenv menv state cycle =
      { state.withBase (runPullCycle { aenv with hostId := host }
          (managerLink menv cycle.network cycle.now host) cycle.input
          ⟨state.agent, state.base⟩).2.manager with
        agent := (runPullCycle { aenv with hostId := host }
          (managerLink menv cycle.network cycle.now host) cycle.input
          ⟨state.agent, state.base⟩).2.agent } := by
    rw [configCycle, configStep, hhost]
  rw [hstep]
  constructor
  · have hsame := (sameConfig_cycle { aenv with hostId := host } menv cycle.network cycle.now host
      cycle.input ⟨state.agent, state.base⟩).1
    exact congrArg (fun overrides : Table HostConfigOverride.hostId =>
      state.host.bind fun host => overrides.find? host) hsame
  · exact runPullCycle_options _ _ _ _

theorem configCycle_of_not_hears {state : ConfigState σ} {cycle : PullCycle}
    (h : ¬ state.Hears aenv cycle) :
    (configCycle eenv aenv menv state cycle).agent.options = state.agent.options ∧
      (configCycle eenv aenv menv state cycle).row = state.row := by
  cases hhost : state.host with
  | none =>
    have hstep : configCycle eenv aenv menv state cycle = state := by
      rw [configCycle, configStep, hhost]
    rw [hstep]
    exact ⟨rfl, rfl⟩
  | some host =>
    obtain ⟨hrow, hoptions⟩ := configCycle_of_host eenv aenv menv hhost cycle
    rw [pulledConfig_of_not_hears fun hhears => h ⟨host, hhost, hhears⟩] at hoptions
    exact ⟨hoptions, hrow⟩

theorem configCycle_of_hears {state : ConfigState σ} {cycle : PullCycle}
    (h : state.Hears aenv cycle) :
    (configCycle eenv aenv menv state cycle).agent.config.safeModeEnabled =
        (state.incoming.map HostConfigOverride.safeModeEnabled).getD
          state.agent.config.safeModeEnabled ∧
      (configCycle eenv aenv menv state cycle).incoming = none := by
  obtain ⟨host, hhost, hhears⟩ := h
  obtain ⟨hrow, hoptions⟩ := configCycle_of_host eenv aenv menv hhost cycle
  rw [pulledConfig_of_hears hhears, Database.newConfig] at hoptions
  have hfind : state.base.configOverrides.find? host = state.row := by
    rw [ConfigState.row, hhost]
    rfl
  have hconfig := congrArg (fun options => options.1.safeModeEnabled) hoptions
  have hversion := congrArg (fun options => options.2.2) hoptions
  rw [ConfigState.incoming, ConfigState.incoming, hrow]
  dsimp only [Agent.options] at hconfig hversion
  rw [hconfig, hversion, hfind]
  cases state.row with
  | none => exact ⟨rfl, rfl⟩
  | some row =>
    by_cases hnewer : row.configVersion > state.agent.configVersion
    · simp [hnewer, Option.filter_some, Agent.updateConfig]
    · simp [hnewer, Option.filter_some, Agent.updateConfig]

theorem safeMode_cycles (state : ConfigState σ) (cycles : List PullCycle) :
    (Runs.Happens (configCycle eenv aenv menv) (ConfigState.Hears aenv) state cycles →
        (Runs.run (configCycle eenv aenv menv) state cycles).agent.config.safeModeEnabled =
          (state.incoming.map HostConfigOverride.safeModeEnabled).getD
            state.agent.config.safeModeEnabled) ∧
      (¬ Runs.Happens (configCycle eenv aenv menv) (ConfigState.Hears aenv) state cycles →
        (Runs.run (configCycle eenv aenv menv) state cycles).agent.config.safeModeEnabled =
          state.agent.config.safeModeEnabled) := by
  induction cycles generalizing state with
  | nil => exact ⟨False.elim, fun _ => rfl⟩
  | cons cycle cycles ih =>
    obtain ⟨hheard, hunheard⟩ := ih (configCycle eenv aenv menv state cycle)
    by_cases hhears : state.Hears aenv cycle
    · obtain ⟨hmode, hnone⟩ := configCycle_of_hears eenv aenv menv hhears
      rw [hnone] at hheard
      have hlast : (Runs.run (configCycle eenv aenv menv) state
          (cycle :: cycles)).agent.config.safeModeEnabled =
          (configCycle eenv aenv menv state cycle).agent.config.safeModeEnabled := by
        by_cases hlater : Runs.Happens (configCycle eenv aenv menv) (ConfigState.Hears aenv)
            (configCycle eenv aenv menv state cycle) cycles
        · exact hheard hlater
        · exact hunheard hlater
      exact ⟨fun _ => hlast.trans hmode, fun hnever => absurd (Or.inl hhears) hnever⟩
    · obtain ⟨hoptions, hrow⟩ := configCycle_of_not_hears eenv aenv menv hhears
      have hmode : (configCycle eenv aenv menv state cycle).agent.config.safeModeEnabled =
          state.agent.config.safeModeEnabled :=
        congrArg (fun options => options.1.safeModeEnabled) hoptions
      have hincoming : (configCycle eenv aenv menv state cycle).incoming = state.incoming := by
        have hversion : (configCycle eenv aenv menv state cycle).agent.configVersion =
            state.agent.configVersion := congrArg (fun options => options.2.2) hoptions
        rw [ConfigState.incoming, ConfigState.incoming, hrow, hversion]
      rw [hincoming, hmode] at hheard
      rw [hmode] at hunheard
      constructor
      · rintro (hfirst | hlater)
        · exact absurd hfirst hhears
        · exact hheard hlater
      · exact fun hnever => hunheard fun hlater => hnever (Or.inr hlater)

theorem incoming_updateSettings (state : ConfigState σ) (user : AuthUser)
    (body : UpdateSettingsRequest) :
    (configStep eenv aenv menv state (.updateSettings user body)).incoming =
      (state.row.map fun row => row.updated user body).filter fun row =>
        decide (row.configVersion > state.agent.configVersion) := by
  have hrow : (configStep eenv aenv menv state (.updateSettings user body)).row =
      state.row.map fun row => row.updated user body := by
    show state.host.bind (fun host => Table.find? (updateSettings user body
      ⟨state.config, state.base.configOverrides, state.auth⟩).2.overrides host) = _
    simp only [find?_updateSettings]
    rw [ConfigState.row, Option.map_bind]
    rfl
  rw [ConfigState.incoming, hrow]
  rfl

end Cycles

/-- **A settings update and the safe mode.** After a settings update and any cycles, the agent has
the safe mode that it had before exactly if it did not hear from its manager, or was not sent the
row of its host, or the row has the same value. -/
theorem safe_mode_kept_iff {σ : Type} (eenv : EnrollEnv) (aenv : AgentEnv σ) (menv : ManagerEnv)
    (state : ConfigState σ) (user : AuthUser) (body : UpdateSettingsRequest)
    (cycles : List PullCycle) :
    (Runs.run (configCycle eenv aenv menv)
        (configStep eenv aenv menv state (.updateSettings user body))
        cycles).agent.config.safeModeEnabled = state.agent.config.safeModeEnabled ↔
      (Runs.Happens (configCycle eenv aenv menv) (ConfigState.Hears aenv)
          (configStep eenv aenv menv state (.updateSettings user body)) cycles →
        ∀ row, state.row = some row → state.PushedBy user body row →
          row.safeModeEnabled = state.agent.config.safeModeEnabled) := by
  have hmode : (configStep eenv aenv menv state
      (.updateSettings user body)).agent.config.safeModeEnabled =
      state.agent.config.safeModeEnabled := rfl
  obtain ⟨hheard, hunheard⟩ := safeMode_cycles eenv aenv menv
    (configStep eenv aenv menv state (.updateSettings user body)) cycles
  rw [hmode, incoming_updateSettings] at hheard
  rw [hmode] at hunheard
  by_cases hhears : Runs.Happens (configCycle eenv aenv menv) (ConfigState.Hears aenv)
      (configStep eenv aenv menv state (.updateSettings user body)) cycles
  · rw [forall_prop_of_true hhears, hheard hhears]
    cases state.row with
    | none => simp
    | some row =>
      have hpushed : (row.updated user body).configVersion > state.agent.configVersion ↔
          state.PushedBy user body row := HostConfigOverride.lt_configVersion_updated
      by_cases hnewer : (row.updated user body).configVersion > state.agent.configVersion
      · simp [hnewer, hpushed.mp hnewer, Option.filter_some,
          HostConfigOverride.safeModeEnabled_updated]
      · simp [hnewer, mt hpushed.mpr hnewer, Option.filter_some]
  · exact iff_of_true (hunheard hhears) fun hhappens => absurd hhappens hhears

/-- An agent whose operator enabled the safe mode, before it is enrolled. -/
def cautiousAgent : ConfigState Unit :=
  { beforeEnrolment with
    agent := { beforeEnrolment.agent with
      config := { beforeEnrolment.agent.config with safeModeEnabled := true } } }

/-- The agent after its enrolment. -/
def cautiousEnrolled : ConfigState Unit :=
  Runs.run (configStep plainEnv quietEnv (ManagerEnv.scan markedDigest)) cautiousAgent
    [.approve caAdmin 0 ⟨3⟩ ⟨⟨4⟩, ⟨5⟩, ⟨6⟩⟩, .poll "poll" (some ("https://10.0.0.1:8443", none))]

/-- The agent keeps its safe mode at the enrolment and in a cycle. An admin sets another interval,
and the next cycle turns the safe mode off. -/
theorem interval_change_disables_safe_mode :
    (Runs.run (configCycle plainEnv quietEnv (ManagerEnv.scan markedDigest)) cautiousEnrolled
        [⟨goodNetwork, 100, quietInput⟩]).agent.config.safeModeEnabled = true ∧
      (Runs.run (configCycle plainEnv quietEnv (ManagerEnv.scan markedDigest))
        (configStep plainEnv quietEnv (ManagerEnv.scan markedDigest) cautiousEnrolled
          (setInterval 600))
        [⟨goodNetwork, 100, quietInput⟩]).agent.config.safeModeEnabled = false := by
  decide +kernel

end FirewallManager
