import FirewallManager.System.ConfigVersion

/-!
# Settings updates and approvals at the same time

A settings update stores the polling section and then gives the interval to the hosts that have a
row in `host_config_overrides`. An approval inserts the host, reads the stored interval and inserts
the row of the host. These are single statements, and the calls of several requests interleave.

`intervalStep` is one statement of one call. `IntervalState.Ordered` is what the statements of
different calls have to respect: the stores and pushes of two updates do not cross, a stored section
has an interval, and no push comes between the read and the insertion of an approval that has read
another interval. Then all rows end on the stored interval (`intervals_current`).
`approval_misses_update` is a run that does not respect it.
-/

namespace FirewallManager

open List

/-! ## The statements -/

/-- The statements of a settings update that change something. -/
inductive SettingsStatement where
  | set (key : String) (value : Json)
  | push (interval : Int)

/-- The tables after a statement. -/
def SettingsStatement.perform :
    SettingsStatement → Table SettingRow.key × Table HostConfigOverride.hostId →
      Table SettingRow.key × Table HostConfigOverride.hostId
  | .set key value, (config, overrides) => (setConfig config key value, overrides)
  | .push interval, (config, overrides) => (config, pushInterval overrides interval)

/-- The statement that stores a section, if there is one. -/
def storeSection (key : String) (value : Option Json) : List SettingsStatement :=
  (value.map (SettingsStatement.set key)).toList

/-- The statements of `update_settings`, in the order of the source. -/
def UpdateSettingsRequest.statements (body : UpdateSettingsRequest) : List SettingsStatement :=
  storeSection "ip_whitelist" (body.ipWhitelist.map Json.ofStrings) ++
    storeSection "settings_oidc" body.oidc ++ storeSection "settings_smtp" body.smtp ++
    storeSection "settings_polling" body.polling ++
    ((body.polling.bind pollingInterval).map SettingsStatement.push).toList ++
    storeSection "settings_web_tls_strategy" (body.webTlsStrategy.map Json.str) ++
    storeSection "settings_notification" body.notification

theorem foldl_store (key : String) (value : Option Json)
    (tables : Table SettingRow.key × Table HostConfigOverride.hostId) :
    (storeSection key value).foldl (fun tables s => s.perform tables) tables =
      (setConfig? tables.1 key value, tables.2) := by
  cases value with
  | none => rfl
  | some value => rfl

theorem updateSettings_eq_statements (auth : AuthUser) (hadmin : auth.role.isAdmin = true)
    (body : UpdateSettingsRequest) (settings : Settings) :
    body.statements.foldl (fun tables s => s.perform tables)
        (settings.config, settings.overrides) =
      ((updateSettings auth body settings).2.config,
        (updateSettings auth body settings).2.overrides) := by
  unfold UpdateSettingsRequest.statements updateSettings
  rw [if_neg (by simp [hadmin])]
  simp only [foldl_append, foldl_store]
  cases body.polling.bind pollingInterval with
  | none => rfl
  | some interval => rfl

/-- Insert the host of a request. -/
def PkiDatabase.insertHost (db : PkiDatabase) (req : EnrollmentRequest) (host : Uuid) :
    Option PkiDatabase :=
  match db.base.hosts.insert? ⟨host, none, .pending, none⟩,
      db.hostNames.insert? ⟨host, req.fqdn, req.ipAddress⟩ with
  | some hosts, some hostNames =>
    some { db with base := { db.base with hosts := hosts }, hostNames := hostNames }
  | _, _ => none

/-- Insert the settings of a host, unless it has some. -/
def PkiDatabase.insertOverride (db : PkiDatabase) (host : Uuid) (interval : Int) : PkiDatabase :=
  { db with
    base := { db.base with
      configOverrides := db.base.configOverrides.insertNew
        ⟨host, interval, true, false, none, 1⟩ } }

theorem registerHost_eq_insert (db : PkiDatabase) (req : EnrollmentRequest) (host : Uuid)
    (interval : Int) :
    db.registerHost req host interval =
      (db.insertHost req host).map fun db => db.insertOverride host interval := by
  unfold PkiDatabase.registerHost PkiDatabase.insertHost
  cases db.base.hosts.insert? ⟨host, none, .pending, none⟩ with
  | none => rfl
  | some hosts =>
    cases db.hostNames.insert? ⟨host, req.fqdn, req.ipAddress⟩ with
    | none => rfl
    | some hostNames => rfl

/-- How far an approval has come. Between the insertion of the host and the one of its settings it
reads the interval. -/
inductive ApprovalPhase where
  | other (phase : ApprovePhase)
  | inserted (row : PendingEnrollment) (host : Uuid)
  | read (row : PendingEnrollment) (host : Uuid) (interval : Int)
  deriving DecidableEq, Repr

/-- What an approval answers once it is over. -/
def ApprovalPhase.result : ApprovalPhase → Option (Except EnrollmentError Unit)
  | .other phase => phase.result
  | _ => none

/-- A call of `approve_enrollment`. -/
structure ApprovalCall where
  user : AuthUser
  requestId : Uuid
  phase : ApprovalPhase
  deriving DecidableEq, Repr

/-- The next statement of an approval. -/
def approvalNext (env : EnrollEnv) (now : Nat) (draws : ApprovalDraws)
    (config : Table SettingRow.key) (call : ApprovalCall) (store : EnrollStore)
    (approved : Table ApprovedEntry.pollingHash) :
    ApprovalPhase × EnrollStore × Table ApprovedEntry.pollingHash :=
  match call.phase with
  | .other (.free row) =>
    if store.pki.collides row.toEnrollmentRequest then
      (.other (.failed (.app (.database "hosts_fqdn_ip_unique"))), store, approved)
    else
      match store.pki.insertHost row.toEnrollmentRequest draws.host with
      | none => (.other (.failed (.app (.database "hosts_pkey"))), store, approved)
      | some pki => (.inserted row draws.host, { store with pki := pki }, approved)
  | .inserted row host => (.read row host (globalCheckInInterval config), store, approved)
  | .read row host interval =>
    (.other (.registered row host interval),
      { store with pki := store.pki.insertOverride host interval }, approved)
  | .other phase =>
    let next := approveNext env now draws (globalCheckInInterval config)
      ⟨call.user, call.requestId, phase⟩ store approved
    (.other next.1, next.2)

section Free

variable (env : EnrollEnv) (now : Nat) (draws : ApprovalDraws) (config : Table SettingRow.key)
  (user : AuthUser) (id : Uuid) {row : PendingEnrollment} {store : EnrollStore}
  (approved : Table ApprovedEntry.pollingHash)

theorem approvalNext_free_failed (h : store.pki.collides row.toEnrollmentRequest = true ∨
      store.pki.insertHost row.toEnrollmentRequest draws.host = none) :
    approvalNext env now draws config ⟨user, id, .other (.free row)⟩ store approved =
      let whole := approveNext env now draws (globalCheckInInterval config) ⟨user, id, .free row⟩
        store approved
      (.other whole.1, whole.2) := by
  unfold approvalNext approveNext
  dsimp only
  by_cases hcollides : store.pki.collides row.toEnrollmentRequest = true
  · rw [if_pos hcollides, if_pos hcollides]
  · have hnone := h.resolve_left hcollides
    rw [if_neg hcollides, if_neg hcollides, registerHost_eq_insert, hnone]
    rfl

/-- The insertion of a host, the read of the interval and the insertion of the settings are one step
of the coarser model if no other call comes between them. -/
theorem approvalNext_free {pki : PkiDatabase}
    (hfree : store.pki.collides row.toEnrollmentRequest = false)
    (hinsert : store.pki.insertHost row.toEnrollmentRequest draws.host = some pki) :
    let next := fun s : ApprovalPhase × EnrollStore × Table ApprovedEntry.pollingHash =>
      approvalNext env now draws config ⟨user, id, s.1⟩ s.2.1 s.2.2
    let whole := approveNext env now draws (globalCheckInInterval config) ⟨user, id, .free row⟩
      store approved
    next (next (next (.other (.free row), store, approved))) = (.other whole.1, whole.2) := by
  have hfirst : approvalNext env now draws config ⟨user, id, .other (.free row)⟩ store approved =
      (.inserted row draws.host, { store with pki := pki }, approved) := by
    unfold approvalNext
    dsimp only
    rw [if_neg (by simp [hfree]), hinsert]
  have hwhole : approveNext env now draws (globalCheckInInterval config) ⟨user, id, .free row⟩
      store approved = (.registered row draws.host (globalCheckInInterval config),
        { store with pki := pki.insertOverride draws.host (globalCheckInInterval config) },
        approved) := by
    unfold approveNext
    dsimp only
    rw [if_neg (by simp [hfree]), registerHost_eq_insert, hinsert]
    rfl
  dsimp only
  rw [hfirst, hwhole]
  rfl

end Free

/-! ## Interleavings -/

/-- The manager and the calls that were made. Of a settings update the statements are kept that are
still to come. -/
structure IntervalState where
  config : Table SettingRow.key
  store : EnrollStore
  approved : Table ApprovedEntry.pollingHash
  updates : List (List SettingsStatement)
  approvals : List ApprovalCall

namespace IntervalState

/-- The settings of the hosts. -/
def overrides (state : IntervalState) : Table HostConfigOverride.hostId :=
  state.store.pki.base.configOverrides

/-- The state with other settings of the hosts. -/
def withOverrides (state : IntervalState) (overrides : Table HostConfigOverride.hostId) :
    IntervalState :=
  { state with
    store := { state.store with
      pki := { state.store.pki with
        base := { state.store.pki.base with configOverrides := overrides } } } }

/-- Every call is over. -/
def Completed (state : IntervalState) : Prop :=
  (∀ statements ∈ state.updates, statements = []) ∧
    ∀ call ∈ state.approvals, call.phase.result.isSome = true

/-- Every host has the stored interval. -/
def Current (state : IntervalState) : Prop :=
  ∀ row ∈ state.overrides.rows, row.checkInIntervalSecs = globalCheckInInterval state.config

instance (state : IntervalState) : Decidable state.Completed :=
  inferInstanceAs (Decidable (_ ∧ _))

instance (state : IntervalState) : Decidable state.Current :=
  inferInstanceAs (Decidable (∀ row ∈ _, _))

end IntervalState

/-- A call starts, or goes on with its next statement. -/
inductive IntervalOp where
  | update (user : AuthUser) (body : UpdateSettingsRequest)
  | updateNext (call : Nat)
  | approve (user : AuthUser) (id : Uuid)
  | approveNext (call now : Nat) (draws : ApprovalDraws)

section Steps

variable (env : EnrollEnv)

/-- The state after a call has started or gone on. -/
def intervalStep (state : IntervalState) : IntervalOp → IntervalState
  | .update user body =>
    { state with
      updates := state.updates ++ [if user.role.isAdmin then body.statements else []] }
  | .updateNext i =>
    match state.updates[i]? with
    | some (statement :: rest) =>
      let next := statement.perform (state.config, state.overrides)
      { state.withOverrides next.2 with
        config := next.1
        updates := state.updates.set i rest }
    | _ => state
  | .approve user id =>
    { state with
      approvals := state.approvals ++ [⟨user, id, .other (approveStart user id state.store)⟩] }
  | .approveNext i now draws =>
    match state.approvals[i]? with
    | none => state
    | some call =>
      let next := approvalNext env now draws state.config call state.store state.approved
      { state with
        store := next.2.1
        approved := next.2.2
        approvals := state.approvals.set i ⟨call.user, call.requestId, next.1⟩ }

end Steps

/-! ## The order of the statements -/

/-- The interval that an update has stored and gives to the hosts next. -/
def pushDue : List SettingsStatement → Option Int
  | .push interval :: _ => some interval
  | _ => none

/-- The interval that an approval has read and inserts next. -/
def ApprovalPhase.interval? : ApprovalPhase → Option Int
  | .read _ _ interval => some interval
  | _ => none

/-- The condition on the next statement. A polling section is stored only if it has an interval and
no other update is between its store and its push. A push to the hosts comes only when every
approval between its read and its insertion has read the pushed interval. -/
def IntervalState.Ordered (state : IntervalState) : IntervalOp → Prop
  | .updateNext i =>
    match state.updates[i]? with
    | some (.set key value :: _) => key = "settings_polling" →
        (pollingInterval value).isSome = true ∧ ∀ update ∈ state.updates, pushDue update = none
    | some (.push interval :: _) =>
        ∀ call ∈ state.approvals, ∀ read ∈ call.phase.interval?, read = interval
    | _ => True
  | _ => True

/-- A push follows exactly where a polling section with an interval is stored, and it has that
interval. -/
def PushesStored : List SettingsStatement → Prop
  | [] => True
  | .set key value :: rest =>
    pushDue rest = (if key = "settings_polling" then pollingInterval value else none) ∧
      PushesStored rest
  | .push _ :: rest => pushDue rest = none ∧ PushesStored rest

theorem pushesStored_store (key : String) (hkey : key ≠ "settings_polling") (value : Option Json)
    {rest : List SettingsStatement} (h : pushDue rest = none ∧ PushesStored rest) :
    pushDue (storeSection key value ++ rest) = none ∧
      PushesStored (storeSection key value ++ rest) := by
  cases value with
  | none => exact h
  | some value =>
    refine ⟨rfl, ?_, h.2⟩
    rw [if_neg hkey]
    exact h.1

theorem pushesStored_polling (polling : Option Json) {rest : List SettingsStatement}
    (h : pushDue rest = none ∧ PushesStored rest) :
    let statements := storeSection "settings_polling" polling ++
      (((polling.bind pollingInterval).map SettingsStatement.push).toList ++ rest)
    pushDue statements = none ∧ PushesStored statements := by
  cases polling with
  | none => exact h
  | some value =>
    refine ⟨rfl, ?_⟩
    show pushDue (((pollingInterval value).map SettingsStatement.push).toList ++ rest) =
        (if "settings_polling" = "settings_polling" then pollingInterval value else none) ∧
      PushesStored (((pollingInterval value).map SettingsStatement.push).toList ++ rest)
    rw [if_pos rfl]
    cases pollingInterval value with
    | none => exact h
    | some interval => exact ⟨rfl, h⟩

/-- The statements of a settings update are of this form. -/
theorem pushesStored_statements (body : UpdateSettingsRequest) :
    pushDue body.statements = none ∧ PushesStored body.statements := by
  have hend : pushDue [] = none ∧ PushesStored [] := ⟨rfl, trivial⟩
  have hnotification :=
    pushesStored_store "settings_notification" (by decide) body.notification hend
  have htls := pushesStored_store "settings_web_tls_strategy" (by decide)
    (body.webTlsStrategy.map Json.str) hnotification
  have hpolling := pushesStored_polling body.polling htls
  have hsmtp := pushesStored_store "settings_smtp" (by decide) body.smtp hpolling
  have hoidc := pushesStored_store "settings_oidc" (by decide) body.oidc hsmtp
  have hlist := pushesStored_store "ip_whitelist" (by decide)
    (body.ipWhitelist.map Json.ofStrings) hoidc
  simpa only [UpdateSettingsRequest.statements, append_assoc, append_nil] using hlist

/-! ## What a statement does -/

/-- Every host has the interval. -/
def AllAt (interval : Int) (overrides : Table HostConfigOverride.hostId) : Prop :=
  ∀ row ∈ overrides.rows, row.checkInIntervalSecs = interval

theorem allAt_pushInterval (overrides : Table HostConfigOverride.hostId) (interval : Int) :
    AllAt interval (pushInterval overrides interval) := by
  intro row hrow
  obtain ⟨old, -, rfl⟩ := mem_map.mp hrow
  by_cases hchanged : old.checkInIntervalSecs = interval
  · rw [if_neg (by simp [hchanged])]
    exact hchanged
  · rw [if_pos (decide_eq_true hchanged)]

theorem AllAt.insertNew {interval : Int} {overrides : Table HostConfigOverride.hostId}
    (h : AllAt interval overrides) (host : Uuid) :
    AllAt interval (overrides.insertNew ⟨host, interval, true, false, none, 1⟩) := by
  intro row hrow
  rcases Table.mem_insertNew.mp hrow with hold | ⟨-, rfl⟩
  · exact h row hold
  · rfl

/-- The stored interval after a section was stored. -/
theorem globalCheckInInterval_setConfig (config : Table SettingRow.key) (key : String)
    (value : Json) :
    globalCheckInInterval (setConfig config key value) =
      if key = "settings_polling" then (pollingInterval value).getD 900
      else globalCheckInInterval config := by
  unfold globalCheckInInterval getConfigJson setConfig
  rw [Table.find?_upsert]
  by_cases hkey : key = "settings_polling"
  · rw [if_pos hkey, if_pos hkey]
    cases config.find? "settings_polling" <;> rfl
  · rw [if_neg hkey, if_neg hkey]

section Effect

variable {env : EnrollEnv}

theorem overrides_approvalNext (now : Nat) (draws : ApprovalDraws) (config : Table SettingRow.key)
    {call : ApprovalCall} (h : ∀ row host interval, call.phase ≠ .read row host interval)
    (store : EnrollStore) (approved : Table ApprovedEntry.pollingHash) :
    (approvalNext env now draws config call store approved).2.1.pki.base.configOverrides =
      store.pki.base.configOverrides := by
  unfold approvalNext
  split
  next row hphase =>
    split
    · rfl
    · unfold PkiDatabase.insertHost
      split
      next hnone => rfl
      next pki hinsert =>
        split at hinsert
        · cases hinsert
          rfl
        · cases hinsert
  next => rfl
  next row host interval hphase => exact absurd hphase (h row host interval)
  next phase hfree hphase =>
    unfold approveNext
    split
    · split
      · rfl
      · rfl
    next row hrow => exact absurd hrow (hfree row)
    · dsimp only
      unfold approveSign
      split
      · rfl
      · split
        · rfl
        · split
          · rfl
          next pki hinsert =>
            exact congrArg Database.configOverrides
              (PkiDatabase.insertCertificate_tables hinsert).2.1
    · rfl
    · rfl
    · rfl
    · rfl

/-- Only the read of the interval brings an approval to its insertion. -/
theorem interval_approvalNext (now : Nat) (draws : ApprovalDraws) (config : Table SettingRow.key)
    (call : ApprovalCall) (store : EnrollStore) (approved : Table ApprovedEntry.pollingHash)
    {read : Int}
    (h : (approvalNext env now draws config call store approved).1.interval? = some read) :
    read = globalCheckInInterval config := by
  unfold approvalNext at h
  split at h
  next row hphase =>
    split at h
    · cases h
    · split at h <;> cases h
  next => exact (Option.some.inj h).symm
  next => cases h
  next => cases h

end Effect

/-! ## Runs -/

/-- What a run in order keeps. An update that is about to push has stored what it pushes. If there
is none, every host has the stored interval and every approval that has read it will insert it. -/
structure IntervalState.Consistent (state : IntervalState) : Prop where
  pushes : ∀ update ∈ state.updates, PushesStored update
  due : ∀ update ∈ state.updates, ∀ interval, pushDue update = some interval →
    interval = globalCheckInInterval state.config
  settled : (∀ update ∈ state.updates, pushDue update = none) → state.Current ∧
    ∀ call ∈ state.approvals, ∀ read, call.phase.interval? = some read →
      read = globalCheckInInterval state.config

namespace IntervalState.Consistent

variable {env : EnrollEnv} {state : IntervalState}

theorem update (h : state.Consistent) (user : AuthUser) (body : UpdateSettingsRequest) :
    (intervalStep env state (.update user body)).Consistent := by
  have hnew : pushDue (if user.role.isAdmin then body.statements else []) = none ∧
      PushesStored (if user.role.isAdmin then body.statements else []) := by
    split
    · exact pushesStored_statements body
    · exact ⟨rfl, trivial⟩
  refine ⟨?_, ?_, ?_⟩
  · intro update hupdate
    rcases mem_append.mp hupdate with hold | hlast
    · exact h.pushes update hold
    · rw [mem_singleton.mp hlast]
      exact hnew.2
  · intro update hupdate interval hdue
    rcases mem_append.mp hupdate with hold | hlast
    · exact h.due update hold interval hdue
    · rw [mem_singleton.mp hlast, hnew.1] at hdue
      cases hdue
  · intro hnone
    exact h.settled fun update hupdate => hnone update (mem_append_left _ hupdate)

theorem pushes_set (h : state.Consistent) {i : Nat} {rest : List SettingsStatement}
    (hrest : PushesStored rest) : ∀ update ∈ state.updates.set i rest, PushesStored update := by
  intro update hupdate
  rcases mem_or_eq_of_mem_set hupdate with hold | rfl
  · exact h.pushes update hold
  · exact hrest

/-- An update that has nothing to push next leaves the pushes of the others. -/
theorem due_set (h : state.Consistent) {i : Nat} {rest : List SettingsStatement}
    (hdue : pushDue rest = none) : ∀ update ∈ state.updates.set i rest, ∀ interval,
      pushDue update = some interval → interval = globalCheckInInterval state.config := by
  intro update hupdate interval hpush
  rcases mem_or_eq_of_mem_set hupdate with hold | rfl
  · exact h.due update hold interval hpush
  · rw [hdue] at hpush
    cases hpush

/-- The store of a section. A polling section makes a push due. -/
theorem set (h : state.Consistent) {i : Nat} {key : String} {value : Json}
    {rest : List SettingsStatement} (hcall : state.updates[i]? = some (.set key value :: rest))
    (hordered : state.Ordered (.updateNext i)) :
    (intervalStep env state (.updateNext i)).Consistent := by
  have hmem := mem_of_getElem? hcall
  obtain ⟨hdue, hrest⟩ := h.pushes _ hmem
  unfold IntervalState.Ordered at hordered
  unfold intervalStep
  dsimp only at hordered ⊢
  rw [hcall] at hordered ⊢
  dsimp only at hordered ⊢
  have hstored := globalCheckInInterval_setConfig state.config key value
  refine ⟨h.pushes_set hrest, ?_, ?_⟩
  · intro update hupdate interval hpush
    show interval = globalCheckInInterval (setConfig state.config key value)
    rw [hstored]
    by_cases hkey : key = "settings_polling"
    · rw [if_pos hkey] at hdue ⊢
      rcases mem_or_eq_of_mem_set hupdate with hold | rfl
      · rw [(hordered hkey).2 update hold] at hpush
        cases hpush
      · rw [← hdue, hpush]
        rfl
    · rw [if_neg hkey] at hdue ⊢
      exact h.due_set hdue update hupdate interval hpush
  · intro hnone
    have hnow : pushDue rest = none :=
      hnone rest (mem_set (List.getElem?_eq_some_iff.mp hcall).1 rest)
    have hkey : key ≠ "settings_polling" := by
      intro hkey
      have hsome := (hordered hkey).1
      rw [if_pos hkey] at hdue
      rw [← hdue, hnow] at hsome
      cases hsome
    rw [if_neg hkey] at hstored
    have hbefore := h.settled (Calls.forall_mem_of_put hcall rfl hnone)
    unfold IntervalState.Current at hbefore ⊢
    rw [← hstored] at hbefore
    exact hbefore

/-- The push of a stored interval brings all hosts to it. -/
theorem push (h : state.Consistent) {i : Nat} {interval : Int} {rest : List SettingsStatement}
    (hcall : state.updates[i]? = some (.push interval :: rest))
    (hordered : state.Ordered (.updateNext i)) :
    (intervalStep env state (.updateNext i)).Consistent := by
  have hmem := mem_of_getElem? hcall
  obtain ⟨hdue, hrest⟩ := h.pushes _ hmem
  have hstored : interval = globalCheckInInterval state.config := h.due _ hmem interval rfl
  unfold IntervalState.Ordered at hordered
  unfold intervalStep
  dsimp only at hordered ⊢
  rw [hcall] at hordered ⊢
  dsimp only at hordered ⊢
  refine ⟨h.pushes_set hrest, h.due_set hdue, fun _ => ⟨?_, ?_⟩⟩
  · show AllAt (globalCheckInInterval state.config) (pushInterval state.overrides interval)
    rw [← hstored]
    exact allAt_pushInterval state.overrides interval
  · intro call hread read hphase
    exact (hordered call hread read hphase).trans hstored

theorem updateNext (h : state.Consistent) {i : Nat} (hordered : state.Ordered (.updateNext i)) :
    (intervalStep env state (.updateNext i)).Consistent := by
  cases hcall : state.updates[i]? with
  | none =>
    unfold intervalStep
    dsimp only
    rw [hcall]
    exact h
  | some statements =>
    cases statements with
    | nil =>
      unfold intervalStep
      dsimp only
      rw [hcall]
      exact h
    | cons statement rest =>
      cases statement with
      | set key value => exact h.set hcall hordered
      | push interval => exact h.push hcall hordered

theorem approve (h : state.Consistent) (user : AuthUser) (id : Uuid) :
    (intervalStep env state (.approve user id)).Consistent := by
  refine ⟨h.pushes, h.due, ?_⟩
  intro hnone
  obtain ⟨hcurrent, hread⟩ := h.settled hnone
  refine ⟨hcurrent, ?_⟩
  intro call hcall read hphase
  rcases mem_append.mp hcall with hold | hlast
  · exact hread call hold read hphase
  · rw [mem_singleton.mp hlast] at hphase
    cases hphase

theorem approveNext (h : state.Consistent) (i now : Nat) (draws : ApprovalDraws) :
    (intervalStep env state (.approveNext i now draws)).Consistent := by
  unfold intervalStep
  dsimp only
  cases hcall : state.approvals[i]? with
  | none => exact h
  | some call =>
    refine ⟨h.pushes, h.due, ?_⟩
    intro hnone
    obtain ⟨hcurrent, hread⟩ := h.settled hnone
    refine ⟨?_, ?_⟩
    · show AllAt (globalCheckInInterval state.config) (FirewallManager.approvalNext env now draws
        state.config call state.store state.approved).2.1.pki.base.configOverrides
      cases hphase : call.phase with
      | read row host interval =>
        have hinterval := hread call (mem_of_getElem? hcall) interval (by rw [hphase]; rfl)
        have hnext : (approvalNext env now draws state.config call state.store
            state.approved).2.1.pki.base.configOverrides =
              state.overrides.insertNew ⟨host, interval, true, false, none, 1⟩ := by
          unfold approvalNext
          rw [hphase]
          rfl
        rw [hnext, hinterval]
        exact AllAt.insertNew hcurrent host
      | inserted row host =>
        rw [overrides_approvalNext now draws state.config (by simp [hphase])]
        exact hcurrent
      | other phase =>
        rw [overrides_approvalNext now draws state.config (by simp [hphase])]
        exact hcurrent
    · intro other hother read hphase
      rcases mem_or_eq_of_mem_set hother with hold | rfl
      · exact hread other hold read hphase
      · exact interval_approvalNext now draws state.config call state.store state.approved hphase

theorem step (h : state.Consistent) (op : IntervalOp) (hordered : state.Ordered op) :
    (intervalStep env state op).Consistent := by
  cases op with
  | update user body => exact h.update user body
  | updateNext i => exact h.updateNext hordered
  | approve user id => exact h.approve user id
  | approveNext i now draws => exact h.approveNext i now draws

end IntervalState.Consistent

/-- **No host is left on a stale interval** by settings updates and approvals whose statements come
in order: once all calls have completed, every host has the stored interval. -/
theorem intervals_current (env : EnrollEnv) (start : IntervalState)
    (hidle : start.updates = [] ∧ start.approvals = []) (hcurrent : start.Current)
    (ops : List IntervalOp)
    (hordered : Runs.Meets (intervalStep env) IntervalState.Ordered start ops)
    (hcompleted : (Runs.run (intervalStep env) start ops).Completed) :
    (Runs.run (intervalStep env) start ops).Current := by
  have hstart : start.Consistent := by
    refine ⟨?_, ?_, fun _ => ⟨hcurrent, ?_⟩⟩
    · rw [hidle.1]
      exact fun _ hnil => by cases hnil
    · rw [hidle.1]
      exact fun _ hnil => by cases hnil
    · rw [hidle.2]
      exact fun _ hnil => by cases hnil
  have hend : (Runs.run (intervalStep env) start ops).Consistent :=
    Runs.run_invariant_end (fun _ op h hop => h.step op hop) hstart hordered
  refine (hend.settled ?_).1
  intro update hupdate
  rw [hcompleted.1 update hupdate]
  rfl

/-- A manager with a request of the host `web`, and no calls. -/
def waitingWeb : IntervalState where
  config := .empty
  store := { oneToken with
    requests := .singleton ⟨⟨⟨3⟩, "web", "10.0.0.1", some "csr"⟩, "web-10.0.0.1",
      plainEnv.hashToken "poll", 0, 86400⟩ }
  approved := .empty
  updates := []
  approvals := []

/-- An update of the interval to a minute. -/
def minuteUpdate : UpdateSettingsRequest :=
  ⟨none, none, some (.obj [("check_in_interval_secs", .int 60)]), none, none, none⟩

/-- The next statement of the approval. -/
def approvalStep : IntervalOp :=
  .approveNext 0 0 ⟨⟨4⟩, ⟨5⟩, ⟨6⟩⟩

/-- An approval reads the default interval and inserts it after an update has stored another one and
before it is given to all hosts. -/
def insertThenPush : List IntervalOp :=
  [.approve caAdmin ⟨3⟩, approvalStep, approvalStep, approvalStep, .update caAdmin minuteUpdate,
    .updateNext 0, approvalStep, .updateNext 0, approvalStep, approvalStep, approvalStep]

/-- The new host ends on the new interval. -/
theorem approval_catches_update :
    (Runs.run (intervalStep plainEnv) waitingWeb insertThenPush).overrides.rows.map
        HostConfigOverride.checkInIntervalSecs = [60] ∧
      (Runs.run (intervalStep plainEnv) waitingWeb insertThenPush).Current := by
  refine ⟨by decide +kernel, intervals_current plainEnv waitingWeb ⟨rfl, rfl⟩ (by decide) _ ?_
    (by decide +kernel)⟩
  refine ⟨trivial, trivial, trivial, trivial, trivial, ?_, trivial, ?_, trivial, trivial, trivial,
    trivial⟩
  · exact fun _ => ⟨rfl, by decide +kernel⟩
  · show ∀ call ∈ (Runs.run (intervalStep plainEnv) waitingWeb
      (insertThenPush.take 7)).approvals, ∀ read ∈ call.phase.interval?, read = 60
    decide +kernel

/-- The same calls, but the approval inserts the row of its host only after the push. -/
def pushThenInsert : List IntervalOp :=
  [.approve caAdmin ⟨3⟩, approvalStep, approvalStep, approvalStep, .update caAdmin minuteUpdate,
    .updateNext 0, .updateNext 0, approvalStep, approvalStep, approvalStep, approvalStep]

/-- All calls complete, and the new host stays on the old interval. -/
theorem approval_misses_update :
    (Runs.run (intervalStep plainEnv) waitingWeb pushThenInsert).Completed ∧
      ¬ (Runs.run (intervalStep plainEnv) waitingWeb pushThenInsert).Current := by
  decide +kernel

end FirewallManager
