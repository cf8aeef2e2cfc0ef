import FirewallManager.Manager.AgentApi

/-!
# Isolation of hosts at the agent API

A request on the connection of one host should neither change a row of another host nor let the
answer depend on one. `hostRows` collects the rows of a host and `without` removes them, so the
second half is a two-run statement: two databases that agree without the other host give the
same answer.

Every endpoint filters by the host of the certificate except the result report, which updates a
pending action by the id in the request body. `agent_isolation_iff` says that this is the only
way across.
-/

namespace FirewallManager

/-- The rows that belong to one host. -/
structure HostRows where
  hosts : List Host
  memberships : List HostGroup
  assignments : List Assignment
  configOverrides : List HostConfigOverride
  pendingActions : List PendingAction
  checkIns : List AgentCheckIn
  driftSnapshots : List DriftSnapshot
  deriving DecidableEq

namespace Database

/-- The rows of a host. -/
def hostRows (db : Database) (host : Uuid) : HostRows where
  hosts := db.hosts.select fun row => decide (row.id = host)
  memberships := db.hostGroups.select fun row => decide (row.hostId = host)
  assignments := db.assignments.select fun row => decide (row.hostId = host)
  configOverrides := db.configOverrides.select fun row => decide (row.hostId = host)
  pendingActions := db.pendingActions.select fun row => decide (row.hostId = host)
  checkIns := db.checkIns.filter fun row => decide (row.hostId = host)
  driftSnapshots := db.driftSnapshots.filter fun row => decide (row.hostId = host)

variable {host other : Uuid}

theorem hostRows_recordCheckIn (db : Database) (now : Nat) (req : CheckInRequest)
    (hne : other ≠ host) :
    (db.recordCheckIn now host req).hostRows other = db.hostRows other := by
  have hhosts : (db.recordCheckIn now host req).hosts.select (fun row => decide (row.id = other)) =
      db.hosts.select fun row => decide (row.id = other) := by
    unfold recordCheckIn
    dsimp only
    refine (Table.select_update_eq_iff ?_).mpr fun row hrow hcond => ?_
    · intro row
      rfl
    have hother : row.id = other := of_decide_eq_true (Table.mem_select.mp hrow).2
    exact absurd (hother.symm.trans (of_decide_eq_true hcond)) hne
  have hcheckIns : (db.recordCheckIn now host req).checkIns.filter
      (fun row => decide (row.hostId = other)) =
      db.checkIns.filter fun row => decide (row.hostId = other) := by
    simp [recordCheckIn, List.filter_append, hne.symm]
  simp only [hostRows, hhosts, hcheckIns]
  rfl

theorem hostRows_recordDrift (db : Database) (now : Nat) (hash : String) (ruleCount : Nat)
    (source : String) (hne : other ≠ host) :
    (db.recordDrift now host hash ruleCount source).hostRows other = db.hostRows other := by
  have hdrift : (db.recordDrift now host hash ruleCount source).driftSnapshots.filter
      (fun row => decide (row.hostId = other)) =
      db.driftSnapshots.filter fun row => decide (row.hostId = other) := by
    unfold recordDrift
    split
    · simp [List.filter_append, hne.symm]
    · rfl
  simp only [hostRows, hdrift]
  rfl

theorem mem_dueActions {db : Database} {now : Nat} {action : PendingAction}
    (h : action ∈ db.dueActions now host) :
    action ∈ db.pendingActions.rows ∧ action.hostId = host := by
  simp only [dueActions, List.mem_insertionSort, List.mem_filter, Table.mem_select,
    decide_eq_true_eq] at h
  exact h.1

theorem hostRows_markDelivered (db logged : Database) (now : Nat)
    (hactions : logged.pendingActions = db.pendingActions) (hne : other ≠ host) :
    (logged.markDelivered now (db.dueActions now host)).hostRows other = logged.hostRows other := by
  have hpending : (logged.markDelivered now (db.dueActions now host)).pendingActions.select
      (fun row => decide (row.hostId = other)) =
      logged.pendingActions.select fun row => decide (row.hostId = other) := by
    unfold markDelivered
    dsimp only
    split
    · rfl
    · refine (Table.select_update_eq_iff ?_).mpr fun row hrow hcond => ?_
      · intro row
        rfl
      -- A delivered row is one of the calling host, and ids are unique.
      obtain ⟨hmem, hother⟩ := Table.mem_select.mp hrow
      obtain ⟨action, haction, hid⟩ := List.mem_map.mp (of_decide_eq_true hcond)
      obtain ⟨hin, hhost⟩ := mem_dueActions haction
      rw [hactions] at hmem
      obtain rfl := Table.eq_of_key_eq hin hmem hid
      exact absurd ((of_decide_eq_true hother).symm.trans hhost) hne
  simp only [hostRows, hpending]
  rfl

/-- The row already holds the result that a report writes. -/
def ResultRecorded (now : Nat) (success : Bool) (action : PendingAction) : Prop :=
  action.status = (if success then .executed else .failed) ∧ action.executedAt = some now

theorem hostRows_markResult_iff (db : Database) (now : Nat) (id : Uuid) (success : Bool)
    (other : Uuid) :
    (db.markResult now id success).hostRows other = db.hostRows other ↔
      ∀ action ∈ db.pendingActions.rows, action.id = id → action.hostId = other →
        ResultRecorded now success action := by
  have hiff : (db.markResult now id success).hostRows other = db.hostRows other ↔
      (db.markResult now id success).pendingActions.select (fun row => decide (row.hostId = other))
        = db.pendingActions.select fun row => decide (row.hostId = other) := by
    constructor
    · intro h
      exact congrArg HostRows.pendingActions h
    · intro h
      simp only [hostRows, h]
      rfl
  rw [hiff, markResult]
  dsimp only
  refine (Table.select_update_eq_iff ?_).trans ⟨?_, ?_⟩
  · intro action
    rfl
  · intro h action hmem hid hhost
    have hsame := h action (Table.mem_select.mpr ⟨hmem, decide_eq_true hhost⟩) (decide_eq_true hid)
    exact ⟨(congrArg PendingAction.status hsame).symm,
      (congrArg PendingAction.executedAt hsame).symm⟩
  · intro h action hrow hid
    obtain ⟨hmem, hhost⟩ := Table.mem_select.mp hrow
    obtain ⟨hstatus, hexecuted⟩ := h action hmem (of_decide_eq_true hid) (of_decide_eq_true hhost)
    rw [← hstatus, ← hexecuted]

theorem hostRows_checkIn (env : ManagerEnv) (now : Nat) (req : CheckInRequest) (db : Database)
    (hne : other ≠ host) :
    (checkIn env now host req db).2.hostRows other = db.hostRows other := by
  cases hknown : db.hosts.has host with
  | false => rw [checkIn_of_not_has hknown]
  | true =>
    have hreport (state : Database) (count : Nat) (source : String) :
        (state.recordDrift now host req.rulesHash count source).hostRows other =
          state.hostRows other :=
      hostRows_recordDrift state now req.rulesHash count source hne
    rw [checkIn_of_has hknown,
      hostRows_markDelivered db _ now (checkInLogged_frame env now host req db).2 hne]
    unfold checkInLogged
    split <;> split <;> simp only [hreport, hostRows_recordCheckIn db now req hne]

/-- What the agent API reads about a host is still there without another one. -/
theorem hostRows_without (db : Database) (hne : host ≠ other) :
    (db.without other).hostRows host = db.hostRows host := by
  have hkept {row : Uuid} (h : decide (row = host) = true) : decide (row = other) = false :=
    decide_eq_false fun hother => hne ((of_decide_eq_true h).symm.trans hother)
  have hlist {ρ : Type} (owner : ρ → Uuid) (rows : List ρ) :
      (rows.filter fun row => decide (owner row ≠ other)).filter
        (fun row => decide (owner row = host)) =
        rows.filter fun row => decide (owner row = host) := by
    rw [List.filter_filter]
    refine List.filter_congr fun row _ => ?_
    by_cases h : owner row = host
    · simp [h, hne]
    · simp [h]
  simp only [hostRows, without, hlist, Table.select_delete fun _ _ => hkept]

theorem checkInAnswer_without (env : ManagerEnv) (now : Nat) (req : CheckInRequest) (db : Database)
    (hne : host ≠ other) :
    checkInAnswer env now host req (db.without other) = checkInAnswer env now host req db := by
  have hrows := hostRows_without db hne
  have hset : (db.without other).assignedSet env host = db.assignedSet env host :=
    congrArg (fun rows : HostRows => env.firstRow (rows.assignments.map Assignment.policySetId))
      hrows
  have hconfig : (db.without other).newConfig host req.configVersion =
      db.newConfig host req.configVersion := by
    have hfind : (db.without other).configOverrides.find? host = db.configOverrides.find? host :=
      congrArg (fun rows : HostRows => rows.configOverrides.head?) hrows
    rw [newConfig, hfind, newConfig]
  have hdue : (db.without other).dueActions now host = db.dueActions now host := by
    have hselect := congrArg HostRows.pendingActions hrows
    simp only [hostRows] at hselect
    rw [dueActions, hselect, dueActions]
  simp only [checkInAnswer, hset, hconfig, hdue]
  rfl

theorem serveAgent_without (env : ManagerEnv) (now : Nat) (request : AgentRequest) (db : Database)
    (hne : host ≠ other) :
    (serveAgent env now host request (db.without other)).1 =
      (serveAgent env now host request db).1 := by
  have hrows := hostRows_without db hne
  cases request with
  | checkIn body =>
    have hhas : (db.without other).hosts.has host = db.hosts.has host :=
      congrArg (fun rows : HostRows => rows.hosts.head?.isSome) hrows
    cases hknown : db.hosts.has host with
    | false =>
      simp only [serveAgent, checkIn_of_not_has hknown,
        checkIn_of_not_has (hhas.trans hknown)]
    | true =>
      simp only [serveAgent, checkIn_of_has hknown, checkIn_of_has (hhas.trans hknown),
        checkInAnswer_without env now body db hne]
  | checkInResult body => rfl
  | policy =>
    have hset : (db.without other).assignedSet env host = db.assignedSet env host :=
      congrArg
        (fun rows : HostRows => env.firstRow (rows.assignments.map Assignment.policySetId)) hrows
    simp only [serveAgent, getPolicy, hset]
    rfl
  | events =>
    have hfind : (db.without other).configOverrides.find? host = db.configOverrides.find? host :=
      congrArg (fun rows : HostRows => rows.configOverrides.head?) hrows
    simp only [serveAgent, eventsHoldSecs, hfind]
  | whoami => rfl

end Database

/-- The request reports a result for a pending action of another host that does not hold that result
yet. -/
def ReportsForeignAction (now : Nat) (host : Uuid) (request : AgentRequest) (db : Database) :
    Prop :=
  ∃ body, request = .checkInResult body ∧ ∃ id ∈ body.actionId,
    ∃ action ∈ db.pendingActions.rows, action.id = id ∧ action.hostId ≠ host ∧
      ¬ Database.ResultRecorded now body.success action

theorem hostRows_checkInResult (now : Nat) {host other : Uuid} (body : CheckInResultRequest)
    (db : Database) (hne : other ≠ host) :
    (checkInResult now host body db).hostRows other =
      match body.actionId with
      | some id => (db.markResult now id body.success).hostRows other
      | none => db.hostRows other := by
  unfold checkInResult
  rw [Database.hostRows_recordDrift _ now body.newRulesHash 0 "agent_report" hne]
  cases body.actionId <;> rfl

/-- The rows of other hosts survive every request but a foreign report. -/
theorem hostRows_serveAgent_iff (env : ManagerEnv) (now : Nat) (host : Uuid)
    (request : AgentRequest) (db : Database) :
    (∀ other, other ≠ host →
        (serveAgent env now host request db).2.hostRows other = db.hostRows other) ↔
      ¬ ReportsForeignAction now host request db := by
  cases request with
  | checkIn body =>
    refine ⟨?_, fun _ other hne => Database.hostRows_checkIn env now body db hne⟩
    rintro - ⟨result, hrequest, -⟩
    cases hrequest
  | checkInResult body =>
    constructor
    · rintro h ⟨result, ⟨⟩, id, hid, action, hmem, haction, hforeign, hrecorded⟩
      have hsame := h action.hostId hforeign
      simp only [serveAgent] at hsame
      rw [hostRows_checkInResult now body db hforeign, Option.mem_def.mp hid] at hsame
      exact hrecorded ((Database.hostRows_markResult_iff db now id body.success _).mp hsame
        action hmem haction rfl)
    · intro h other hne
      simp only [serveAgent]
      rw [hostRows_checkInResult now body db hne]
      cases hid : body.actionId with
      | none => rfl
      | some id =>
        refine (Database.hostRows_markResult_iff db now id body.success other).mpr ?_
        intro action hmem haction hhost
        by_contra hrecorded
        exact h ⟨body, rfl, id, hid, action, hmem, haction, hhost ▸ hne, hrecorded⟩
  | policy => exact ⟨fun _ => nofun, fun _ _ _ => rfl⟩
  | events => exact ⟨fun _ => nofun, fun _ _ _ => rfl⟩
  | whoami => exact ⟨fun _ => nofun, fun _ _ _ => rfl⟩

/-- A request of one host changes no row of another host, and its answer depends on none,
exactly when it does not report a result for a pending action of another host. -/
theorem agent_isolation_iff (env : ManagerEnv) (now : Nat) (host : Uuid) (request : AgentRequest)
    (db : Database) :
    (∀ other, other ≠ host →
        (serveAgent env now host request db).2.hostRows other = db.hostRows other ∧
          ∀ db' : Database, db'.without other = db.without other →
            (serveAgent env now host request db').1 = (serveAgent env now host request db).1) ↔
      ¬ ReportsForeignAction now host request db := by
  rw [← hostRows_serveAgent_iff env now host request db]
  constructor
  · intro h other hne
    exact (h other hne).1
  · intro h other hne
    refine ⟨h other hne, fun db' hagree => ?_⟩
    -- The answer is that of the database without the other host, where the two agree.
    rw [← Database.serveAgent_without env now request db' hne.symm, hagree,
      Database.serveAgent_without env now request db hne.symm]

/-- Two hosts, the second with a queued rollback. -/
def twoHosts : Database :=
  { Database.empty with
    hosts := (Table.singleton ⟨⟨1⟩, none, .healthy, none⟩).insertNew ⟨⟨2⟩, none, .healthy, none⟩
    pendingActions := {
      rows := [⟨⟨7⟩, ⟨2⟩, .rollback, "", "", 0, .queued, 0, none, none, 3600⟩]
      nodup := by decide } }

/-- The first host reports the rollback of the second as executed, and the second one never
gets it: its next check-in has no pending action. -/
theorem foreign_report_consumes_action :
    (serveAgent (.scan id) 10 ⟨1⟩ (.checkInResult ⟨⟨1⟩, some ⟨7⟩, true, none, ""⟩)
        twoHosts).2.hostRows ⟨2⟩ ≠ twoHosts.hostRows ⟨2⟩ ∧
      twoHosts.dueActions 10 ⟨2⟩ ≠ [] ∧
      (serveAgent (.scan id) 10 ⟨1⟩ (.checkInResult ⟨⟨1⟩, some ⟨7⟩, true, none, ""⟩)
        twoHosts).2.dueActions 10 ⟨2⟩ = [] := by
  decide

end FirewallManager
