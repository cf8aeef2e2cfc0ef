import FirewallManager.System.ConfigVersion

/-!
# The stale agent detector

A pass of the detector reads all hosts that are not unreachable with their last check-in and their
interval, takes the time, and then updates the hosts one by one. Check-ins and settings updates come
in between. A check-in is recorded before the health of its host is updated.

`LateAt` says that a status of degraded or unreachable is deserved. `DetectorState.Inv` is what a
run keeps if nothing changes under a pass what the pass has read (`Undisturbed`), and it makes every
completed pass fair (`detector_fair`). `live_host_buried` has two runs with passes that are not.
-/

namespace FirewallManager

open List

/-! ## Statements -/

/-- A host as a pass has read it. -/
structure StaleHostRow where
  id : Uuid
  lastCheckIn : Option Nat
  checkInIntervalSecs : Option Int
  deriving DecidableEq, Repr

namespace Database

/-- The time of the last check-in of a host. -/
def lastCheckIn (db : Database) (host : Uuid) : Option Nat :=
  ((db.checkIns.filter fun row => decide (row.hostId = host)).map AgentCheckIn.checkedInAt).max?

/-- The interval in the row of a host. -/
def checkInInterval? (db : Database) (host : Uuid) : Option Int :=
  (db.configOverrides.find? host).map HostConfigOverride.checkInIntervalSecs

/-- The query of the detector. -/
def staleHosts (db : Database) : List StaleHostRow :=
  (db.hosts.rows.filter fun row =>
      decide (row.healthStatus ≠ .unreachable ∨ row.lastHealthAt = none)).map fun row =>
    ⟨row.id, db.lastCheckIn row.id, db.checkInInterval? row.id⟩

/-- The update of the detector. -/
def setHealth (db : Database) (host : Uuid) (status : HostHealthStatus) : Database :=
  { db with
    hosts := db.hosts.update (fun row => decide (row.id = host ∧ row.healthStatus ≠ status))
      (fun row => { row with healthStatus := status }) fun _ => rfl }

/-- The first statement of a check-in. -/
def insertCheckIn (db : Database) (now : Nat) (host : Uuid) (req : CheckInRequest) : Database :=
  { db with
    checkIns := db.checkIns ++ [{
      hostId := host
      rulesHash := req.rulesHash
      agentVersion := req.agentVersion
      backendType := req.backendType
      osInfo := req.osInfo
      uptimeSeconds := req.uptimeSeconds
      configVersion := req.configVersion
      checkedInAt := now }] }

theorem markHealthy_id (now : Nat) (req : CheckInRequest) (row : Host) :
    { row with
      healthStatus := .healthy, lastHealthAt := some now,
      agentVersion := some req.agentVersion : Host }.id = row.id :=
  rfl

/-- The second statement of a check-in. -/
def markHealthy (db : Database) (now : Nat) (host : Uuid) (req : CheckInRequest) : Database :=
  { db with
    hosts := db.hosts.update (fun row => decide (row.id = host))
      (fun row => { row with
        healthStatus := .healthy, lastHealthAt := some now,
        agentVersion := some req.agentVersion })
      (markHealthy_id now req) }

theorem recordCheckIn_eq (db : Database) (now : Nat) (host : Uuid) (req : CheckInRequest) :
    db.recordCheckIn now host req = (db.insertCheckIn now host req).markHealthy now host req :=
  rfl

end Database

/-- The status that a pass finds for a host. -/
def StaleHostRow.status (row : StaleHostRow) (now : Nat) : HostHealthStatus :=
  staleStatus row.checkInIntervalSecs (row.lastCheckIn.map fun last : Nat => (now : Int) - last)

/-! ## Interleavings -/

/-- How far the detector has come. A pass that has no more hosts to update is completed. -/
inductive PassPhase where
  | idle
  | read (rows : List StaleHostRow)
  | judging (now : Nat) (rows : List StaleHostRow)
  deriving DecidableEq, Repr

namespace PassPhase

/-- The hosts that are still to be updated. -/
def rows : PassPhase → List StaleHostRow
  | idle => []
  | read rows => rows
  | judging _ rows => rows

/-- The host is still to be updated. -/
def Pending (phase : PassPhase) (host : Uuid) : Prop :=
  ∃ row ∈ phase.rows, row.id = host

end PassPhase

/-- The detector, the database, and the check-ins that are recorded and whose host is not yet
updated. -/
structure DetectorState where
  clock : Nat
  db : Database
  pass : PassPhase
  checkIns : List (Uuid × CheckInRequest)

/-- The statements of the detector, of check-ins and of settings updates. -/
inductive DetectorAction where
  | readHosts
  | takeTime
  | updateHost
  | recordCheckIn (host : Uuid) (req : CheckInRequest)
  | updateHealth (call : Nat)
  | updateSettings (polling : Json)

/-- A statement, and the time that has passed since the one before. -/
structure DetectorStep where
  elapsed : Nat
  action : DetectorAction

namespace DetectorState

/-- The state some time later. A completed pass is over. -/
def next (state : DetectorState) (elapsed : Nat) : DetectorState :=
  { state with
    clock := state.clock + elapsed
    pass :=
      match state.pass with
      | .judging _ [] => .idle
      | phase => phase }

/-- What a statement does at its time. -/
def act (state : DetectorState) : DetectorAction → DetectorState
  | .readHosts =>
    match state.pass with
    | .idle => { state with pass := .read state.db.staleHosts }
    | _ => state
  | .takeTime =>
    match state.pass with
    | .read rows => { state with pass := .judging state.clock rows }
    | _ => state
  | .updateHost =>
    match state.pass with
    | .judging now (row :: rows) =>
      { state with
        db := state.db.setHealth row.id (row.status now)
        pass := .judging now rows }
    | _ => state
  | .recordCheckIn host req =>
    if state.db.hosts.has host then
      { state with
        db := state.db.insertCheckIn state.clock host req
        checkIns := state.checkIns ++ [(host, req)] }
    else state
  | .updateHealth i =>
    match state.checkIns[i]? with
    | some (host, req) =>
      { state with
        db := state.db.markHealthy state.clock host req
        checkIns := state.checkIns.eraseIdx i }
    | none => state
  | .updateSettings polling =>
    match pollingInterval polling with
    | some interval =>
      { state with
        db := { state.db with
          configOverrides := pushInterval state.db.configOverrides interval } }
    | none => state

/-- A statement at its time. -/
def step (state : DetectorState) (step : DetectorStep) : DetectorState :=
  (state.next step.elapsed).act step.action

end DetectorState

/-! ## Fairness -/

/-- The interval of a host. -/
def Database.checkInInterval (db : Database) (host : Uuid) : Int :=
  (db.checkInInterval? host).getD 900

/-- At the time the last check-in of the host is older than twice its interval. -/
def Database.LateAt (db : Database) (host : Uuid) (now : Nat) : Prop :=
  ∃ last, db.lastCheckIn host = some last ∧ (last : Int) + db.checkInInterval host * 2 < now

/-- The status says that the host is stale. -/
def HostHealthStatus.isStale : HostHealthStatus → Bool
  | .degraded => true
  | .unreachable => true
  | _ => false

/-- Right after a pass, if no check-in is in progress, every stale host is late at the time of the
pass. -/
def DetectorState.Fair (state : DetectorState) : Prop :=
  ∀ now, state.pass = .judging now [] → state.checkIns = [] →
    ∀ row ∈ state.db.hosts.rows, row.healthStatus.isStale = true → state.db.LateAt row.id now

/-- The status of the host is not looked at again, or is being decided by a pass. -/
def DetectorState.Judged (state : DetectorState) (host : Uuid) : Prop :=
  (∃ row ∈ state.db.hosts.rows, row.id = host ∧ row.healthStatus = .unreachable) ∨
    state.pass ≠ .idle ∧ (state.pass.Pending host ∨
      ∃ row ∈ state.db.hosts.rows, row.id = host ∧ row.healthStatus = .degraded)

/-- The statement does not change what a pass relies on: no check-in of a host comes between the
read and the update of the host, and no interval is raised for a host that is judged. -/
def DetectorState.Undisturbed (state : DetectorState) (step : DetectorStep) : Prop :=
  match step.action with
  | .recordCheckIn host _ => ¬ (state.next step.elapsed).pass.Pending host
  | .updateSettings polling =>
    ∀ interval, pollingInterval polling = some interval →
      ∀ row ∈ state.db.configOverrides.rows, row.checkInIntervalSecs < interval →
        ¬ (state.next step.elapsed).Judged row.hostId
  | _ => True

/-! ## What the statements do -/

section Statements

variable {db : Database} {host other : Uuid}

theorem late_of_stale {row : StaleHostRow} {now : Nat}
    (hrange : InRange (row.checkInIntervalSecs.getD 900))
    (h : (row.status now).isStale = true) :
    ∃ last, row.lastCheckIn = some last ∧
      (last : Int) + row.checkInIntervalSecs.getD 900 * 2 < now := by
  have hdefault (elapsed : Option Int) : staleStatus row.checkInIntervalSecs elapsed =
      staleStatus (some (row.checkInIntervalSecs.getD 900)) elapsed := rfl
  unfold StaleHostRow.status at h
  cases hlast : row.lastCheckIn with
  | none =>
    rw [hlast] at h
    cases h
  | some last =>
    rw [hlast, hdefault, Option.map_some, hrange.exact.detector] at h
    refine ⟨last, rfl, ?_⟩
    unfold InRange at hrange
    by_contra hnot
    rw [if_neg (by omega), if_neg (by omega)] at h
    cases h

theorem mem_setHealth {status : HostHealthStatus} {row : Host}
    (h : row ∈ (db.setHealth host status).hosts.rows) :
    ∃ old ∈ db.hosts.rows, old.id = row.id ∧
      row.healthStatus = if row.id = host then status else old.healthStatus := by
  obtain ⟨old, hold, rfl⟩ := mem_map.mp h
  refine ⟨old, hold, ?_⟩
  by_cases hcond : old.id = host ∧ old.healthStatus ≠ status
  · rw [if_pos (decide_eq_true hcond)]
    exact ⟨rfl, (if_pos hcond.1).symm⟩
  · rw [if_neg (by simpa using hcond)]
    refine ⟨rfl, ?_⟩
    by_cases hhost : old.id = host
    · rw [if_pos hhost]
      by_contra hne
      exact hcond ⟨hhost, hne⟩
    · rw [if_neg hhost]

theorem mem_markHealthy {now : Nat} {req : CheckInRequest} {row : Host}
    (h : row ∈ (db.markHealthy now host req).hosts.rows) :
    ∃ old ∈ db.hosts.rows, old.id = row.id ∧
      row.healthStatus = if row.id = host then .healthy else old.healthStatus := by
  obtain ⟨old, hold, rfl⟩ := mem_map.mp h
  refine ⟨old, hold, ?_⟩
  by_cases hhost : old.id = host
  · rw [if_pos (decide_eq_true hhost)]
    exact ⟨rfl, (if_pos hhost).symm⟩
  · rw [if_neg (by simpa using hhost)]
    exact ⟨rfl, (if_neg hhost).symm⟩

theorem lastCheckIn_insertCheckIn (now : Nat) (req : CheckInRequest) (hne : other ≠ host) :
    (db.insertCheckIn now host req).lastCheckIn other = db.lastCheckIn other := by
  unfold Database.lastCheckIn Database.insertCheckIn
  rw [filter_append, filter_singleton, decide_eq_false hne.symm]
  simp

theorem checkInInterval_push_le {interval : Int}
    (h : ∀ row ∈ db.configOverrides.rows, row.hostId = host →
      interval ≤ row.checkInIntervalSecs) :
    ({ db with configOverrides := pushInterval db.configOverrides interval } :
        Database).checkInInterval host ≤ db.checkInInterval host := by
  unfold Database.checkInInterval Database.checkInInterval?
  rw [pushInterval, Table.find?_update]
  cases hfind : db.configOverrides.find? host with
  | none => exact Int.le_refl _
  | some row =>
    obtain ⟨hrow, hhost⟩ := Table.mem_of_find? hfind
    have hle := h row hrow hhost
    show (if decide (row.checkInIntervalSecs ≠ interval) = true then _ else row :
      HostConfigOverride).checkInIntervalSecs ≤ row.checkInIntervalSecs
    split
    · exact hle
    · exact Int.le_refl _

end Statements

/-! ## The invariant -/

namespace DetectorState

/-- The time of the pass, or the present one if there is none. -/
def time (state : DetectorState) : Nat :=
  match state.pass with
  | .judging now _ => now
  | _ => state.clock

/-- A check-in of the host is in progress, or the host is late. -/
def Excused (state : DetectorState) (host : Uuid) : Prop :=
  host ∈ state.checkIns.map Prod.fst ∨ state.db.LateAt host state.time

/-- What undisturbed statements keep. -/
structure Inv (state : DetectorState) : Prop where
  ranges : ∀ row ∈ state.db.configOverrides.rows, InRange row.checkInIntervalSecs
  passed : state.time ≤ state.clock
  unreachable : ∀ row ∈ state.db.hosts.rows, row.healthStatus = .unreachable →
    state.Excused row.id
  degraded : state.pass ≠ .idle → ∀ row ∈ state.db.hosts.rows, row.healthStatus = .degraded →
    state.pass.Pending row.id ∨ state.Excused row.id
  pending : ∀ row ∈ state.pass.rows, state.db.lastCheckIn row.id = row.lastCheckIn ∧
    state.db.checkInInterval row.id ≤ row.checkInIntervalSecs.getD 900 ∧
    InRange (row.checkInIntervalSecs.getD 900)

end DetectorState

section Invariant

variable {state : DetectorState}

theorem DetectorState.Inv.fair (h : state.Inv) : state.Fair := by
  intro now hpass hquiet row hrow hstale
  have hexcused (host : Uuid) (hhost : state.Excused host) : state.db.LateAt host now := by
    rcases hhost with hopen | hlate
    · rw [hquiet] at hopen
      cases hopen
    · unfold DetectorState.time at hlate
      rw [hpass] at hlate
      exact hlate
  cases hstatus : row.healthStatus with
  | pending =>
    rw [hstatus] at hstale
    cases hstale
  | healthy =>
    rw [hstatus] at hstale
    cases hstale
  | unreachable => exact hexcused _ (h.unreachable row hrow hstatus)
  | degraded =>
    have hrunning : state.pass ≠ .idle := by
      rw [hpass]
      exact fun heq => by cases heq
    rcases h.degraded hrunning row hrow hstatus with ⟨other, hother, -⟩ | hlate
    · rw [hpass] at hother
      cases hother
    · exact hexcused _ hlate

theorem DetectorState.Excused.mono {after : DetectorState} {host : Uuid}
    (h : state.Excused host) (hopen : state.checkIns = after.checkIns)
    (hlast : after.db.lastCheckIn host = state.db.lastCheckIn host)
    (hinterval : after.db.checkInInterval host ≤ state.db.checkInInterval host)
    (htime : state.time ≤ after.time) : after.Excused host := by
  rcases h with hcall | ⟨last, hstored, hlate⟩
  · exact .inl (hopen ▸ hcall)
  · exact .inr ⟨last, hlast.trans hstored, by omega⟩

theorem DetectorState.time_le_next (h : state.time ≤ state.clock) (elapsed : Nat) :
    state.time ≤ (state.next elapsed).time := by
  unfold DetectorState.time DetectorState.next at *
  cases hpass : state.pass with
  | idle => exact Nat.le_add_right _ _
  | read rows => exact Nat.le_add_right _ _
  | judging now rows =>
    rw [hpass] at h
    cases rows with
    | nil => exact Nat.le_trans h (Nat.le_add_right _ _)
    | cons row rows => exact Nat.le_refl _

theorem DetectorState.next_time_le (h : state.time ≤ state.clock) (elapsed : Nat) :
    (state.next elapsed).time ≤ (state.next elapsed).clock := by
  unfold DetectorState.time DetectorState.next at *
  cases hpass : state.pass with
  | idle => exact Nat.le_refl _
  | read rows => exact Nat.le_refl _
  | judging now rows =>
    rw [hpass] at h
    cases rows with
    | nil => exact Nat.le_refl _
    | cons row rows => exact Nat.le_trans h (Nat.le_add_right _ _)

/-- Time ends completed passes and changes no other. -/
theorem DetectorState.next_pass (state : DetectorState) (elapsed : Nat) :
    (state.next elapsed).pass = state.pass ∨
      (state.next elapsed).pass = .idle ∧ state.pass.rows = [] := by
  unfold DetectorState.next
  cases hpass : state.pass with
  | idle => exact .inl rfl
  | read rows => exact .inl rfl
  | judging now rows =>
    cases rows with
    | nil => exact .inr ⟨rfl, rfl⟩
    | cons row rows => exact .inl rfl

theorem DetectorState.Inv.next (h : state.Inv) (elapsed : Nat) : (state.next elapsed).Inv := by
  have hexcused (host : Uuid) (hhost : state.Excused host) :
      (state.next elapsed).Excused host :=
    hhost.mono rfl rfl (Int.le_refl _) (time_le_next h.passed elapsed)
  refine ⟨h.ranges, next_time_le h.passed elapsed, ?_, ?_, ?_⟩
  · intro row hrow hstatus
    exact hexcused _ (h.unreachable row hrow hstatus)
  · intro hrunning row hrow hstatus
    rcases state.next_pass elapsed with hsame | ⟨hidle, -⟩
    · rw [hsame] at hrunning ⊢
      exact (h.degraded hrunning row hrow hstatus).imp_right (hexcused _)
    · exact absurd hidle hrunning
  · intro row hrow
    rcases state.next_pass elapsed with hsame | ⟨hidle, -⟩
    · exact h.pending row (hsame ▸ hrow)
    · rw [hidle] at hrow
      cases hrow

theorem mem_staleHosts {db : Database} {row : Host} (hrow : row ∈ db.hosts.rows)
    (h : row.healthStatus ≠ .unreachable) :
    ⟨row.id, db.lastCheckIn row.id, db.checkInInterval? row.id⟩ ∈ db.staleHosts :=
  mem_map.mpr ⟨row, mem_filter.mpr ⟨hrow, decide_eq_true (.inl h)⟩, rfl⟩

theorem inRange_checkInInterval {db : Database}
    (h : ∀ row ∈ db.configOverrides.rows, InRange row.checkInIntervalSecs) (host : Uuid) :
    InRange (db.checkInInterval host) := by
  unfold Database.checkInInterval Database.checkInInterval?
  cases hfind : db.configOverrides.find? host with
  | none =>
    show InRange 900
    unfold InRange
    omega
  | some row => exact h row (Table.mem_of_find? hfind).1

theorem DetectorState.Inv.readHosts (h : state.Inv) : (state.act .readHosts).Inv := by
  show DetectorState.Inv (match state.pass with
    | .idle => { state with pass := .read state.db.staleHosts }
    | _ => state)
  cases hpass : state.pass with
  | read rows => exact h
  | judging now rows => exact h
  | idle =>
    have htime : state.time = state.clock := by
      unfold DetectorState.time
      rw [hpass]
    refine ⟨h.ranges, Nat.le_refl _, ?_, ?_, ?_⟩
    · intro row hrow hstatus
      exact (h.unreachable row hrow hstatus).mono rfl rfl (Int.le_refl _) (Nat.le_of_eq htime)
    · intro _ row hrow hstatus
      exact .inl ⟨_, mem_staleHosts hrow (by rw [hstatus]; decide), rfl⟩
    · intro row hrow
      obtain ⟨host, -, rfl⟩ := mem_map.mp hrow
      exact ⟨rfl, Int.le_refl _, inRange_checkInInterval h.ranges host.id⟩

theorem DetectorState.Inv.takeTime (h : state.Inv) : (state.act .takeTime).Inv := by
  show DetectorState.Inv (match state.pass with
    | .read rows => { state with pass := .judging state.clock rows }
    | _ => state)
  cases hpass : state.pass with
  | idle => exact h
  | judging now rows => exact h
  | read rows =>
    have htime : state.time = state.clock := by
      unfold DetectorState.time
      rw [hpass]
    have hexcused (host : Uuid) (hhost : state.Excused host) :
        ({ state with pass := .judging state.clock rows } : DetectorState).Excused host :=
      hhost.mono rfl rfl (Int.le_refl _) (Nat.le_of_eq htime)
    have hrunning : state.pass ≠ .idle := by
      rw [hpass]
      exact fun heq => by cases heq
    refine ⟨h.ranges, Nat.le_refl _, ?_, ?_, ?_⟩
    · intro row hrow hstatus
      exact hexcused _ (h.unreachable row hrow hstatus)
    · intro _ row hrow hstatus
      have hread := h.degraded hrunning row hrow hstatus
      rw [hpass] at hread
      exact hread.imp_right (hexcused _)
    · intro row hrow
      exact h.pending row (hpass ▸ hrow)

theorem DetectorState.Inv.updateHost (h : state.Inv) : (state.act .updateHost).Inv := by
  show DetectorState.Inv (match state.pass with
    | .judging now (row :: rows) =>
      { state with
        db := state.db.setHealth row.id (row.status now)
        pass := .judging now rows }
    | _ => state)
  cases hpass : state.pass with
  | idle => exact h
  | read rows => exact h
  | judging now rows =>
    cases rows with
    | nil => exact h
    | cons judged rows =>
      have htime : state.time = now := by
        unfold DetectorState.time
        rw [hpass]
      have hrunning : state.pass ≠ .idle := by
        rw [hpass]
        exact fun heq => by cases heq
      have hpending := h.pending
      rw [hpass] at hpending
      -- The pass still knows the last check-in, and an interval that is long enough.
      have hlate (hstale : (judged.status now).isStale = true) :
          state.db.LateAt judged.id now := by
        obtain ⟨hlast, hinterval, hrange⟩ := hpending judged mem_cons_self
        obtain ⟨last, hread, hold⟩ := late_of_stale hrange hstale
        exact ⟨last, hlast.trans hread, by omega⟩
      refine ⟨h.ranges, ?_, ?_, ?_, ?_⟩
      · have hpassed := h.passed
        rw [htime] at hpassed
        exact hpassed
      · intro row hrow hstatus
        obtain ⟨old, hold, hid, hnew⟩ := mem_setHealth hrow
        rw [hstatus] at hnew
        by_cases hhost : row.id = judged.id
        · rw [if_pos hhost] at hnew
          rw [hhost]
          exact .inr (hlate (by rw [← hnew]; rfl))
        · rw [if_neg hhost] at hnew
          rw [← hid]
          exact (h.unreachable old hold hnew.symm).mono rfl rfl (Int.le_refl _)
            (Nat.le_of_eq htime)
      · intro _ row hrow hstatus
        obtain ⟨old, hold, hid, hnew⟩ := mem_setHealth hrow
        rw [hstatus] at hnew
        by_cases hhost : row.id = judged.id
        · rw [if_pos hhost] at hnew
          rw [hhost]
          exact .inr (.inr (hlate (by rw [← hnew]; rfl)))
        · rw [if_neg hhost] at hnew
          rcases h.degraded hrunning old hold hnew.symm with ⟨other, hother, hsame⟩ | hexcused
          · rw [hpass] at hother
            rcases mem_cons.mp hother with rfl | hrest
            · exact absurd (hid.symm.trans hsame.symm) hhost
            · exact .inl ⟨other, hrest, hsame.trans hid⟩
          · rw [← hid]
            exact .inr (hexcused.mono rfl rfl (Int.le_refl _) (Nat.le_of_eq htime))
      · intro row hrow
        exact hpending row (mem_cons_of_mem _ hrow)

theorem DetectorState.Inv.recordCheckIn (h : state.Inv) {host : Uuid} (req : CheckInRequest)
    (hfree : ¬ state.pass.Pending host) : (state.act (.recordCheckIn host req)).Inv := by
  show DetectorState.Inv (if state.db.hosts.has host then
    { state with
      db := state.db.insertCheckIn state.clock host req
      checkIns := state.checkIns ++ [(host, req)] }
    else state)
  by_cases hknown : state.db.hosts.has host
  · rw [if_pos hknown]
    -- The host itself is excused by its open check-in, the others by what excused them before.
    have hexcused (other : Uuid) (hother : state.Excused other) :
        ({ state with
          db := state.db.insertCheckIn state.clock host req
          checkIns := state.checkIns ++ [(host, req)] } : DetectorState).Excused other := by
      by_cases hsame : other = host
      · subst hsame
        exact .inl (by simp)
      · rcases hother with hcall | ⟨last, hlast, hlate⟩
        · exact .inl (by simp [hcall])
        · exact .inr ⟨last, (lastCheckIn_insertCheckIn _ req hsame).trans hlast, hlate⟩
    refine ⟨h.ranges, h.passed, ?_, ?_, ?_⟩
    · intro row hrow hstatus
      exact hexcused _ (h.unreachable row hrow hstatus)
    · intro hrunning row hrow hstatus
      exact (h.degraded hrunning row hrow hstatus).imp_right (hexcused _)
    · intro row hrow
      obtain ⟨hlast, hrest⟩ := h.pending row hrow
      have hne : row.id ≠ host := fun heq => hfree ⟨row, hrow, heq⟩
      exact ⟨(lastCheckIn_insertCheckIn _ req hne).trans hlast, hrest⟩
  · rw [if_neg hknown]
    exact h

theorem DetectorState.Excused.markHealthy {i : Nat} {host other : Uuid} {req : CheckInRequest}
    (h : state.Excused other) (hcall : state.checkIns[i]? = some (host, req))
    (hne : other ≠ host) :
    ({ state with
      db := state.db.markHealthy state.clock host req
      checkIns := state.checkIns.eraseIdx i } : DetectorState).Excused other := by
  rcases h with hopen | hlate
  · refine .inl ?_
    obtain ⟨call, hmem, rfl⟩ := mem_map.mp hopen
    refine mem_map.mpr ⟨call, ?_, rfl⟩
    obtain ⟨j, hj⟩ := mem_iff_getElem?.mp hmem
    refine mem_eraseIdx_iff_getElem?.mpr ⟨j, ?_, hj⟩
    intro heq
    rw [heq, hcall] at hj
    cases hj
    exact hne rfl
  · exact .inr hlate

theorem DetectorState.Inv.updateHealth (h : state.Inv) (i : Nat) :
    (state.act (.updateHealth i)).Inv := by
  show DetectorState.Inv (match state.checkIns[i]? with
    | some (host, req) =>
      { state with
        db := state.db.markHealthy state.clock host req
        checkIns := state.checkIns.eraseIdx i }
    | none => state)
  cases hcall : state.checkIns[i]? with
  | none => exact h
  | some call =>
    obtain ⟨host, req⟩ := call
    refine ⟨h.ranges, h.passed, ?_, ?_, h.pending⟩
    · intro row hrow hstatus
      obtain ⟨old, hold, hid, hnew⟩ := mem_markHealthy hrow
      rw [hstatus] at hnew
      by_cases hhost : row.id = host
      · rw [if_pos hhost] at hnew
        cases hnew
      · rw [if_neg hhost] at hnew
        have hexcused := h.unreachable old hold hnew.symm
        rw [hid] at hexcused
        exact hexcused.markHealthy hcall hhost
    · intro hrunning row hrow hstatus
      obtain ⟨old, hold, hid, hnew⟩ := mem_markHealthy hrow
      rw [hstatus] at hnew
      by_cases hhost : row.id = host
      · rw [if_pos hhost] at hnew
        cases hnew
      · rw [if_neg hhost] at hnew
        have hread := h.degraded hrunning old hold hnew.symm
        rw [hid] at hread
        exact hread.imp_right fun hexcused => hexcused.markHealthy hcall hhost

theorem DetectorState.Inv.updateSettings (h : state.Inv) (polling : Json)
    (hlow : ∀ interval, pollingInterval polling = some interval →
      ∀ row ∈ state.db.configOverrides.rows, row.checkInIntervalSecs < interval →
        ¬ state.Judged row.hostId) : (state.act (.updateSettings polling)).Inv := by
  show DetectorState.Inv (match pollingInterval polling with
    | some interval =>
      { state with
        db := { state.db with
          configOverrides := pushInterval state.db.configOverrides interval } }
    | none => state)
  cases hpolling : pollingInterval polling with
  | none => exact h
  | some interval =>
    have hle (host : Uuid) (hjudged : state.Judged host) :
        ({ state.db with
          configOverrides := pushInterval state.db.configOverrides interval } :
            Database).checkInInterval host ≤ state.db.checkInInterval host := by
      refine checkInInterval_push_le fun row hrow hhost => ?_
      by_contra hraised
      refine hlow interval hpolling row hrow (by omega) ?_
      rw [hhost]
      exact hjudged
    refine ⟨?_, h.passed, ?_, ?_, ?_⟩
    · intro row hrow
      obtain ⟨old, hold, rfl⟩ := mem_map.mp hrow
      split
      · exact inRange_pollingInterval hpolling
      · exact h.ranges old hold
    · intro row hrow hstatus
      exact (h.unreachable row hrow hstatus).mono rfl rfl
        (hle _ (.inl ⟨row, hrow, rfl, hstatus⟩)) (Nat.le_refl _)
    · intro hrunning row hrow hstatus
      have hjudged : state.Judged row.id := .inr ⟨hrunning, .inr ⟨row, hrow, rfl, hstatus⟩⟩
      exact (h.degraded hrunning row hrow hstatus).imp_right fun hexcused =>
        hexcused.mono rfl rfl (hle _ hjudged) (Nat.le_refl _)
    · intro row hrow
      obtain ⟨hlast, hread, hrange⟩ := h.pending row hrow
      have hrunning : state.pass ≠ .idle := by
        intro hidle
        rw [hidle] at hrow
        cases hrow
      exact ⟨hlast, Int.le_trans (hle _ (.inr ⟨hrunning, .inl ⟨row, hrow, rfl⟩⟩)) hread, hrange⟩

/-- Undisturbed statements keep the invariant. -/
theorem DetectorState.Inv.step (h : state.Inv) (step : DetectorStep)
    (hundisturbed : state.Undisturbed step) : (state.step step).Inv := by
  obtain ⟨elapsed, action⟩ := step
  have hnext := h.next elapsed
  cases action with
  | readHosts => exact hnext.readHosts
  | takeTime => exact hnext.takeTime
  | updateHost => exact hnext.updateHost
  | recordCheckIn host req => exact hnext.recordCheckIn req hundisturbed
  | updateHealth i => exact hnext.updateHealth i
  | updateSettings polling => exact hnext.updateSettings polling hundisturbed

end Invariant

/-! ## Completed passes -/

/-- No pass and no check-in is in progress, the intervals are ones that the settings admit, and the
hosts that are unreachable are late. -/
structure DetectorState.Quiet (state : DetectorState) : Prop where
  idle : state.pass = .idle
  noCheckIn : state.checkIns = []
  ranges : ∀ row ∈ state.db.configOverrides.rows, InRange row.checkInIntervalSecs
  unreachable : ∀ row ∈ state.db.hosts.rows, row.healthStatus = .unreachable →
    state.db.LateAt row.id state.clock

theorem DetectorState.Quiet.inv {state : DetectorState} (h : state.Quiet) : state.Inv := by
  have htime : state.time = state.clock := by
    unfold DetectorState.time
    rw [h.idle]
  refine ⟨h.ranges, Nat.le_of_eq htime, ?_, ?_, ?_⟩
  · intro row hrow hstatus
    refine .inr ?_
    rw [htime]
    exact h.unreachable row hrow hstatus
  · intro hrunning
    exact absurd h.idle hrunning
  · intro row hrow
    rw [h.idle] at hrow
    cases hrow

/-- **Fair passes.** Let no check-in of a host come between the read and the update of the host, and
no interval be raised for a host that is being judged or is unreachable. Whenever a pass is
completed and no check-in is in progress, every host that is degraded or unreachable has its last
check-in more than two of its intervals before the time of the pass. -/
theorem detector_fair {start : DetectorState} (hstart : start.Quiet) {steps : List DetectorStep}
    (hundisturbed : Runs.Meets DetectorState.step DetectorState.Undisturbed start steps) :
    Runs.Throughout DetectorState.step DetectorState.Fair start steps := by
  intro n
  have hinv : Runs.Throughout DetectorState.step DetectorState.Inv start steps :=
    Runs.run_invariant (fun _ step h hstep => h.step step hstep) hstart.inv hundisturbed
  exact (hinv n).fair

/-- A check-in of host 1. -/
def punctualCheckIn : CheckInRequest :=
  ⟨⟨1⟩, "", "0.1.0", "ufw", "", 0, 1, false, none⟩

/-- A host with the default interval that has checked in at zero. -/
def watchedHost : DetectorState where
  clock := 0
  db := {
    Database.empty with
    hosts := .singleton ⟨⟨1⟩, none, .healthy, some 0⟩
    configOverrides := .singleton ⟨⟨1⟩, 900, true, true, none, 1⟩
    checkIns := [⟨⟨1⟩, "", "0.1.0", "ufw", "", 0, 1, 0⟩] }
  pass := .idle
  checkIns := []

theorem watchedHost_quiet : watchedHost.Quiet where
  idle := rfl
  noCheckIn := rfl
  ranges := by
    intro row hrow
    cases mem_singleton.mp hrow
    show InRange 900
    unfold InRange
    omega
  unreachable := by
    intro row hrow hstatus
    cases mem_singleton.mp hrow
    cases hstatus

/-- A pass after the given time. -/
def onePass (elapsed : Nat) : List DetectorStep :=
  [⟨elapsed, .readHosts⟩, ⟨0, .takeTime⟩, ⟨0, .updateHost⟩]

/-- The host checks in, its interval is raised to half an hour, and then it falls silent. -/
def fallsSilent : List DetectorStep :=
  [⟨500, .recordCheckIn ⟨1⟩ punctualCheckIn⟩, ⟨0, .updateHealth 0⟩,
    ⟨100, .updateSettings (.obj [("check_in_interval_secs", .int 1800)])⟩] ++ onePass 4000

/-- The host is degraded by the pass, and rightly so. -/
theorem silent_host_degraded :
    watchedHost.Quiet ∧
      Runs.Meets DetectorState.step DetectorState.Undisturbed watchedHost fallsSilent ∧
      (Runs.run DetectorState.step watchedHost fallsSilent).db.hosts.rows.map
        Host.healthStatus = [.degraded] ∧
      Runs.Throughout DetectorState.step DetectorState.Fair watchedHost fallsSilent := by
  have hhealthy : ∀ row ∈ (Runs.run DetectorState.step watchedHost
      (fallsSilent.take 2)).db.hosts.rows, row.healthStatus ≠ .unreachable := by
    decide +kernel
  have hmeets : Runs.Meets DetectorState.step DetectorState.Undisturbed watchedHost
      fallsSilent := by
    refine ⟨?_, trivial, ?_, trivial, trivial, trivial, trivial⟩
    · rintro ⟨row, hrow, -⟩
      cases hrow
    · rintro _ _ row _ _ (⟨host, hhost, -, hstatus⟩ | ⟨hrunning, -⟩)
      · exact hhealthy host hhost hstatus
      · exact hrunning rfl
  exact ⟨watchedHost_quiet, hmeets, by decide +kernel, detector_fair watchedHost_quiet hmeets⟩

/-- A check-in is recorded and completed between the read and the update of its host. -/
def checkInDuringPass : List DetectorStep :=
  [⟨2000, .readHosts⟩, ⟨0, .takeTime⟩, ⟨0, .recordCheckIn ⟨1⟩ punctualCheckIn⟩,
    ⟨0, .updateHealth 0⟩, ⟨0, .updateHost⟩]

/-- The host becomes unreachable, and then its interval is raised to a day. -/
def raisedAfterUnreachable : List DetectorStep :=
  onePass 4000 ++
    ⟨0, .updateSettings (.obj [("check_in_interval_secs", .int 86400)])⟩ ::
      [⟨0, .readHosts⟩, ⟨0, .takeTime⟩]

/-- The pass, and the status, the last check-in and the interval of a host. -/
def DetectorState.verdict (state : DetectorState) (host : Uuid) :
    PassPhase × Option HostHealthStatus × Option Nat × Int :=
  (state.pass, (state.db.hosts.find? host).map Host.healthStatus, state.db.lastCheckIn host,
    state.db.checkInInterval host)

theorem DetectorState.not_fair_of_verdict {state : DetectorState} {host : Uuid} {now last : Nat}
    {status : HostHealthStatus} {interval : Int} (hquiet : state.checkIns = [])
    (h : state.verdict host = (.judging now [], some status, some last, interval))
    (hstale : status.isStale = true) (hrecent : (now : Int) ≤ last + interval * 2) :
    ¬ state.Fair := by
  intro hfair
  obtain ⟨hpass, hrow, hlast, hinterval⟩ := by
    simpa only [DetectorState.verdict, Prod.mk.injEq] using h
  obtain ⟨row, hfind, hstatus⟩ := Option.map_eq_some_iff.mp hrow
  obtain ⟨hmem, rfl⟩ := Table.mem_of_find? hfind
  obtain ⟨stored, hstored, hlate⟩ := hfair now hpass hquiet row hmem (hstatus ▸ hstale)
  cases hlast.symm.trans hstored
  omega

/-- The first pass leaves a host degraded that has checked in at the time of the pass. The second
one leaves a host unreachable whose last check-in is less than one interval old. -/
theorem live_host_buried :
    (Runs.run DetectorState.step watchedHost checkInDuringPass).verdict ⟨1⟩ =
        (.judging 2000 [], some .degraded, some 2000, 900) ∧
      ¬ (Runs.run DetectorState.step watchedHost checkInDuringPass).Fair ∧
      (Runs.run DetectorState.step watchedHost raisedAfterUnreachable).verdict ⟨1⟩ =
        (.judging 4000 [], some .unreachable, some 0, 86400) ∧
      ¬ (Runs.run DetectorState.step watchedHost raisedAfterUnreachable).Fair := by
  have hdegraded : (Runs.run DetectorState.step watchedHost checkInDuringPass).verdict ⟨1⟩ =
      (.judging 2000 [], some .degraded, some 2000, 900) := by decide +kernel
  have hunreachable :
      (Runs.run DetectorState.step watchedHost raisedAfterUnreachable).verdict ⟨1⟩ =
        (.judging 4000 [], some .unreachable, some 0, 86400) := by decide +kernel
  exact ⟨hdegraded, DetectorState.not_fair_of_verdict rfl hdegraded rfl (by decide),
    hunreachable, DetectorState.not_fair_of_verdict rfl hunreachable rfl (by decide)⟩

end FirewallManager
