import FirewallManager.Lib.Runs
import FirewallManager.Manager.AgentApi

/-!
# The number of hosts in drift

The fleet status counts the hosts whose newest row in `drift_snapshots` comes from a check-in with a
mismatch. A check-in writes a row for a mismatch and then one for local drift, and every result
report writes one, whatever it reports.

`newSnapshots` are the rows that an event appends. A host is counted for the right reason throughout
a run exactly when every event of the run is plain (`drift_count_iff`): a mismatch comes without
local drift, and a host in drift sends nothing but mismatches and reports of successful applies.
-/

namespace FirewallManager

open List

/-! ## The query -/

/-- The newest row of a host: the first by `captured_at DESC`. Rows of one time are in the order in
which they were inserted. -/
def Database.latestSnapshot (db : Database) (host : Uuid) : Option DriftSnapshot :=
  ((db.driftSnapshots.filter fun row => decide (row.hostId = host)).reverse.insertionSort
    fun a b => b.capturedAt ≤ a.capturedAt).head?

/-- The hosts that the fleet status counts as in drift. -/
def Database.driftedHosts (db : Database) : List Uuid :=
  (db.driftSnapshots.map DriftSnapshot.hostId).dedup.filter fun host =>
    decide ((db.latestSnapshot host).map DriftSnapshot.source = some "check_in_mismatch")

/-- `hosts_in_drift` of the fleet status. -/
def Database.hostsInDrift (db : Database) : Nat :=
  db.driftedHosts.length

/-- The rows are in the order of their times, which have passed. -/
structure Database.SnapshotsOrdered (db : Database) (now : Nat) : Prop where
  sorted : db.driftSnapshots.Pairwise fun a b => a.capturedAt ≤ b.capturedAt
  past : ∀ row ∈ db.driftSnapshots, row.capturedAt ≤ now

theorem latestSnapshot_eq_getLast? {db : Database} {now : Nat} (h : db.SnapshotsOrdered now)
    (host : Uuid) :
    db.latestSnapshot host =
      (db.driftSnapshots.filter fun row => decide (row.hostId = host)).getLast? := by
  have hsorted : (db.driftSnapshots.filter fun row => decide (row.hostId = host)).reverse.Pairwise
      fun a b => b.capturedAt ≤ a.capturedAt :=
    pairwise_reverse.mpr (h.sorted.filter _)
  rw [Database.latestSnapshot, hsorted.insertionSort_eq, head?_reverse]

/-- A host is counted if its newest row is a mismatch. -/
theorem mem_driftedHosts_iff {db : Database} {now : Nat} (h : db.SnapshotsOrdered now)
    {host : Uuid} :
    host ∈ db.driftedHosts ↔
      (db.latestSnapshot host).map DriftSnapshot.source = some "check_in_mismatch" := by
  unfold Database.driftedHosts
  rw [mem_filter, mem_dedup, decide_eq_true_iff]
  refine and_iff_right_of_imp fun hlatest => ?_
  obtain ⟨row, hrow, -⟩ := Option.map_eq_some_iff.mp hlatest
  rw [latestSnapshot_eq_getLast? h] at hrow
  obtain ⟨hmem, hhost⟩ := mem_filter.mp (mem_of_getLast? hrow)
  exact mem_map.mpr ⟨row, hmem, of_decide_eq_true hhost⟩

/-! ## Events -/

/-- The hash that a host reports is not the one that the manager expects. -/
def Database.mismatch (db : Database) (env : ManagerEnv) (host : Uuid) (rulesHash : String) :
    Bool :=
  rulesChanged rulesHash (db.assignedHash env (db.assignedSet env host))

/-- The rows that a request of a known host appends. -/
def requestSnapshots (env : ManagerEnv) (now : Nat) (host : Uuid) (db : Database) :
    AgentRequest → List DriftSnapshot
  | .checkIn body =>
    let count := (db.assignedRows (db.assignedSet env host)).length
    (if db.mismatch env host body.rulesHash then
      [⟨host, body.rulesHash, count, "check_in_mismatch", now⟩] else []) ++
    if body.localDrift then [⟨host, body.rulesHash, count, "out_of_band", now⟩] else []
  | .checkInResult body => [⟨host, body.newRulesHash, 0, "agent_report", now⟩]
  | _ => []

/-- The rows that a request appends. -/
def newSnapshots (env : ManagerEnv) (now : Nat) (host : Uuid) (db : Database)
    (request : AgentRequest) : List DriftSnapshot :=
  if db.hosts.has host = true then requestSnapshots env now host db request else []

section Requests

variable {env : ManagerEnv} {now : Nat} {host : Uuid} {db : Database}

theorem driftSnapshots_recordDrift (now : Nat) (h : db.hosts.has host = true) (hash : String)
    (count : Nat) (source : String) :
    (db.recordDrift now host hash count source).driftSnapshots =
      db.driftSnapshots ++ [⟨host, hash, count, source, now⟩] := by
  show (if db.hosts.has host = true then _ else _) = _
  rw [if_pos h]

theorem driftSnapshots_of_has (h : db.hosts.has host = true) (request : AgentRequest) :
    (serveAgent env now host request db).2.driftSnapshots =
      db.driftSnapshots ++ requestSnapshots env now host db request := by
  cases request with
  | checkIn body =>
    have hknown : (db.recordCheckIn now host body).hosts.has host = true := by
      rw [Database.recordCheckIn, Table.has_update]
      exact h
    have hmismatch : db.mismatch env host body.rulesHash =
        rulesChanged body.rulesHash (db.assignedHash env (db.assignedSet env host)) := rfl
    show (checkIn env now host body db).2.driftSnapshots = _
    rw [checkIn_of_has h]
    show (checkInLogged env now host body db).driftSnapshots = _
    unfold checkInLogged requestSnapshots
    dsimp only
    rw [← hmismatch]
    cases db.mismatch env host body.rulesHash with
    | false =>
      cases body.localDrift with
      | false => exact (append_nil _).symm
      | true => exact driftSnapshots_recordDrift now hknown _ _ _
    | true =>
      have hfirst := driftSnapshots_recordDrift now hknown body.rulesHash
        (db.assignedRows (db.assignedSet env host)).length "check_in_mismatch"
      cases body.localDrift with
      | false => exact hfirst
      | true =>
        have hknown' : ((db.recordCheckIn now host body).recordDrift now host body.rulesHash
            (db.assignedRows (db.assignedSet env host)).length
            "check_in_mismatch").hosts.has host = true := hknown
        refine (driftSnapshots_recordDrift now hknown' _ _ _).trans ?_
        rw [hfirst, append_assoc]
        rfl
  | checkInResult body =>
    show (checkInResult now host body db).driftSnapshots = _
    unfold checkInResult
    cases body.actionId with
    | none =>
      show (if db.hosts.has host = true then _ else _) = _
      rw [if_pos h]
      rfl
    | some id =>
      show (if db.hosts.has host = true then _ else _) = _
      rw [if_pos h]
      rfl
  | policy => exact (append_nil _).symm
  | events => exact (append_nil _).symm
  | whoami => exact (append_nil _).symm

theorem driftSnapshots_of_not_has (h : db.hosts.has host = false)
    (request : AgentRequest) :
    (serveAgent env now host request db).2.driftSnapshots = db.driftSnapshots := by
  cases request with
  | checkIn body =>
    show (checkIn env now host body db).2.driftSnapshots = _
    rw [checkIn_of_not_has h]
  | checkInResult body =>
    show (checkInResult now host body db).driftSnapshots = _
    unfold checkInResult
    cases body.actionId with
    | none =>
      show (if db.hosts.has host = true then _ else _) = _
      rw [if_neg (by simp [h])]
    | some id =>
      show (if db.hosts.has host = true then _ else _) = _
      rw [if_neg (by simp [h])]
      rfl
  | policy => rfl
  | events => rfl
  | whoami => rfl

theorem requestSnapshots_spec {request : AgentRequest} {row : DriftSnapshot}
    (h : row ∈ requestSnapshots env now host db request) :
    row.hostId = host ∧ row.capturedAt = now := by
  cases request with
  | checkIn body =>
    rcases mem_append.mp h with hfirst | hsecond
    · split at hfirst
      · cases mem_singleton.mp hfirst
        exact ⟨rfl, rfl⟩
      · cases hfirst
    · split at hsecond
      · cases mem_singleton.mp hsecond
        exact ⟨rfl, rfl⟩
      · cases hsecond
  | checkInResult body =>
    cases mem_singleton.mp h
    exact ⟨rfl, rfl⟩
  | policy => cases h
  | events => cases h
  | whoami => cases h

theorem driftSnapshots_serveAgent (env : ManagerEnv) (now : Nat) (host : Uuid)
    (request : AgentRequest) (db : Database) :
    (serveAgent env now host request db).2.driftSnapshots =
      db.driftSnapshots ++ newSnapshots env now host db request := by
  unfold newSnapshots
  by_cases hknown : db.hosts.has host = true
  · rw [if_pos hknown]
    exact driftSnapshots_of_has hknown request
  · rw [if_neg hknown, append_nil]
    exact driftSnapshots_of_not_has (Bool.eq_false_iff.mpr hknown) request

theorem newSnapshots_spec {request : AgentRequest} :
    ∀ row ∈ newSnapshots env now host db request, row.hostId = host ∧ row.capturedAt = now := by
  intro row h
  unfold newSnapshots at h
  split at h
  next => exact requestSnapshots_spec h
  next => cases h

end Requests

/-! ## Rows that are appended -/

section Append

variable {db db' : Database} {before now : Nat} {host : Uuid} {new : List DriftSnapshot}

theorem Database.SnapshotsOrdered.append (h : db.SnapshotsOrdered before) (hle : before ≤ now)
    (hnew : ∀ row ∈ new, row.hostId = host ∧ row.capturedAt = now)
    (hrows : db'.driftSnapshots = db.driftSnapshots ++ new) : db'.SnapshotsOrdered now := by
  constructor
  · rw [hrows, pairwise_append]
    refine ⟨h.sorted, ?_, ?_⟩
    · refine pairwise_iff_forall_sublist.mpr fun {a b} hab => ?_
      rw [(hnew a (hab.subset (by simp))).2, (hnew b (hab.subset (by simp))).2]
    · intro a ha b hb
      rw [(hnew b hb).2]
      exact (h.past a ha).trans hle
  · rw [hrows]
    intro row hrow
    rcases mem_append.mp hrow with hold | hrow
    · exact (h.past row hold).trans hle
    · exact (hnew row hrow).2.le

theorem latestSnapshot_append (h : db.SnapshotsOrdered before) (hle : before ≤ now)
    (hnew : ∀ row ∈ new, row.hostId = host ∧ row.capturedAt = now)
    (hrows : db'.driftSnapshots = db.driftSnapshots ++ new) (other : Uuid) :
    db'.latestSnapshot other =
      if other = host then new.getLast?.or (db.latestSnapshot other)
      else db.latestSnapshot other := by
  rw [latestSnapshot_eq_getLast? (h.append hle hnew hrows), latestSnapshot_eq_getLast? h, hrows,
    filter_append]
  by_cases hother : other = host
  · rw [if_pos hother]
    have hall : (new.filter fun row => decide (row.hostId = other)) = new :=
      filter_eq_self.mpr fun row hrow => decide_eq_true ((hnew row hrow).1.trans hother.symm)
    rw [hall, getLast?_append]
  · rw [if_neg hother]
    have hnone : (new.filter fun row => decide (row.hostId = other)) = [] := by
      refine filter_eq_nil_iff.mpr fun row hrow hsame => hother ?_
      exact (of_decide_eq_true hsame).symm.trans (hnew row hrow).1
    rw [hnone, append_nil]

end Append

/-! ## Runs -/

/-- The manager, and for every host whether its last check-in had a mismatch and no successful apply
was reported since. -/
structure DriftState where
  clock : Nat
  db : Database
  mismatched : Uuid → Bool

/-- What happens: an agent sends a request some time later, or everything but the hosts and the
drift snapshots changes. -/
inductive DriftEvent where
  | agent (elapsed : Nat) (host : Uuid) (request : AgentRequest)
  | change (next : Database)

namespace DriftState

/-- Whether the host is in drift after the request, if it was before as given. -/
def noted (env : ManagerEnv) (db : Database) (host : Uuid) (before : Bool) : AgentRequest → Bool
  | .checkIn body => db.mismatch env host body.rulesHash
  | .checkInResult body => if body.actionId = none ∧ body.success = true then false else before
  | _ => before

/-- One event. A certificate of a host that was removed is no host's. -/
def step (env : ManagerEnv) (state : DriftState) : DriftEvent → DriftState
  | .agent elapsed host request =>
    let now := state.clock + elapsed
    { clock := now
      db := (serveAgent env now host request state.db).2
      mismatched := fun other =>
        if other = host ∧ state.db.hosts.has host = true then
          noted env state.db host (state.mismatched host) request
        else state.mismatched other }
  | .change next =>
    { state with
      db := { next with hosts := state.db.hosts, driftSnapshots := state.db.driftSnapshots } }

/-- A manager without drift snapshots. -/
def first (clock : Nat) (db : Database) : DriftState where
  clock := clock
  db := { db with driftSnapshots := [] }
  mismatched := fun _ => false

/-- The fleet status counts exactly the hosts in drift. -/
def Counts (state : DriftState) : Prop :=
  ∀ host, host ∈ state.db.driftedHosts ↔ state.mismatched host = true

/-- The count is right, and the rows are in order. -/
def Right (state : DriftState) : Prop :=
  state.db.SnapshotsOrdered state.clock ∧ state.Counts

/-- The request leaves a row that says what it means for the host: a mismatch comes without local
drift, and a host in drift sends no check-in without a row, no failure and no result of an action.
-/
def PlainRequest (env : ManagerEnv) (state : DriftState) (host : Uuid) : AgentRequest → Prop
  | .checkIn body =>
    if state.db.mismatch env host body.rulesHash = true then body.localDrift = false
    else body.localDrift = false → state.mismatched host = false
  | .checkInResult body =>
    body.actionId = none ∧ body.success = true ∨ state.mismatched host = false
  | _ => True

/-- The event is a plain request, or not one of a known host. -/
def Plain (env : ManagerEnv) (state : DriftState) : DriftEvent → Prop
  | .agent _ host request => state.db.hosts.has host = true → state.PlainRequest env host request
  | .change _ => True

end DriftState

section Run

variable {env : ManagerEnv} {state : DriftState}

theorem snapshotsOrdered_step (h : state.db.SnapshotsOrdered state.clock) (event : DriftEvent) :
    (state.step env event).db.SnapshotsOrdered (state.step env event).clock := by
  cases event with
  | change next => exact ⟨h.sorted, h.past⟩
  | agent elapsed host request =>
    exact h.append (Nat.le_add_right _ _) newSnapshots_spec
      (driftSnapshots_serveAgent env _ host request state.db)

/-- What a request does to the newest rows. -/
theorem latestSnapshot_step (h : state.db.SnapshotsOrdered state.clock) (elapsed : Nat)
    (host : Uuid) (request : AgentRequest) (other : Uuid) :
    (state.step env (.agent elapsed host request)).db.latestSnapshot other =
      if other = host then
        (newSnapshots env (state.clock + elapsed) host state.db request).getLast?.or
          (state.db.latestSnapshot other)
      else state.db.latestSnapshot other :=
  latestSnapshot_append h (Nat.le_add_right _ _) newSnapshots_spec
    (driftSnapshots_serveAgent env _ host request state.db) other

theorem counted_request_iff (now : Nat) (host : Uuid) (request : AgentRequest)
    (hbefore : (state.db.latestSnapshot host).map DriftSnapshot.source =
      some "check_in_mismatch" ↔ state.mismatched host = true) :
    ((((requestSnapshots env now host state.db request).getLast?.or
          (state.db.latestSnapshot host)).map DriftSnapshot.source = some "check_in_mismatch") ↔
        DriftState.noted env state.db host (state.mismatched host) request = true) ↔
      state.PlainRequest env host request := by
  cases request with
  | checkIn body =>
    unfold requestSnapshots DriftState.noted DriftState.PlainRequest
    dsimp only
    cases state.db.mismatch env host body.rulesHash with
    | true =>
      cases body.localDrift with
      | true => simp
      | false => simp
    | false =>
      cases body.localDrift with
      | true => simp
      | false => simp [hbefore]
  | checkInResult body =>
    unfold requestSnapshots DriftState.noted DriftState.PlainRequest
    dsimp only
    by_cases hsuccess : body.actionId = none ∧ body.success = true
    · simp [hsuccess]
    · rw [if_neg hsuccess]
      simp [hsuccess]
  | policy => exact iff_of_true hbefore trivial
  | events => exact iff_of_true hbefore trivial
  | whoami => exact iff_of_true hbefore trivial

/-- Exactly the plain events keep the count right. -/
theorem counts_step_iff (h : state.db.SnapshotsOrdered state.clock) (hcounts : state.Counts)
    (event : DriftEvent) : (state.step env event).Counts ↔ state.Plain env event := by
  cases event with
  | change next => exact iff_of_true hcounts trivial
  | agent elapsed host request =>
    have hordered : (state.step env (.agent elapsed host request)).db.SnapshotsOrdered
        (state.clock + elapsed) := snapshotsOrdered_step h _
    have hbefore (other : Uuid) : (state.db.latestSnapshot other).map DriftSnapshot.source =
        some "check_in_mismatch" ↔ state.mismatched other = true :=
      (mem_driftedHosts_iff h).symm.trans (hcounts other)
    have hother {other : Uuid} (hne : other ≠ host) :
        other ∈ (state.step env (.agent elapsed host request)).db.driftedHosts ↔
          (state.step env (.agent elapsed host request)).mismatched other = true := by
      rw [mem_driftedHosts_iff hordered, latestSnapshot_step h, if_neg hne, hbefore]
      show _ ↔ (if other = host ∧ _ then _ else _) = true
      rw [if_neg fun hsame => hne hsame.1]
    have hown : (host ∈ (state.step env (.agent elapsed host request)).db.driftedHosts ↔
          (state.step env (.agent elapsed host request)).mismatched host = true) ↔
        state.Plain env (.agent elapsed host request) := by
      rw [mem_driftedHosts_iff hordered, latestSnapshot_step h, if_pos rfl, newSnapshots]
      show (_ ↔ (if host = host ∧ state.db.hosts.has host = true then _ else _) = true) ↔
        (state.db.hosts.has host = true → _)
      by_cases hknown : state.db.hosts.has host = true
      · rw [if_pos hknown, if_pos ⟨rfl, hknown⟩,
          counted_request_iff _ host request (hbefore host)]
        exact ⟨fun hplain _ => hplain, fun hplain => hplain hknown⟩
      · rw [if_neg hknown, if_neg fun hsame => hknown hsame.2]
        exact iff_of_true (hbefore host) fun h => absurd h hknown
    refine ⟨fun hafter => hown.mp (hafter host), fun hplain other => ?_⟩
    by_cases hsame : other = host
    · rw [hsame]
      exact hown.mpr hplain
    · exact hother hsame

end Run

/-- **When the number of hosts in drift is current.** From a manager without drift snapshots on, in
every state of a run of agent requests and other changes, the fleet status counts exactly the hosts
whose last check-in had a mismatch and that reported no successful apply since, if and only if every
event of the run is plain. -/
theorem drift_count_iff (env : ManagerEnv) (clock : Nat) (db : Database)
    (events : List DriftEvent) :
    Runs.Throughout (DriftState.step env) DriftState.Counts (.first clock db) events ↔
      Runs.Meets (DriftState.step env) (DriftState.Plain env) (.first clock db) events := by
  have hordered : (DriftState.first clock db).db.SnapshotsOrdered clock :=
    ⟨List.Pairwise.nil, forall_mem_nil _⟩
  have hcounts : (DriftState.first clock db).Counts := by
    intro host
    rw [mem_driftedHosts_iff hordered]
    exact iff_of_false (by simp [DriftState.first, Database.latestSnapshot])
      (by simp [DriftState.first])
  have hstep : ∀ state event, DriftState.Right state → True →
      (DriftState.Right (DriftState.step env state event) ↔ DriftState.Plain env state event) :=
    fun state event h _ => (and_iff_right (snapshotsOrdered_step h.1 event)).trans
      (counts_step_iff h.1 h.2 event)
  rw [← Runs.throughout_iff_meets hstep ⟨hordered, hcounts⟩ fun _ _ => trivial]
  constructor
  · exact Runs.throughout_of_step
      (fun state event h hnext => ⟨snapshotsOrdered_step h.1 event, hnext⟩) ⟨hordered, hcounts⟩
  · exact fun h n => (h n).2

/-- A host without a policy set. -/
def bareHost : Database :=
  { Database.empty with hosts := .singleton ⟨⟨1⟩, none, .healthy, none⟩ }

/-- The host has a mismatch and reports that its apply failed. -/
def failedApply : List DriftEvent :=
  [.agent 0 ⟨1⟩ (.checkIn ⟨⟨1⟩, "", "0.1.0", "ufw", "", 0, 1, false, none⟩),
    .agent 1 ⟨1⟩ (.checkInResult ⟨⟨1⟩, none, false, some "ufw failed", ""⟩)]

/-- The host is in drift and not counted. -/
theorem failed_apply_not_counted :
    (Runs.run (DriftState.step (.scan id)) (.first 0 bareHost) failedApply).db.hostsInDrift = 0 ∧
      (Runs.run (DriftState.step (.scan id)) (.first 0 bareHost) failedApply).mismatched ⟨1⟩ =
        true := by
  decide +kernel

end FirewallManager
