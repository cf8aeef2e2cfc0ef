import FirewallManager.Manager.Database

/-!
# The agent API

The endpoints an agent calls over mutual TLS. The host of a request is the one its client
certificate names; nothing in a request body can change it. `serveAgent` dispatches the
requests.

A check-in answers with the policy of one of the host's assigned sets. Which one is up to the
database, since the query asks for any row: `ManagerEnv.firstRow` stands for that choice.
-/

namespace FirewallManager

/-- What the handlers use beside the database: SHA-256, and the row that an unordered query with
a single result returns. -/
structure ManagerEnv where
  sha256 : List UInt8 → List UInt8
  firstRow : List Uuid → Option Uuid
  firstRow_mem : ∀ ids id, firstRow ids = some id → id ∈ ids
  firstRow_isSome : ∀ ids, ids ≠ [] → (firstRow ids).isSome = true

/-- The environment of a database that scans its tables from the start. -/
def ManagerEnv.scan (sha256 : List UInt8 → List UInt8) : ManagerEnv where
  sha256 := sha256
  firstRow := List.head?
  firstRow_mem := fun _ _ h => List.mem_of_mem_head? h
  firstRow_isSome := fun _ h => List.isSome_head?.mpr h

namespace Database

/-- The set that an agent request of the host sees as assigned. -/
def assignedSet (db : Database) (env : ManagerEnv) (host : Uuid) : Option Uuid :=
  env.firstRow ((db.assignments.select fun row => decide (row.hostId = host)).map
    Assignment.policySetId)

/-- `fetch_rules_for_policy_set`: the compiled policy as rows of texts. -/
def fetchRulesForPolicySet (db : Database) (policySetId : Uuid) : List RuleRow :=
  (db.compiledRules policySetId).map StoredRule.toRow

/-- The assigned rows, none for a host without a set. -/
def assignedRows (db : Database) : Option Uuid → List RuleRow
  | some policySetId => db.fetchRulesForPolicySet policySetId
  | none => []

/-- The hash expected under the assigned set. Without a set it is a text that is no hash. -/
def assignedHash (db : Database) (env : ManagerEnv) : Option Uuid → String
  | some policySetId => expectedHash env.sha256 (db.fetchRulesForPolicySet policySetId)
  | none => "empty"

/-- The default policies of the assigned set, as texts. -/
def assignedDefaults (db : Database) : Option Uuid → Option String × Option String
  | some policySetId =>
    match db.policySets.find? policySetId with
    | some set =>
      (set.defaultInputPolicy.map FirewallDefaultPolicy.asStr,
        set.defaultOutputPolicy.map FirewallDefaultPolicy.asStr)
    | none => (none, none)
  | none => (none, none)

/-- Record a check-in and mark the host healthy. -/
def recordCheckIn (db : Database) (now : Nat) (host : Uuid) (req : CheckInRequest) : Database :=
  { db with
    checkIns := db.checkIns ++ [{
      hostId := host
      rulesHash := req.rulesHash
      agentVersion := req.agentVersion
      backendType := req.backendType
      osInfo := req.osInfo
      uptimeSeconds := req.uptimeSeconds
      configVersion := req.configVersion
      checkedInAt := now }]
    hosts := db.hosts.update (fun row => decide (row.id = host))
      (fun row => { row with
        healthStatus := .healthy, lastHealthAt := some now,
        agentVersion := some req.agentVersion })
      fun _ => rfl }

/-- Record a drift snapshot. The foreign key demands the host, and a failed insert is ignored. -/
def recordDrift (db : Database) (now : Nat) (host : Uuid) (hash : String) (ruleCount : Nat)
    (source : String) : Database :=
  { db with
    driftSnapshots :=
      if db.hosts.has host then
        db.driftSnapshots ++ [⟨host, hash, ruleCount, source, now⟩]
      else db.driftSnapshots }

/-- The settings that a host has not seen yet. -/
def newConfig (db : Database) (host : Uuid) (seen : Int) : Option ConfigUpdate :=
  ((db.configOverrides.find? host).map fun row => {
    checkInIntervalSecs := row.checkInIntervalSecs
    pushEnabled := row.pushEnabled
    safeModeEnabled := row.safeModeEnabled
    backendOverride := row.backendOverride
    configVersion := row.configVersion }).filter fun config => decide (config.configVersion > seen)

/-- Delivery order: high priority first, then the older one. -/
def DeliverBefore (a b : PendingAction) : Prop :=
  b.priority < a.priority ∨ a.priority = b.priority ∧ a.createdAt ≤ b.createdAt

instance : DecidableRel DeliverBefore :=
  fun _ _ => inferInstanceAs (Decidable (_ ∨ _))

/-- The queued actions of a host that have not expired, in delivery order. -/
def dueActions (db : Database) (now : Nat) (host : Uuid) : List PendingAction :=
  ((db.pendingActions.select fun row => decide (row.hostId = host)).filter fun row =>
    decide (row.status = .queued ∧ now < row.expiresAt)).insertionSort DeliverBefore

/-- Mark the actions as delivered, by their ids. -/
def markDelivered (db : Database) (now : Nat) (actions : List PendingAction) : Database :=
  { db with
    pendingActions :=
      if actions = [] then db.pendingActions
      else
        db.pendingActions.update (fun row => decide (row.id ∈ actions.map PendingAction.id))
          (fun row => { row with status := .delivered, deliveredAt := some now }) fun _ => rfl }

/-- Mark one action as executed or failed, by its id. -/
def markResult (db : Database) (now : Nat) (id : Uuid) (success : Bool) : Database :=
  { db with
    pendingActions := db.pendingActions.update (fun row => decide (row.id = id))
      (fun row => { row with
        status := if success then .executed else .failed, executedAt := some now })
      fun _ => rfl }

end Database

/-- The wire form of a pending action. -/
def PendingAction.toDto (action : PendingAction) : PendingActionDto where
  id := action.id
  actionType := action.actionType.label
  payload := action.payload
  reason := action.reason

/-- `POST /check-in`. A certificate of a host that was removed fails on the foreign key of the
check-in record. -/
def checkIn (env : ManagerEnv) (now : Nat) (host : Uuid) (req : CheckInRequest) (db : Database) :
    Except AppError CheckInResponse × Database :=
  if db.hosts.has host then
    let db := db.recordCheckIn now host req
    let set := db.assignedSet env host
    let rules := db.assignedRows set
    let (defaultInput, defaultOutput) := db.assignedDefaults set
    let changed := rulesChanged req.rulesHash (db.assignedHash env set)
    let db :=
      if changed then
        db.recordDrift now host req.rulesHash rules.length "check_in_mismatch"
      else db
    let db :=
      if req.localDrift then
        db.recordDrift now host req.rulesHash rules.length "out_of_band"
      else db
    let config := db.newConfig host req.configVersion
    let actions := db.dueActions now host
    let db := db.markDelivered now actions
    (.ok {
      rulesChanged := changed
      rules := rules.map ruleToDto
      config := config
      pendingActions := actions.map PendingAction.toDto
      defaultInputPolicy := defaultInput
      defaultOutputPolicy := defaultOutput }, db)
  else (.error (.database "agent_check_ins_host_id_fkey"), db)

/-- The answer to a check-in, read off the state it starts in. -/
def checkInAnswer (env : ManagerEnv) (now : Nat) (host : Uuid) (req : CheckInRequest)
    (db : Database) : CheckInResponse where
  rulesChanged := rulesChanged req.rulesHash (db.assignedHash env (db.assignedSet env host))
  rules := (db.assignedRows (db.assignedSet env host)).map ruleToDto
  config := db.newConfig host req.configVersion
  pendingActions := (db.dueActions now host).map PendingAction.toDto
  defaultInputPolicy := (db.assignedDefaults (db.assignedSet env host)).1
  defaultOutputPolicy := (db.assignedDefaults (db.assignedSet env host)).2

/-- The state after the drift part of a check-in. -/
def checkInLogged (env : ManagerEnv) (now : Nat) (host : Uuid) (req : CheckInRequest)
    (db : Database) : Database :=
  let recorded := db.recordCheckIn now host req
  let count := (db.assignedRows (db.assignedSet env host)).length
  let mismatched :=
    if rulesChanged req.rulesHash (db.assignedHash env (db.assignedSet env host)) then
      recorded.recordDrift now host req.rulesHash count "check_in_mismatch"
    else recorded
  if req.localDrift then
    mismatched.recordDrift now host req.rulesHash count "out_of_band"
  else mismatched

/-- The drift part of a check-in keeps the tables that its answer is read from. -/
theorem checkInLogged_frame (env : ManagerEnv) (now : Nat) (host : Uuid) (req : CheckInRequest)
    (db : Database) :
    (checkInLogged env now host req db).configOverrides = db.configOverrides ∧
      (checkInLogged env now host req db).pendingActions = db.pendingActions := by
  unfold checkInLogged
  constructor <;> dsimp only <;> split <;> split <;> rfl

/-- What a check-in of a known host answers and does. -/
theorem checkIn_of_has {env : ManagerEnv} {now : Nat} {host : Uuid} {req : CheckInRequest}
    {db : Database} (h : db.hosts.has host = true) :
    checkIn env now host req db =
      (.ok (checkInAnswer env now host req db),
        (checkInLogged env now host req db).markDelivered now (db.dueActions now host)) := by
  obtain ⟨hconfig, hactions⟩ := checkInLogged_frame env now host req db
  have hnew : (checkInLogged env now host req db).newConfig host req.configVersion =
      db.newConfig host req.configVersion := by
    rw [Database.newConfig, hconfig, Database.newConfig]
  have hdue : (checkInLogged env now host req db).dueActions now host = db.dueActions now host := by
    rw [Database.dueActions, hactions, Database.dueActions]
  have heq : checkIn env now host req db =
      (.ok { checkInAnswer env now host req db with
          config := (checkInLogged env now host req db).newConfig host req.configVersion
          pendingActions := ((checkInLogged env now host req db).dueActions now host).map
            PendingAction.toDto },
        (checkInLogged env now host req db).markDelivered now
          ((checkInLogged env now host req db).dueActions now host)) := by
    rw [checkIn, if_pos h]
    rfl
  rw [heq, hnew, hdue]
  rfl

/-- A check-in of an unknown host is refused and changes nothing. -/
theorem checkIn_of_not_has {env : ManagerEnv} {now : Nat} {host : Uuid} {req : CheckInRequest}
    {db : Database} (h : db.hosts.has host = false) :
    checkIn env now host req db =
      (.error (.database "agent_check_ins_host_id_fkey"), db) := by
  rw [checkIn, if_neg (by simp [h])]

/-- `POST /check-in/result`. -/
def checkInResult (now : Nat) (host : Uuid) (req : CheckInResultRequest) (db : Database) :
    Database :=
  let db :=
    match req.actionId with
    | some id =>
      -- The action is looked up by its id alone, whichever host it belongs to.
      db.markResult now id req.success
    | none => db
  db.recordDrift now host req.newRulesHash 0 "agent_report"

/-- `GET /policy`. -/
def getPolicy (env : ManagerEnv) (host : Uuid) (db : Database) : List RuleDto :=
  (db.assignedRows (db.assignedSet env host)).map ruleToDto

/-- `GET /events`: how long the stream is held, in seconds. -/
def eventsHoldSecs (host : Uuid) (db : Database) : Nat :=
  let interval :=
    ((db.configOverrides.find? host).map HostConfigOverride.checkInIntervalSecs).getD 900
  (max (interval - 30) 30).toNat

/-- The requests of an agent. -/
inductive AgentRequest where
  | checkIn (body : CheckInRequest)
  | checkInResult (body : CheckInResultRequest)
  | policy
  | events
  | whoami
  deriving DecidableEq, Repr

/-- The answers to an agent. -/
inductive AgentResponse where
  | checkIn (body : CheckInResponse)
  | ok
  | policy (rules : List RuleDto)
  | events (holdSecs : Nat)
  | whoami (hostId : Uuid)
  deriving DecidableEq, Repr

/-- Serve a request on a connection whose certificate names `host`. -/
def serveAgent (env : ManagerEnv) (now : Nat) (host : Uuid) (request : AgentRequest)
    (db : Database) : Except AppError AgentResponse × Database :=
  match request with
  | .checkIn body =>
    ((checkIn env now host body db).1.map .checkIn, (checkIn env now host body db).2)
  | .checkInResult body => (.ok .ok, checkInResult now host body db)
  | .policy => (.ok (.policy (getPolicy env host db)), db)
  | .events => (.ok (.events (eventsHoldSecs host db)), db)
  | .whoami => (.ok (.whoami host), db)

end FirewallManager
