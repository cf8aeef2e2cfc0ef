import FirewallManager.Audit.Log
import FirewallManager.Auth.Removal
import FirewallManager.Manager.Operations
import FirewallManager.System.ConfigVersion

/-!
# The trail of administrative changes

All state-changing requests of administrators and operators, over one state: accounts, settings,
hosts and their protected networks, groups, rules, policy sets and assignments, enrolment and
certificates. A request that succeeds hands its events to `log_event`, which inserts a row for each
of them and ignores its failures.

The insert binds the details and the address of an event as texts to columns of the types `jsonb`
and `inet`, so PostgreSQL refuses it (`auditInsert_refused`), and the log stays empty. `audited_iff`
says so of every run of requests, and `silent_changes` is a run of successful ones. Two requests
cannot even succeed, for reasons of the same kind (`updateHost_fails`, `addProtectedCidr_fails`).
-/

namespace FirewallManager

/-! ## State -/

/-- An event that a handler hands to `log_event`, as far as it decides the row. -/
structure AuditEvent where
  action : String
  actorUserId : Option Uuid
  targetType : String
  targetId : String
  deriving DecidableEq, Repr

/-- The insert of `log_event`: its columns, and the types of what is bound to them. Only the action
has a cast. -/
def auditInsert : List Sql.Binding :=
  [⟨"action", .enum "audit_action", .enum "audit_action"⟩, ⟨"actor_user_id", .uuid, .uuid⟩,
    ⟨"actor_username", .text, .text⟩, ⟨"target_type", .text, .text⟩, ⟨"target_id", .text, .text⟩,
    ⟨"details", .jsonb, .text⟩, ⟨"ip_address", .inet, .text⟩, ⟨"request_id", .text, .text⟩,
    ⟨"created_at", .timestamptz, .timestamptz⟩, ⟨"row_hash", .text, .text⟩,
    ⟨"prev_hash", .text, .text⟩]

/-- The details are the first column that does not take its value. -/
theorem auditInsert_refused :
    Sql.checkTypes auditInsert = .error (.datatypeMismatch "details" .jsonb .text) := by
  decide

/-- A row of `host_protected_cidrs`. -/
structure ProtectedCidrRow where
  hostId : Uuid
  cidr : String
  label : String
  createdBy : Option Uuid
  deriving DecidableEq, Repr

/-- What the handlers use beside the database. -/
structure AdminEnv where
  account : AccountEnv
  enroll : EnrollEnv

/-- The manager as administrators see it. The issuers of tokens stand beside the tokens, and `trail`
has the events of the rows of `audit_log`. -/
structure AdminState where
  accounts : AuthStore
  config : Table SettingRow.key
  authConfig : AuthConfig
  store : EnrollStore
  approved : Table ApprovedEntry.pollingHash
  acceptor : Option (List Crl)
  protectedCidrs : Table fun row : ProtectedCidrRow => (row.hostId, row.cidr)
  tokenIssuers : List (String × Uuid)
  trail : List AuditEvent

/-- What a request can answer beside success. -/
inductive AdminError where
  | app (error : AppError)
  | sql (error : Sql.SqlError)
  | request (error : RequestError)
  | enrollment (error : EnrollmentError)
  deriving DecidableEq, Repr

/-- The state-changing requests. -/
inductive AdminRequest where
  | policy (operation : Operation)
  | updateHost (id : Uuid) (displayName notes : Option String)
  | addProtectedCidr (id : Uuid) (cidr : String) (label : Option String)
  | createUser (id : Uuid) (salt : Salt) (body : CreateUserRequest)
  | updateUser (target : Uuid) (body : UpdateUserRequest)
  | deleteUser (target : Uuid)
  | updateSettings (body : UpdateSettingsRequest)
  | updateIpWhitelist (entries : List String)
  | updateTrustedProxies (entries : List String)
  | updateOidcConfig
  | updateSmtpConfig
  | approveEnrollment (id : Uuid) (draws : ApprovalDraws)
  | denyEnrollment (id : Uuid)
  | createToken (token : String) (body : CreateTokenRequest)
  | revokeToken (hash : String)
  | revokeCert (id : Uuid) (filesReadable : Bool)

/-- What a handler answers, the state it leaves, and the events that it hands to `log_event` if it
succeeds. -/
structure Outcome where
  answer : Except AdminError Unit
  state : AdminState
  events : List AuditEvent

namespace AdminState

variable (state : AdminState)

/-- What the handlers of the settings work on. -/
def settings : Settings :=
  ⟨state.config, state.store.pki.base.configOverrides, state.authConfig⟩

/-- The state with other settings. -/
def withSettings (settings : Settings) : AdminState :=
  { state with
    config := settings.config
    authConfig := settings.auth
    store := { state.store with
      pki := { state.store.pki with
        base := { state.store.pki.base with configOverrides := settings.overrides } } } }

/-- The actor of the event has an account. -/
def knows (event : AuditEvent) : Bool :=
  match event.actorUserId with
  | none => true
  | some actor => state.accounts.users.has actor

/-- `log_event`. An insert that would be taken adds a row if the action is a label of its type and
the actor has an account. -/
def logEvent (event : AuditEvent) : AdminState :=
  match Sql.checkTypes auditInsert with
  | .error _ => state
  | .ok () =>
    if event.action ∈ auditActions ∧ state.knows event = true then
      { state with trail := state.trail ++ [event] }
    else state

/-- `DELETE FROM users` with its cascades. The tokens that the user has issued go with the user, and
other rows that name the user lose the reference. -/
def removeUser (target : Uuid) : AdminState :=
  { state with
    accounts := state.accounts.removeUser target
    store := { state.store with
      tokens := state.store.tokens.delete fun row =>
        decide ((row.tokenHash, target) ∈ state.tokenIssuers)
      pki := { state.store.pki with
        base := { state.store.pki.base with
          assignments := state.store.pki.base.assignments.update
            (fun row => decide (row.assignedBy = some target))
            (fun row => { row with assignedBy := none }) fun _ => rfl
          operatorHostGroups := state.store.pki.base.operatorHostGroups.delete fun row =>
            decide (row.userId = target) } } }
    protectedCidrs := state.protectedCidrs.update
      (fun row => decide (row.createdBy = some target))
      (fun row => { row with createdBy := none }) fun _ => rfl
    trail := state.trail.map fun event =>
      if event.actorUserId = some target then { event with actorUserId := none } else event }

end AdminState

/-! ## Handlers -/

section Handlers

variable (env : AdminEnv) (now : Nat) (user : RequestUser) (state : AdminState)

/-- The outcome of a handler with one event. -/
def answered {α : Type} (result : Except AdminError α) (after : AdminState) (event : AuditEvent) :
    Outcome :=
  ⟨result.map fun _ => (), after, [event]⟩

/-- An event of the user. -/
def userEvent (action targetType targetId : String) : AuditEvent :=
  ⟨action, some user.userId, targetType, targetId⟩

/-- The events of an operation on the policies. Those on host groups have none. -/
def operationEvents (db : Database) : Operation → List AuditEvent
  | .deleteHost id => [userEvent user "host_removed" "host" id.text]
  | .assignPolicySet host _ => [userEvent user "policy_assigned" "host" host.text]
  | .unassignPolicySet host _ => [userEvent user "policy_unassigned" "host" host.text]
  | .deploymentAssign req =>
    (Deployment.resolveHostIds db req.hostIds req.groupIds).map fun host =>
      userEvent user "policy_assigned" "host" host.text
  | .deploymentUnassign req =>
    (Deployment.resolveHostIds db req.hostIds req.groupIds).map fun host =>
      userEvent user "policy_unassigned" "host" host.text
  | .createGroup .. | .deleteGroup .. | .addHostToGroup .. | .removeHostFromGroup .. => []
  | .createRuleGroup id _ _ => [userEvent user "rule_group_created" "rule_group" id.text]
  | .updateRuleGroup id _ _ => [userEvent user "rule_group_changed" "rule_group" id.text]
  | .deleteRuleGroup id => [userEvent user "rule_group_deleted" "rule_group" id.text]
  | .createRuleInGroup id _ _ => [userEvent user "rule_created" "rule" id.text]
  | .reorderGroupRules groupId _ =>
    [userEvent user "rule_group_changed" "rule_group" groupId.text]
  | .updateRule id _ => [userEvent user "rule_updated" "rule" id.text]
  | .deleteRule id => [userEvent user "rule_deleted" "rule" id.text]
  | .createPolicySet id _ _ _ _ => [userEvent user "policy_set_created" "policy_set" id.text]
  | .updatePolicySet id _ | .deletePolicySet id | .addGroupToSet id _ _
  | .removeGroupFromSet id _ | .reorderGroups id _ =>
    [userEvent user "policy_set_changed" "policy_set" id.text]

/-- The operations on the policies. A removed host takes its certificates and its protected networks
with it. -/
def policyRequest (operation : Operation) : Outcome :=
  let db := state.store.pki.base
  let (answer, base) := perform env.enroll.inetText user.toAuthUser operation db
  let after := { state with
    store := { state.store with pki := { state.store.pki with base := base } } }
  let cascaded :=
    match operation, answer with
    | .deleteHost id, .ok () =>
      { after with
        store := { after.store with pki := { after.store.pki.without id with base := base } }
        protectedCidrs := after.protectedCidrs.delete fun row => decide (row.hostId = id) }
    | _, _ => after
  ⟨answer.mapError .app, cascaded, operationEvents user db operation⟩

/-- `PUT /hosts/{id}`. The name and the notes that it writes are read by nobody here. The updated
row is read back, with its address as a text. -/
def updateHost (id : Uuid) : Outcome :=
  if !user.role.canWrite then
    ⟨.error (.app (.forbidden "Write access required")), state, []⟩
  else if state.store.pki.base.hosts.has id then
    ⟨(Sql.checkTypes [⟨"ip_address", .inet, .text⟩]).mapError .sql, state, []⟩
  else ⟨.error (.app (.notFound "Host not found")), state, []⟩

/-- The insert of a protected network. -/
def protectedCidrInsert : List Sql.Binding :=
  [⟨"host_id", .uuid, .uuid⟩, ⟨"cidr", .inet, .text⟩, ⟨"label", .text, .text⟩,
    ⟨"created_by", .uuid, .uuid⟩]

/-- `POST /hosts/{id}/protected-cidrs`. The network is bound as a text, without a cast. -/
def addProtectedCidr (id : Uuid) (cidr : String) (label : Option String) : Outcome :=
  if !user.role.isAdmin then
    ⟨.error (.app (.forbidden "Admin role required")), state, []⟩
  else
    match Sql.checkTypes protectedCidrInsert with
    | .error e => ⟨.error (.sql e), state, []⟩
    | .ok () =>
      if state.store.pki.base.hosts.has id then
        ⟨.ok (), { state with
          protectedCidrs := state.protectedCidrs.insertNew
            ⟨id, cidr, label.getD "", some user.userId⟩ }, []⟩
      else ⟨.error (.app (.database "host_protected_cidrs_host_id_fkey")), state, []⟩

/-- `PUT /settings/trusted-proxies`. -/
def updateTrustedProxies (entries : List String) : Outcome :=
  if !user.role.isAdmin then
    ⟨.error (.app (.forbidden "Admin role required")), state, []⟩
  else
    match entries.mapM (validateCidrOrIp env.account.text) with
    | .error bad =>
      ⟨.error (.app (.badRequest ("Invalid IP/CIDR entry: '" ++ bad ++
        "'. Use formats like 10.0.0.0/8, 192.168.1.0/24, or 10.0.0.1"))), state, []⟩
    | .ok validated =>
      ⟨.ok (), { state with
        config := setConfig state.config "trusted_proxies" (.ofStrings validated)
        authConfig := { state.authConfig with
          trustedProxies := validated.filterMap env.account.text.parseNet } }, []⟩

/-- `PUT /settings/oidc` and `PUT /settings/smtp`, which store nothing. -/
def updateNothing (section' : String) : Outcome :=
  if !user.role.isAdmin then
    ⟨.error (.app (.forbidden "Admin role required")), state, []⟩
  else ⟨.ok (), state, [userEvent user "config_changed" "settings" section']⟩

/-- `DELETE /users/{id}`. -/
def deleteUserRequest (target : Uuid) : Outcome :=
  if !user.role.isAdmin then
    ⟨.error (.request (.failed (.forbidden "Admin role required"))), state, []⟩
  else ⟨.ok (), state.removeUser target, [userEvent user "user_deleted" "user" target.text]⟩

/-- `approve_enrollment`. Five statements end every approval. -/
def approveRequest (id : Uuid) (draws : ApprovalDraws) : Outcome :=
  let last := approveSteps env.enroll user.toAuthUser now id draws
    (globalCheckInInterval state.config) 5
    (approveStart user.toAuthUser id state.store, state.store, state.approved)
  let after := { state with store := last.2.1, approved := last.2.2 }
  match last.1 with
  | .failed e => ⟨.error (.enrollment e), after, []⟩
  | _ => ⟨.ok (), after, [userEvent user "host_enrolled" "host" draws.host.text]⟩

/-- `POST /certificates/{id}/revoke`. -/
def revokeRequest (id : Uuid) (filesReadable : Bool) : Outcome :=
  let (answer, pki) := revokeCert user.toAuthUser now id filesReadable
    ⟨state.store.pki, state.store.ca, state.acceptor⟩
  answered (answer.mapError .app) { state with
      store := { state.store with pki := pki.db }
      acceptor := pki.acceptor }
    (userEvent user "certificate_revoked" "certificate" id.text)

/-- The handler of a request. -/
def handleRequest : AdminRequest → Outcome
  | .policy operation => policyRequest env user state operation
  | .updateHost id _ _ => updateHost user state id
  | .addProtectedCidr id cidr label => addProtectedCidr user state id cidr label
  | .createUser id salt body =>
    let (result, accounts) := createUser env.account id salt body user state.accounts
    answered (result.mapError .request) { state with accounts := accounts }
      (userEvent user "user_created" "user" id.text)
  | .updateUser target body =>
    let (result, accounts) := updateUser target body user state.accounts
    answered (result.mapError .request) { state with accounts := accounts }
      (userEvent user "user_updated" "user" target.text)
  | .deleteUser target => deleteUserRequest user state target
  | .updateSettings body =>
    let (result, settings) := updateSettings user.toAuthUser body state.settings
    answered (result.mapError .app) (state.withSettings settings)
      (userEvent user "config_changed" "system" "settings")
  | .updateIpWhitelist entries =>
    let (result, settings) := updateIpWhitelist env.account.text user entries state.settings
    answered (result.mapError .app) (state.withSettings settings)
      (userEvent user "config_changed" "settings" "ip_whitelist")
  | .updateTrustedProxies entries => updateTrustedProxies env user state entries
  | .updateOidcConfig => updateNothing user state "oidc"
  | .updateSmtpConfig => updateNothing user state "smtp"
  | .approveEnrollment id draws => approveRequest env now user state id draws
  | .denyEnrollment id =>
    let (result, store) := denyEnrollment user.toAuthUser id state.store
    ⟨result.mapError .app, { state with store := store }, []⟩
  | .createToken token body =>
    let (result, store) := createToken env.enroll user.toAuthUser now token body state.store
    answered (result.mapError .app)
      { state with
        store := store
        tokenIssuers :=
          match result with
          | .ok _ => (env.enroll.hashToken token, user.userId) :: state.tokenIssuers
          | .error _ => state.tokenIssuers }
      (userEvent user "enrollment_token_issued" "enrollment" body.hostFqdn)
  | .revokeToken hash =>
    let (result, store) := revokeToken user.toAuthUser now hash state.store
    answered (result.mapError .app) { state with store := store }
      (userEvent user "enrollment_token_revoked" "enrollment" hash)
  | .revokeCert id filesReadable => revokeRequest now user state id filesReadable

/-- The request inserts a row that refers to its user. -/
def refersToUser : AdminRequest → Bool
  | .policy (.createRuleGroup _ _ _) => true
  | .policy (.createRuleInGroup _ _ _) => true
  | .policy (.createPolicySet _ _ _ _ _) => true
  | .policy (.assignPolicySet host set) =>
    !state.store.pki.base.assignments.has (host, set)
  | .policy (.deploymentAssign req) =>
    (Deployment.resolveHostIds state.store.pki.base req.hostIds req.groupIds).any fun host =>
      !state.store.pki.base.assignments.has (host, req.policySetId)
  | .createToken _ _ => true
  | _ => false

/-- Serve a request. The foreign keys to `users` are checked by the inserts, and the events of a
request that succeeds are logged. -/
def serveAdmin (request : AdminRequest) : Except AdminError Unit × AdminState :=
  if refersToUser state request && !state.accounts.users.has user.userId then
    (.error (.app (.database "users_fkey")), state)
  else
    let outcome := handleRequest env now user state request
    match outcome.answer with
    | .error e => (.error e, outcome.state)
    | .ok () => (.ok (), outcome.events.foldl AdminState.logEvent outcome.state)

end Handlers

/-! ## What a request leaves in the log -/

section Log

variable {env : AdminEnv} {now : Nat} {user : RequestUser} {state : AdminState}

/-- A host cannot be updated with success, because its row cannot be read back. -/
theorem updateHost_fails (id : Uuid) : ∃ e, (updateHost user state id).answer = .error e := by
  unfold updateHost
  split
  · exact ⟨_, rfl⟩
  · split
    · exact ⟨_, rfl⟩
    · exact ⟨_, rfl⟩

/-- A protected network cannot be added. -/
theorem addProtectedCidr_fails (id : Uuid) (cidr : String) (label : Option String) :
    ∃ e, (addProtectedCidr user state id cidr label).answer = .error e := by
  unfold addProtectedCidr
  split
  · exact ⟨_, rfl⟩
  · exact ⟨_, rfl⟩

theorem AdminState.logEvent_eq (state : AdminState) (event : AuditEvent) :
    state.logEvent event = state := by
  rw [logEvent, auditInsert_refused]

/-- No list of events changes anything. -/
theorem AdminState.foldl_logEvent (state : AdminState) (events : List AuditEvent) :
    events.foldl AdminState.logEvent state = state := by
  induction events with
  | nil => rfl
  | cons event events ih => rw [List.foldl_cons, logEvent_eq, ih]

/-- No handler adds a row by itself. A removed user is taken out of the rows, which stay. -/
theorem length_trail_handleRequest (request : AdminRequest) :
    (handleRequest env now user state request).state.trail.length = state.trail.length := by
  cases request with
  | policy operation =>
    show (policyRequest env user state operation).state.trail.length = _
    unfold policyRequest
    dsimp only
    split <;> rfl
  | updateHost id displayName notes =>
    show (updateHost user state id).state.trail.length = _
    unfold updateHost
    split
    · rfl
    · split <;> rfl
  | addProtectedCidr id cidr label =>
    show (addProtectedCidr user state id cidr label).state.trail.length = _
    unfold addProtectedCidr
    split <;> rfl
  | deleteUser target =>
    show (deleteUserRequest user state target).state.trail.length = _
    unfold deleteUserRequest
    split
    · rfl
    · exact List.length_map _
  | updateTrustedProxies entries =>
    show (updateTrustedProxies env user state entries).state.trail.length = _
    unfold updateTrustedProxies
    split
    · rfl
    · split <;> rfl
  | updateOidcConfig | updateSmtpConfig =>
    show (updateNothing user state _).state.trail.length = _
    unfold updateNothing
    split <;> rfl
  | approveEnrollment id draws =>
    show (approveRequest env now user state id draws).state.trail.length = _
    unfold approveRequest
    dsimp only
    split <;> rfl
  | _ => rfl

end Log

/-! ## Runs of requests -/

/-- A request, with its user and its time. -/
structure AdminCall where
  now : Nat
  user : RequestUser
  request : AdminRequest

/-- The state after a request. -/
def adminStep (env : AdminEnv) (state : AdminState) (call : AdminCall) : AdminState :=
  (serveAdmin env call.now call.user state call.request).2

namespace AdminCall

/-- The request succeeds. -/
def Succeeds (env : AdminEnv) (state : AdminState) (call : AdminCall) : Prop :=
  (serveAdmin env call.now call.user state call.request).1 = .ok ()

/-- The log is longer after the request. -/
def AddsRow (env : AdminEnv) (state : AdminState) (call : AdminCall) : Prop :=
  state.trail.length < (adminStep env state call).trail.length

instance (env : AdminEnv) (state : AdminState) (call : AdminCall) :
    Decidable (call.Succeeds env state) :=
  inferInstanceAs (Decidable (_ = _))

instance (env : AdminEnv) (state : AdminState) (call : AdminCall) :
    Decidable (call.AddsRow env state) :=
  inferInstanceAs (Decidable (_ < _))

end AdminCall

section Runs

variable {env : AdminEnv} {state : AdminState} {call : AdminCall}

/-- No request makes the log longer, whether it succeeds or not. -/
theorem length_trail_adminStep (env : AdminEnv) (state : AdminState) (call : AdminCall) :
    (adminStep env state call).trail.length = state.trail.length := by
  have hhandler : (handleRequest env call.now call.user state call.request).state.trail.length =
      state.trail.length := length_trail_handleRequest call.request
  unfold adminStep serveAdmin
  split
  next => rfl
  next =>
    dsimp only
    split
    next => exact hhandler
    next =>
      rw [AdminState.foldl_logEvent]
      exact hhandler

/-- **No request is audited.** From every state, each request of a run adds a row to the log only if
there is no request in the run. -/
theorem audited_iff (env : AdminEnv) (start : AdminState) (calls : List AdminCall) :
    Runs.Meets (adminStep env) (AdminCall.AddsRow env · ·) start calls ↔ calls = [] := by
  cases calls with
  | nil => exact iff_of_true trivial rfl
  | cons call calls =>
    refine iff_of_false ?_ (List.cons_ne_nil call calls)
    rintro ⟨hadds, -⟩
    exact absurd (length_trail_adminStep env start call) (Nat.ne_of_gt hadds)

end Runs

/-- An admin with a session. -/
def firstAdmin : RequestUser where
  userId := ⟨1⟩
  username := "admin"
  role := .admin
  claims := issuedClaims 100 ⟨2⟩ ⟨1⟩ "admin" "admin"
  ip := none

/-- The environment of the requests, with UUIDs that can be read. -/
def plainAdmin : AdminEnv := ⟨plainAccounts, plainEnv⟩

/-- A manager with two accounts and an empty log. -/
def quietManager : AdminState where
  accounts := adminAndOperator
  config := .empty
  authConfig := openConfig
  store := oneToken
  approved := .empty
  acceptor := none
  protectedCidrs := .empty
  tokenIssuers := []
  trail := []

/-- Requests on policies, groups, settings and accounts. -/
def silentCalls : List AdminCall :=
  [⟨200, firstAdmin, .policy (.createPolicySet ⟨30⟩ "base" none none none)⟩,
    ⟨201, firstAdmin, .policy (.createGroup ⟨41⟩ "racks" none)⟩,
    ⟨202, firstAdmin, .updateTrustedProxies []⟩,
    ⟨203, firstAdmin, .deleteUser ⟨1⟩⟩]

/-- All requests of the run succeed, and none of them adds a row. -/
theorem silent_changes :
    Runs.Meets (adminStep plainAdmin) (AdminCall.Succeeds plainAdmin · ·) quietManager
        silentCalls ∧
      Runs.Meets (adminStep plainAdmin) (fun state call => ¬call.AddsRow plainAdmin state)
        quietManager silentCalls := by
  refine ⟨⟨?_, ?_, ?_, ?_, trivial⟩, ⟨?_, ?_, ?_, ?_, trivial⟩⟩ <;> decide +kernel

end FirewallManager
