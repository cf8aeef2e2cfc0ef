import FirewallManager.Ca.Operations

/-!
# Enrolment

A host enrols in three phases. An admin issues a token for its name, the host presents the token
with a certificate signing request (CSR) and gets a polling token, and after an admin has approved
the request the host polls once for its bundle.

Every handler is a sequence of database statements. A call is modelled by how far it has come:
`submitNext`, `approveNext` and `pollNext` take a call over its next statement. `submitEnrollment`
is a submission that meets no other call, and `approveNext_eq_approveEnrollment` says that an
approval that meets no other call does what `approveEnrollment` does to the certificates.
-/

namespace FirewallManager

/-- What the handlers use beside the database: SHA-256, the cast to `inet`, the public key of a CSR
that can be signed, and the URL of the agent listener. -/
structure EnrollEnv where
  sha256 : List UInt8 → List UInt8
  inetText : String → Option String
  csrKey : String → Option (List UInt8)
  managerAgentUrl : String

/-- The form in which tokens are stored: SHA-256 in hexadecimal. -/
def EnrollEnv.hashToken (env : EnrollEnv) (token : String) : String :=
  Text.hexEncode (env.sha256 (Text.utf8 token))

/-- A row of `enrollment_tokens`. -/
structure EnrollToken where
  tokenHash : String
  hostFqdn : String
  expiresAt : Int
  usedAt : Option Nat
  revokedAt : Option Nat
  deriving DecidableEq, Repr

/-- A row of `enrollment_requests` with all that the handlers read. The polling token is stored as a
hash. -/
structure PendingEnrollment extends EnrollmentRequest where
  machineId : String
  pollingToken : String
  createdAt : Nat
  expiresAt : Nat
  deriving DecidableEq, Repr

/-- The tables of the enrolment, and the CA. The requests are those of `requests`, not those of
`pki`. -/
structure EnrollStore where
  tokens : Table EnrollToken.tokenHash
  requests : Table fun row : PendingEnrollment => row.id
  pki : PkiDatabase
  ca : CertAuthority

/-- The body of a submission. -/
structure SubmitEnrollmentRequest where
  token : String
  csr : String
  fqdn : String
  ipAddress : String
  deriving DecidableEq, Repr

/-- The body of `create_token`. -/
structure CreateTokenRequest where
  hostFqdn : String
  hostIp : Option String
  ttlHours : Option Int
  deriving DecidableEq, Repr

/-- The certificate of an agent: its subject is the id of the host. -/
structure AgentCert where
  subject : Uuid
  publicKey : List UInt8
  serial : Uuid
  issuer : CaIdentity
  deriving DecidableEq, Repr

/-- The bundle that an approved host fetches. -/
structure PkiBundle where
  serverCert : AgentCert
  checkInIntervalSecs : Int
  pushEnabled : Bool
  configVersion : Nat
  managerAgentUrl : String
  deriving DecidableEq, Repr

/-- A bundle that waits for its poll, under the hash of the polling token. -/
structure ApprovedEntry where
  pollingHash : String
  bundle : PkiBundle
  hostId : Uuid
  deriving DecidableEq, Repr

section Tokens

/-- The token with the time of its use. -/
def EnrollToken.use (now : Nat) (row : EnrollToken) : EnrollToken :=
  { row with usedAt := some now }

/-- The token with the time of its revocation. -/
def EnrollToken.revoke (now : Nat) (row : EnrollToken) : EnrollToken :=
  { row with revokedAt := some now }

/-- `create_token`. The token is drawn at random. -/
def createToken (env : EnrollEnv) (user : AuthUser) (now : Nat) (token : String)
    (req : CreateTokenRequest) (store : EnrollStore) : Except AppError String × EnrollStore :=
  if !user.role.isAdmin then (.error (.forbidden "Admin role required"), store)
  else if req.hostIp.any fun ip => (env.inetText ip).isNone then (.error (.database "inet"), store)
  else
    match store.tokens.insert?
        ⟨env.hashToken token, req.hostFqdn, now + req.ttlHours.getD 24 * 3600, none, none⟩ with
    | none => (.error (.database "enrollment_tokens_pkey"), store)
    | some tokens => (.ok token, { store with tokens := tokens })

/-- `revoke_token`. -/
def revokeToken (user : AuthUser) (now : Nat) (hash : String) (store : EnrollStore) :
    Except AppError Unit × EnrollStore :=
  if !user.role.isAdmin then (.error (.forbidden "Admin role required"), store)
  else
    (.ok (), { store with
      tokens := store.tokens.update (fun row => decide (row.tokenHash = hash))
        (EnrollToken.revoke now) fun _ => rfl })

end Tokens

section Submission

/-- The first statement of a submission, and what it checks: the token is unused and has not
expired. Whether it was revoked is not read. -/
def checkToken (now : Nat) (hash : String) (store : EnrollStore) : Except AppError Unit :=
  match store.tokens.find? hash with
  | none => .error (.badRequest "Invalid token")
  | some row =>
    if row.usedAt.isSome then .error (.badRequest "Token already used")
    else if row.expiresAt < now then .error (.badRequest "Token expired")
    else .ok ()

/-- The second statement: the token is for this host. -/
def checkFqdn (hash fqdn : String) (store : EnrollStore) : Except AppError Unit :=
  if (store.tokens.find? hash).map EnrollToken.hostFqdn = some fqdn then .ok ()
  else .error (.badRequest "FQDN does not match token")

/-- The third statement: the token is used. -/
def EnrollStore.markUsed (now : Nat) (hash : String) (store : EnrollStore) : EnrollStore :=
  { store with
    tokens := store.tokens.update (fun row => decide (row.tokenHash = hash))
      (EnrollToken.use now) fun _ => rfl }

/-- The row with the polling token and the CSR of a new submission. -/
def PendingEnrollment.resubmit (now : Nat) (hash csr : String) (row : PendingEnrollment) :
    PendingEnrollment :=
  { row with pollingToken := hash, csr := some csr, createdAt := now }

@[simp] theorem PendingEnrollment.id_resubmit (now : Nat) (hash csr : String)
    (row : PendingEnrollment) : (row.resubmit now hash csr).id = row.id :=
  rfl

/-- The last statement: a new request, or a new polling token and CSR for the pending one of the
machine. Polling tokens are unique. -/
def upsertRequest (env : EnrollEnv) (now : Nat) (req : SubmitEnrollmentRequest)
    (polling id : Uuid) (requests : Table fun row : PendingEnrollment => row.id) :
    Except AppError (Table fun row : PendingEnrollment => row.id) :=
  let machineId := req.fqdn ++ "-" ++ req.ipAddress
  let hash := env.hashToken polling.text
  match env.inetText req.ipAddress with
  | none => .error (.database "inet")
  | some ip =>
    if requests.rows.any fun row =>
        decide (row.pollingToken = hash ∧ row.machineId ≠ machineId) then
      .error (.database "enrollment_requests_polling_token_key")
    else if requests.rows.any fun row => decide (row.machineId = machineId) then
      .ok (requests.update (fun row => decide (row.machineId = machineId))
        (PendingEnrollment.resubmit now hash req.csr)
        (PendingEnrollment.id_resubmit now hash req.csr))
    else
      match requests.insert?
          ⟨⟨id, req.fqdn, ip, some req.csr⟩, machineId, hash, now, now + 24 * 3600⟩ with
      | none => .error (.database "enrollment_requests_pkey")
      | some requests => .ok requests

/-- How far a submission has come. -/
inductive SubmitPhase where
  | checked
  | matched
  | marked
  | returned (polling : Uuid)
  | failed (error : AppError)
  deriving DecidableEq, Repr

/-- A call of `submit_enrollment`. -/
structure SubmitCall where
  request : SubmitEnrollmentRequest
  phase : SubmitPhase
  deriving DecidableEq, Repr

/-- The phase after a check. -/
def SubmitPhase.after (phase : SubmitPhase) : Except AppError Unit → SubmitPhase
  | .ok () => phase
  | .error e => .failed e

/-- The first statement of a submission. -/
def submitStart (env : EnrollEnv) (now : Nat) (req : SubmitEnrollmentRequest)
    (store : EnrollStore) : SubmitPhase :=
  SubmitPhase.checked.after (checkToken now (env.hashToken req.token) store)

/-- The next statement of a submission. -/
def submitNext (env : EnrollEnv) (now : Nat) (polling id : Uuid) (call : SubmitCall)
    (store : EnrollStore) : SubmitPhase × EnrollStore :=
  let hash := env.hashToken call.request.token
  match call.phase with
  | .checked => (SubmitPhase.matched.after (checkFqdn hash call.request.fqdn store), store)
  | .matched => (.marked, store.markUsed now hash)
  | .marked =>
    match upsertRequest env now call.request polling id store.requests with
    | .ok requests => (.returned polling, { store with requests := requests })
    | .error e => (.failed e, store)
  | .returned polling => (.returned polling, store)
  | .failed e => (.failed e, store)

/-- `submit_enrollment`, when no other call comes between its statements. -/
def submitEnrollment (env : EnrollEnv) (now : Nat) (req : SubmitEnrollmentRequest)
    (polling id : Uuid) (store : EnrollStore) : Except AppError Uuid × EnrollStore :=
  let hash := env.hashToken req.token
  match checkToken now hash store with
  | .error e => (.error e, store)
  | .ok () =>
    match checkFqdn hash req.fqdn store with
    | .error e => (.error e, store)
    | .ok () =>
      let store := store.markUsed now hash
      match upsertRequest env now req polling id store.requests with
      | .error e => (.error e, store)
      | .ok requests => (.ok polling, { store with requests := requests })

/-- What a submission answers once it is over. -/
def SubmitPhase.result : SubmitPhase → Option (Except AppError Uuid)
  | .returned polling => some (.ok polling)
  | .failed e => some (.error e)
  | _ => none

/-- The statements of a submission that meets no other call are the handler. -/
theorem submitEnrollment_eq_steps (env : EnrollEnv) (now : Nat) (req : SubmitEnrollmentRequest)
    (polling id : Uuid) (store : EnrollStore) :
    let next := fun s : SubmitPhase × EnrollStore => submitNext env now polling id ⟨req, s.1⟩ s.2
    let last := next (next (next (submitStart env now req store, store)))
    last.1.result = some (submitEnrollment env now req polling id store).1 ∧
      last.2 = (submitEnrollment env now req polling id store).2 := by
  unfold submitStart submitEnrollment
  dsimp only
  cases checkToken now (env.hashToken req.token) store with
  | error e => exact ⟨rfl, rfl⟩
  | ok =>
    simp only [SubmitPhase.after, submitNext]
    cases checkFqdn (env.hashToken req.token) req.fqdn store with
    | error e => exact ⟨rfl, rfl⟩
    | ok =>
      dsimp only
      cases upsertRequest env now req polling id
          (store.markUsed now (env.hashToken req.token)).requests with
      | error e => exact ⟨rfl, rfl⟩
      | ok requests => exact ⟨rfl, rfl⟩

end Submission

section Approval

/-- `sign_csr`: the certificate is for the key of the CSR, under the id of the host. -/
def signCsr (env : EnrollEnv) (ca : CertAuthority) (csr : String) (host serial : Uuid) :
    Option AgentCert :=
  (env.csrKey csr).map fun key => ⟨host, key, serial, ca.issuer⟩

/-- How far an approval has come. The row is the one that it read at its start. -/
inductive ApprovePhase where
  | selected (row : PendingEnrollment)
  | free (row : PendingEnrollment)
  | registered (row : PendingEnrollment) (host : Uuid) (interval : Int)
  | signed (row : PendingEnrollment) (host : Uuid) (bundle : PkiBundle)
  | cached (host : Uuid)
  | approved
  | failed (error : EnrollmentError)
  deriving DecidableEq, Repr

/-- A call of `approve_enrollment`. -/
structure ApproveCall where
  user : AuthUser
  requestId : Uuid
  phase : ApprovePhase
  deriving DecidableEq, Repr

/-- The first statement of an approval. -/
def approveStart (user : AuthUser) (id : Uuid) (store : EnrollStore) : ApprovePhase :=
  if !user.role.isAdmin then .failed (.app (.forbidden "Admin role required"))
  else
    match store.requests.find? id with
    | none => .failed (.app (.notFound "Enrollment request not found"))
    | some row => .selected row

/-- Sign the CSR of a request and record the certificate. -/
def approveSign (env : EnrollEnv) (now : Nat) (draws : ApprovalDraws) (row : PendingEnrollment)
    (host : Uuid) (interval : Int) (store : EnrollStore) : ApprovePhase × EnrollStore :=
  match row.csr with
  | none => (.failed (.app (.badRequest "Enrollment request has no CSR")), store)
  | some csr =>
    match signCsr env store.ca csr host draws.serial with
    | none => (.failed (.internal "CA sign failed"), store)
    | some cert =>
      match store.pki.insertCertificate
          (leafRow store.ca now draws.certId host draws.serial) with
      | none => (.failed (.app (.database "certificates")), store)
      | some pki =>
        (.signed row host ⟨cert, interval, true, 1, env.managerAgentUrl⟩,
          { store with pki := pki })

/-- A host has the name and the address of the request. -/
def PkiDatabase.collides (pki : PkiDatabase) (req : EnrollmentRequest) : Bool :=
  pki.hostNames.rows.any fun row => decide (row.fqdn = req.fqdn ∧ row.ipAddress = req.ipAddress)

/-- Put a bundle into the map, in the place of one that is there under the same hash. -/
def cacheEntry (entry : ApprovedEntry) (approved : Table ApprovedEntry.pollingHash) :
    Table ApprovedEntry.pollingHash :=
  (approved.delete fun other => decide (other.pollingHash = entry.pollingHash)).insertNew entry

/-- The next statement of an approval. A host that came in after the check violates the constraint.
-/
def approveNext (env : EnrollEnv) (now : Nat) (draws : ApprovalDraws) (interval : Int)
    (call : ApproveCall) (store : EnrollStore) (approved : Table ApprovedEntry.pollingHash) :
    ApprovePhase × EnrollStore × Table ApprovedEntry.pollingHash :=
  match call.phase with
  | .selected row =>
    if store.pki.collides row.toEnrollmentRequest then
      (.failed (.app (.conflict "Host already registered")), store, approved)
    else (.free row, store, approved)
  | .free row =>
    if store.pki.collides row.toEnrollmentRequest then
      (.failed (.app (.database "hosts_fqdn_ip_unique")), store, approved)
    else
      match store.pki.registerHost row.toEnrollmentRequest draws.host interval with
      | none => (.failed (.app (.database "hosts_pkey")), store, approved)
      | some pki => (.registered row draws.host interval, { store with pki := pki }, approved)
  | .registered row host interval =>
    let (phase, store) := approveSign env now draws row host interval store
    (phase, store, approved)
  | .signed row host bundle =>
    (.cached host, store, cacheEntry ⟨row.pollingToken, bundle, host⟩ approved)
  | .cached _ =>
    (.approved, { store with
      requests := store.requests.delete fun row => decide (row.id = call.requestId) }, approved)
  | .approved => (.approved, store, approved)
  | .failed e => (.failed e, store, approved)

/-- `deny_enrollment`. -/
def denyEnrollment (user : AuthUser) (id : Uuid) (store : EnrollStore) :
    Except AppError Unit × EnrollStore :=
  if !user.role.isAdmin then (.error (.forbidden "Admin role required"), store)
  else
    (.ok (), { store with
      requests := store.requests.delete fun row => decide (row.id = id) })

/-- The database of the certificates, with the requests as far as an approval reads them. -/
def EnrollStore.view (store : EnrollStore) : PkiDatabase :=
  { store.pki with
    enrollments := {
      rows := store.requests.rows.map PendingEnrollment.toEnrollmentRequest
      nodup := by
        rw [List.map_map]
        exact store.requests.nodup } }

section View

variable {store : EnrollStore}

theorem find?_view (id : Uuid) :
    store.view.enrollments.find? id =
      (store.requests.find? id).map PendingEnrollment.toEnrollmentRequest := by
  show ((store.requests.rows.map PendingEnrollment.toEnrollmentRequest).filter
    fun row => decide (row.id = id)).head? = _
  rw [List.filter_map, List.head?_map]
  rfl

theorem enrollments_view_delete (id : Uuid) :
    { store with requests := store.requests.delete fun row => decide (row.id = id) :
      EnrollStore }.view.enrollments =
      store.view.enrollments.delete fun row => decide (row.id = id) := by
  have hrows : (store.requests.rows.filter fun row => !decide (row.id = id)).map
      PendingEnrollment.toEnrollmentRequest =
        (store.requests.rows.map PendingEnrollment.toEnrollmentRequest).filter
          fun row => !decide (row.id = id) := by
    rw [List.filter_map]
    rfl
  unfold EnrollStore.view Table.delete
  simp only [hrows]

theorem registerHost_view (req : EnrollmentRequest) (host : Uuid) (interval : Int) :
    store.view.registerHost req host interval =
      (store.pki.registerHost req host interval).map fun pki =>
        { store with pki := pki : EnrollStore }.view := by
  unfold PkiDatabase.registerHost EnrollStore.view
  cases store.pki.base.hosts.insert? ⟨host, none, .pending, none⟩ with
  | none => rfl
  | some hosts =>
    cases store.pki.hostNames.insert? ⟨host, req.fqdn, req.ipAddress⟩ with
    | none => rfl
    | some hostNames => rfl

theorem insertCertificate_view (row : Certificate) :
    store.view.insertCertificate row =
      (store.pki.insertCertificate row).map fun pki =>
        { store with pki := pki : EnrollStore }.view := by
  unfold PkiDatabase.insertCertificate EnrollStore.view
  by_cases hserial : row.serialNumber ∉ store.pki.certificates.rows.map Certificate.serialNumber
  · by_cases hid : store.pki.certificates.has row.id = false
    · simp only [dif_pos hserial, dif_pos hid]
      rfl
    · simp only [dif_pos hserial, dif_neg hid]
      rfl
  · simp only [dif_neg hserial]
    rfl

end View

/-- What an approval answers once it is over. -/
def ApprovePhase.result : ApprovePhase → Option (Except EnrollmentError Unit)
  | .approved => some (.ok ())
  | .failed e => some (.error e)
  | _ => none

/-- What an approval has after some more statements that meet no other call. -/
def approveSteps (env : EnrollEnv) (user : AuthUser) (now : Nat) (id : Uuid) (draws : ApprovalDraws)
    (interval : Int) (n : Nat) :
    ApprovePhase × EnrollStore × Table ApprovedEntry.pollingHash →
      ApprovePhase × EnrollStore × Table ApprovedEntry.pollingHash :=
  (fun s => approveNext env now draws interval ⟨user, id, s.1⟩ s.2.1 s.2.2)^[n]

/-- The statements ended with the answer and the tables of the handler. -/
def ApproveAgrees (last : ApprovePhase × EnrollStore × Table ApprovedEntry.pollingHash)
    (handler : Except EnrollmentError Unit × PkiDatabase) : Prop :=
  last.1.result = some handler.1 ∧ last.2.1.view = handler.2

/-- The part of `approveEnrollment` that comes after the host was inserted. -/
def PkiDatabase.issueLeaf (validCsr : String → Bool) (now : Nat) (id : Uuid)
    (draws : ApprovalDraws) (ca : CertAuthority) (csr : Option String) (db : PkiDatabase) :
    Except EnrollmentError Unit × PkiDatabase :=
  match csr with
  | none => (.error (.app (.badRequest "Enrollment request has no CSR")), db)
  | some csr =>
    if !validCsr csr then (.error (.internal "CA sign failed"), db)
    else
      match db.insertCertificate (leafRow ca now draws.certId draws.host draws.serial) with
      | none => (.error (.app (.database "certificates")), db)
      | some db =>
        (.ok (), { db with
          enrollments := db.enrollments.delete fun row => decide (row.id = id) })

section Steps

variable {env : EnrollEnv} {user : AuthUser} {now : Nat} {id : Uuid} {draws : ApprovalDraws}
  {interval : Int} {store : EnrollStore} {approved : Table ApprovedEntry.pollingHash}

theorem approveSteps_succ (n : Nat) (phase : ApprovePhase) :
    approveSteps env user now id draws interval (n + 1) (phase, store, approved) =
      approveSteps env user now id draws interval n
        (approveNext env now draws interval ⟨user, id, phase⟩ store approved) :=
  Function.iterate_succ_apply _ n _

theorem approveNext_registered (row : PendingEnrollment) (host : Uuid) (stored : Int) :
    approveNext env now draws interval ⟨user, id, .registered row host stored⟩ store approved =
      ((approveSign env now draws row host stored store).1,
        (approveSign env now draws row host stored store).2, approved) :=
  rfl

theorem approveAgrees_failed (n : Nat) (e : EnrollmentError) :
    ApproveAgrees (approveSteps env user now id draws interval n (.failed e, store, approved))
      (.error e, store.view) := by
  rw [approveSteps, Function.iterate_fixed rfl]
  exact ⟨rfl, rfl⟩

theorem approveAgrees_registered (row : PendingEnrollment) :
    ApproveAgrees
      (approveSteps env user now id draws interval 3
        (.registered row draws.host interval, store, approved))
      (store.view.issueLeaf (fun csr => (env.csrKey csr).isSome) now id draws store.ca
        row.csr) := by
  rw [approveSteps_succ, approveNext_registered]
  unfold approveSign PkiDatabase.issueLeaf
  cases row.csr with
  | none => exact approveAgrees_failed 2 _
  | some csr =>
    cases hkey : env.csrKey csr with
    | none =>
      simp only [signCsr, hkey]
      exact approveAgrees_failed 2 _
    | some key =>
      simp only [signCsr, hkey, Option.map_some, Option.isSome_some, Bool.not_true,
        Bool.false_eq_true, if_false, insertCertificate_view]
      cases store.pki.insertCertificate
          (leafRow store.ca now draws.certId draws.host draws.serial) with
      | none => exact approveAgrees_failed 2 _
      | some pki =>
        simp only [Option.map_some, ← enrollments_view_delete]
        exact ⟨rfl, rfl⟩

/-- The statements of an approval that meets no other call are `approveEnrollment`, the map of
bundles apart. -/
theorem approveNext_eq_approveEnrollment (env : EnrollEnv) (user : AuthUser) (now : Nat) (id : Uuid)
    (draws : ApprovalDraws) (interval : Int) (store : EnrollStore)
    (approved : Table ApprovedEntry.pollingHash) :
    ApproveAgrees
      (approveSteps env user now id draws interval 5
        (approveStart user id store, store, approved))
      (approveEnrollment (fun csr => (env.csrKey csr).isSome) user now id draws interval store.ca
        store.view) := by
  rw [approveStart, approveEnrollment]
  cases user.role.isAdmin with
  | false => exact approveAgrees_failed 5 _
  | true =>
    simp only [Bool.not_true, Bool.false_eq_true, if_false, find?_view]
    cases store.requests.find? id with
    | none => exact approveAgrees_failed 5 _
    | some row =>
      have hcollides : (store.view.hostNames.rows.any fun name =>
          decide (name.fqdn = row.fqdn ∧ name.ipAddress = row.ipAddress)) =
            store.pki.collides row.toEnrollmentRequest := rfl
      simp only [Option.map_some, hcollides, registerHost_view, approveSteps_succ 4,
        approveNext]
      cases hfree : store.pki.collides row.toEnrollmentRequest with
      | true => exact approveAgrees_failed 4 _
      | false =>
        simp only [Bool.false_eq_true, if_false, approveSteps_succ 3, approveNext, hfree]
        cases store.pki.registerHost row.toEnrollmentRequest draws.host interval with
        | none => exact approveAgrees_failed 3 _
        | some pki => exact approveAgrees_registered row

end Steps

end Approval

section Poll

/-- What a poll answers. -/
inductive PollAnswer where
  | approved (bundle : PkiBundle) (hostId : Uuid)
  | pending
  | notFound (message : String)
  deriving DecidableEq, Repr

/-- How far a poll has come. -/
inductive PollPhase where
  | missed
  | answered (answer : PollAnswer)
  deriving DecidableEq, Repr

/-- A call of `poll_enrollment_status`. -/
structure PollCall where
  token : String
  phase : PollPhase
  deriving DecidableEq, Repr

/-- The first step of a poll takes the bundle out of the map. -/
def pollStart (env : EnrollEnv) (token : String) (approved : Table ApprovedEntry.pollingHash) :
    PollPhase × Table ApprovedEntry.pollingHash :=
  match approved.find? (env.hashToken token) with
  | none => (.missed, approved)
  | some entry =>
    (.answered (.approved entry.bundle entry.hostId),
      approved.delete fun other => decide (other.pollingHash = env.hashToken token))

/-- The second step looks for a pending request. -/
def pollNext (env : EnrollEnv) (now : Nat) (call : PollCall) (store : EnrollStore) : PollPhase :=
  match call.phase with
  | .missed =>
    if store.requests.rows.any fun row =>
        decide (row.pollingToken = env.hashToken call.token ∧ now < row.expiresAt) then
      .answered .pending
    else .answered (.notFound "Enrollment not found or expired")
  | .answered answer => .answered answer

end Poll

end FirewallManager
