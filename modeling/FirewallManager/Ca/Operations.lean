import FirewallManager.Ca.Authority
import FirewallManager.Lib.Runs

/-!
# Operations on certificates

The operations that touch the table of certificates: approving an enrolment issues one, revoking
marks one, deleting a host takes its certificates with it, and a restart may bring another issuing
CA. For each of them there is one lemma that says what it does to the table, and a run of `pkiStep`
is a history of them.
-/

namespace FirewallManager

open List

/-- The manager's state as far as certificates go: the database, the certificate authority that was
loaded at the start, and the CRLs that the agent listener enforces, if there is a listener. -/
structure PkiState where
  db : PkiDatabase
  ca : CertAuthority
  acceptor : Option (List Crl)

/-- The errors of an approval. -/
inductive EnrollmentError where
  | app (error : AppError)
  | internal (message : String)
  deriving DecidableEq, Repr

namespace Certificate

/-- The row with its certificate revoked. -/
def revoke (now : Nat) (cert : Certificate) : Certificate :=
  { cert with status := .revoked, revokedAt := some now }

@[simp] theorem id_revoke (now : Nat) (cert : Certificate) : (cert.revoke now).id = cert.id :=
  rfl

@[simp] theorem serialNumber_revoke (now : Nat) (cert : Certificate) :
    (cert.revoke now).serialNumber = cert.serialNumber :=
  rfl

end Certificate

namespace PkiDatabase

/-- `UPDATE certificates SET status = 'revoked', revoked_at = NOW() WHERE id = …`. -/
def markRevoked (db : PkiDatabase) (now : Nat) (id : Uuid) : PkiDatabase :=
  { db with
    certificates := db.certificates.update (fun row => decide (row.id = id))
      (Certificate.revoke now)
      (Certificate.id_revoke now)
    serials_nodup := by
      rw [Table.map_update (Certificate.serialNumber_revoke now)]
      exact db.serials_nodup }

/-- Insert a certificate. Its id and its serial number have to be free. -/
def insertCertificate (db : PkiDatabase) (row : Certificate) : Option PkiDatabase :=
  if hserial : row.serialNumber ∉ db.certificates.rows.map Certificate.serialNumber then
    if hid : db.certificates.has row.id = false then
      some { db with
        certificates := db.certificates.append row hid
        serials_nodup := by
          show ((db.certificates.rows ++ [row]).map Certificate.serialNumber).Nodup
          rw [map_append, map_singleton, nodup_append]
          refine ⟨db.serials_nodup, nodup_singleton _, ?_⟩
          intro serial hmem serial' hmem' heq
          rw [heq, mem_singleton.mp hmem'] at hmem
          exact hserial hmem }
    else none
  else none

/-- The database without the rows of a host. -/
def without (db : PkiDatabase) (host : Uuid) : PkiDatabase :=
  { db with
    hostNames := db.hostNames.delete fun row => decide (row.hostId = host)
    certificates := db.certificates.delete fun row => decide (row.hostId = some host)
    serials_nodup := db.serials_nodup.sublist (filter_sublist.map _) }

end PkiDatabase

section Handlers

/-- The row that an approval inserts for a certificate that was just signed. -/
def leafRow (ca : CertAuthority) (now : Nat) (certId host serial : Uuid) : Certificate where
  id := certId
  hostId := some host
  serial := serial
  tier := .leaf
  status := .active
  expiresAt := now + 365 * 24 * 3600
  revokedAt := none
  issuerSerial := if ca.issuingSerialHex = "" then none else some ca.issuingSerialHex
  issuer := ca.issuer

/-- What an approval draws: the ids of the new host and of the certificate row, and the serial. -/
structure ApprovalDraws where
  host : Uuid
  certId : Uuid
  serial : Uuid
  deriving DecidableEq, Repr

/-- Insert the host of an enrolment and its settings. -/
def PkiDatabase.registerHost (db : PkiDatabase) (req : EnrollmentRequest) (host : Uuid)
    (interval : Int) : Option PkiDatabase :=
  match db.base.hosts.insert? ⟨host, none, .pending, none⟩,
      db.hostNames.insert? ⟨host, req.fqdn, req.ipAddress⟩ with
  | some hosts, some hostNames =>
    some { db with
      base := { db.base with
        hosts := hosts
        configOverrides := db.base.configOverrides.insertNew
          ⟨host, interval, true, false, none, 1⟩ }
      hostNames := hostNames }
  | _, _ => none

/-- `approve_enrollment`. The host is inserted before the request is known to have a usable CSR, and
stays when it has none. -/
def approveEnrollment (validCsr : String → Bool) (user : AuthUser) (now : Nat) (id : Uuid)
    (draws : ApprovalDraws) (interval : Int) (ca : CertAuthority) (db : PkiDatabase) :
    Except EnrollmentError Unit × PkiDatabase :=
  if !user.role.isAdmin then (.error (.app (.forbidden "Admin role required")), db)
  else
    match db.enrollments.find? id with
    | none => (.error (.app (.notFound "Enrollment request not found")), db)
    | some req =>
      if db.hostNames.rows.any fun row =>
          decide (row.fqdn = req.fqdn ∧ row.ipAddress = req.ipAddress) then
        (.error (.app (.conflict "Host already registered")), db)
      else
        match db.registerHost req draws.host interval with
        | none => (.error (.app (.database "hosts_pkey")), db)
        | some db =>
          match req.csr with
          | none => (.error (.app (.badRequest "Enrollment request has no CSR")), db)
          | some csr =>
            if !validCsr csr then (.error (.internal "CA sign failed"), db)
            else
              match db.insertCertificate
                  (leafRow ca now draws.certId draws.host draws.serial) with
              | none => (.error (.app (.database "certificates")), db)
              | some db =>
                (.ok (), { db with
                  enrollments := db.enrollments.delete fun row => decide (row.id = id) })

/-- `delete_host`, with the cascade to the certificates. -/
def deleteHostWithCerts (user : AuthUser) (host : Uuid) (db : PkiDatabase) :
    Except AppError Unit × PkiDatabase :=
  match Hosts.deleteHost user host db.base with
  | (.ok (), base) => (.ok (), { db.without host with base := base })
  | (.error e, base) => (.error e, { db with base := base })

/-- `build_agent_tls_config`: generate the CRLs, then read the certificate and key of the listener,
which may fail. -/
def buildAgentTlsConfig (ca : CertAuthority) (now : Nat) (filesReadable : Bool) (db : PkiDatabase) :
    Option (List Crl) × PkiDatabase :=
  match generateCrls ca now db with
  | (.error _, db) => (none, db)
  | (.ok crls, db) => (if filesReadable then some crls else none, db)

/-- `revoke_cert`. A rebuild that fails leaves the old verifier in place. -/
def revokeCert (user : AuthUser) (now : Nat) (id : Uuid) (filesReadable : Bool)
    (state : PkiState) : Except AppError Unit × PkiState :=
  if !user.role.isAdmin then (.error (.forbidden "Admin role required"), state)
  else if !state.db.certificates.has id then
    (.error (.notFound "Certificate not found"), state)
  else
    let db := state.db.markRevoked now id
    match state.acceptor with
    | none => (.ok (), { state with db := db })
    | some installed =>
      let (rebuilt, db) := buildAgentTlsConfig state.ca now filesReadable db
      (.ok (), { state with db := db, acceptor := some (rebuilt.getD installed) })

/-- A start of the manager with an issuing CA. A listener needs its TLS configuration. -/
def restart (now : Nat) (issuing : Option IssuingCa) (listener filesReadable : Bool)
    (state : PkiState) : PkiState :=
  let ca := { state.ca with issuing := issuing }
  if listener then
    let (built, db) := buildAgentTlsConfig ca now filesReadable state.db
    ⟨db, ca, built⟩
  else ⟨state.db, ca, none⟩

end Handlers

/-- The operations on certificates. -/
inductive PkiOp where
  | approve (user : AuthUser) (now : Nat) (id : Uuid) (draws : ApprovalDraws) (interval : Int)
  | revoke (user : AuthUser) (now : Nat) (id : Uuid) (filesReadable : Bool)
  | deleteHost (user : AuthUser) (host : Uuid)
  | restart (now : Nat) (issuing : Option IssuingCa) (listener filesReadable : Bool)

/-- The state after an operation. -/
def pkiStep (validCsr : String → Bool) (state : PkiState) : PkiOp → PkiState
  | .approve user now id draws interval =>
    { state with
      db := (approveEnrollment validCsr user now id draws interval state.ca state.db).2 }
  | .revoke user now id filesReadable => (revokeCert user now id filesReadable state).2
  | .deleteHost user host => { state with db := (deleteHostWithCerts user host state.db).2 }
  | .restart now issuing listener filesReadable =>
    restart now issuing listener filesReadable state

section Spec

variable {validCsr : String → Bool} {state : PkiState}

/-- A build leaves the database as it is. -/
@[simp] theorem buildAgentTlsConfig_db (ca : CertAuthority) (now : Nat) (filesReadable : Bool)
    (db : PkiDatabase) : (buildAgentTlsConfig ca now filesReadable db).2 = db := by
  have hcrls := generateCrls_db ca now db
  unfold buildAgentTlsConfig
  split
  next heq => rw [heq] at hcrls; exact hcrls
  next heq => rw [heq] at hcrls; exact hcrls

/-- A build goes through exactly when the files can be read and no row is revoked and unexpired, and
then the listener has no list to enforce. -/
theorem buildAgentTlsConfig_eq_some_iff {ca : CertAuthority} {now : Nat} {filesReadable : Bool}
    {db : PkiDatabase} {crls : List Crl} :
    (buildAgentTlsConfig ca now filesReadable db).1 = some crls ↔
      filesReadable = true ∧ crls = [] ∧ ∀ row ∈ db.certificates.rows, ¬ row.Listed now := by
  have hgenerated : (generateCrls ca now db).1 = .ok crls ↔
      crls = [] ∧ ∀ row ∈ db.certificates.rows, ¬ row.Listed now := generateCrls_eq_ok_iff
  rw [← hgenerated, buildAgentTlsConfig]
  rcases generateCrls ca now db with ⟨generated, after⟩
  cases generated with
  | error e => simp
  | ok lists =>
    cases filesReadable with
    | true => simp
    | false => simp

theorem certificates_restart (now : Nat) (issuing : Option IssuingCa)
    (listener filesReadable : Bool) :
    (restart now issuing listener filesReadable state).db.certificates = state.db.certificates := by
  unfold restart
  cases listener with
  | true => exact congrArg PkiDatabase.certificates (buildAgentTlsConfig_db _ now filesReadable _)
  | false => rfl

theorem certificates_revoke (user : AuthUser) (now : Nat) (id : Uuid) (filesReadable : Bool) :
    (revokeCert user now id filesReadable state).2.db.certificates.rows =
      state.db.certificates.rows.map fun row =>
        if user.role.isAdmin = true ∧ row.id = id then row.revoke now else row := by
  cases hadmin : user.role.isAdmin with
  | false => simp [revokeCert, hadmin]
  | true =>
    cases hid : state.db.certificates.has id with
    | false =>
      -- No row has the id, so the change below touches none.
      have hfixed : ∀ row ∈ state.db.certificates.rows, row.id ≠ id := by
        intro row hrow heq
        rw [Table.has_eq_true_iff.mpr ⟨row, hrow, heq⟩] at hid
        cases hid
      have hrows : (revokeCert user now id filesReadable state).2.db = state.db := by
        simp [revokeCert, hadmin, hid]
      rw [hrows]
      refine ((map_congr_left fun row hrow => ?_).trans (map_id _)).symm
      rw [if_neg fun h => hfixed row hrow h.2, id_eq]
    | true =>
      have hrows : (revokeCert user now id filesReadable state).2.db.certificates =
          (state.db.markRevoked now id).certificates := by
        rw [revokeCert, if_neg (by simp [hadmin]), if_neg (by simp [hid])]
        dsimp only
        cases state.acceptor with
        | none => rfl
        | some installed =>
          exact congrArg PkiDatabase.certificates
            (buildAgentTlsConfig_db state.ca now filesReadable _)
      rw [hrows]
      simp [PkiDatabase.markRevoked, Table.update]

theorem certificates_deleteHost (user : AuthUser) (host : Uuid) (db : PkiDatabase) :
    (deleteHostWithCerts user host db).2.certificates.rows =
      db.certificates.rows.filter fun row =>
        !(user.role.isAdmin && decide (row.hostId = some host)) := by
  cases hadmin : user.role.isAdmin with
  | false => simp [deleteHostWithCerts, Hosts.deleteHost, requireAdmin, hadmin]
  | true =>
    simp [deleteHostWithCerts, Hosts.deleteHost, requireAdmin, hadmin, PkiDatabase.without,
      Table.delete]

theorem PkiDatabase.registerHost_certificates {db db' : PkiDatabase} {req : EnrollmentRequest}
    {host : Uuid} {interval : Int} (h : db.registerHost req host interval = some db') :
    db'.certificates = db.certificates := by
  unfold registerHost at h
  split at h
  next =>
    cases h
    rfl
  next => cases h

theorem PkiDatabase.insertCertificate_tables {db db' : PkiDatabase} {row : Certificate}
    (h : db.insertCertificate row = some db') :
    db'.certificates.rows = db.certificates.rows ++ [row] ∧ db'.base = db.base ∧
      db'.hostNames = db.hostNames := by
  unfold insertCertificate at h
  split at h
  next =>
    split at h
    next =>
      cases h
      exact ⟨rfl, rfl, rfl⟩
    next => cases h
  next => cases h

theorem certificates_approve (validCsr : String → Bool) (user : AuthUser) (now : Nat) (id : Uuid)
    (draws : ApprovalDraws) (interval : Int) (ca : CertAuthority) (db : PkiDatabase) :
    (approveEnrollment validCsr user now id draws interval ca db).2.certificates.rows =
        db.certificates.rows ∨
      (approveEnrollment validCsr user now id draws interval ca db).2.certificates.rows =
        db.certificates.rows ++ [leafRow ca now draws.certId draws.host draws.serial] := by
  unfold approveEnrollment
  split
  next => exact Or.inl rfl
  next =>
    split
    next => exact Or.inl rfl
    next req hreq =>
      split
      next => exact Or.inl rfl
      next =>
        split
        next => exact Or.inl rfl
        next db' hregister =>
          have hsame := PkiDatabase.registerHost_certificates hregister
          split
          next => exact Or.inl (by rw [hsame])
          next csr =>
            split
            next => exact Or.inl (by rw [hsame])
            next =>
              split
              next => exact Or.inl (by rw [hsame])
              next db'' hinsert =>
                refine Or.inr ?_
                show db''.certificates.rows = _
                rw [(PkiDatabase.insertCertificate_tables hinsert).1, hsame]

end Spec

/-- The row of a fresh root. -/
def rootRow (root : CaIdentity) (now : Nat) (certId serial : Uuid) : Certificate where
  id := certId
  hostId := none
  serial := serial
  tier := .root
  status := .active
  expiresAt := now + 3650 * 24 * 3600
  revokedAt := none
  issuerSerial := none
  issuer := root

/-- A manager after its first start: the root was generated and recorded. -/
def PkiState.install (root : CaIdentity) (now : Nat) (certId serial : Uuid)
    (enrollments : Table EnrollmentRequest.id) : PkiState where
  db := {
    base := .empty
    hostNames := .empty
    enrollments := enrollments
    certificates := ⟨[rootRow root now certId serial], nodup_singleton _⟩
    serials_nodup := nodup_singleton _
    crlCounters := [] }
  ca := ⟨root, none⟩
  acceptor := none

/-- A manager with one enrolment that waits for its approval. -/
def oneEnrollment : PkiState :=
  .install ⟨"Firewall Manager Root CA", [1]⟩ 0 ⟨1⟩ ⟨2⟩
    { rows := [⟨⟨3⟩, "web", "10.0.0.1", some "csr"⟩], nodup := by decide }

/-- An admin. -/
def caAdmin : AuthUser :=
  ⟨⟨9⟩, "admin", .admin⟩

/-- The approval of the enrolment of `oneEnrollment` by an admin. -/
def approveFirst : PkiOp :=
  .approve caAdmin 0 ⟨3⟩ ⟨⟨4⟩, ⟨5⟩, ⟨6⟩⟩ 900

/-- The manager with the new leaf. -/
def oneLeaf : PkiState :=
  pkiStep (fun _ => true) oneEnrollment approveFirst

/-- The revocation of the leaf. -/
def revokeFirst : PkiOp :=
  .revoke caAdmin 1 ⟨5⟩ true

end FirewallManager
