import FirewallManager.Lib.Sql
import FirewallManager.Manager.Assignments

/-!
# The certificate authority

The manager issues agent certificates with its own root or with an imported sub-CA, records them in
`certificates`, and makes certificate revocation lists (CRLs) from the revoked rows on demand. Keys
and signatures are not modelled: a certificate and a CRL carry the identity that signed them.

The number of a CRL is drawn from the table `crl_counter` by an upsert that names `last_number`
without the table, and PostgreSQL refuses it (`crlNumber_refused`). So no CRL is ever signed. A
generation goes through only if there is no revoked and unexpired row at all, and then it has no
list to make (`generateCrls_eq_ok_iff`).
-/

namespace FirewallManager

open List

/-- What signs certificates and CRLs: a subject name with a public key. -/
structure CaIdentity where
  subject : String
  publicKey : List UInt8
  deriving DecidableEq, Repr

/-- An imported sub-CA, with the serial number of its own certificate. -/
structure IssuingCa where
  identity : CaIdentity
  serial : List UInt8
  serial_ne : serial ≠ []
  deriving DecidableEq

/-- The serial number of the sub-CA, as it is recorded on the rows it issues. -/
def IssuingCa.serialHex (ca : IssuingCa) : String :=
  Text.hexEncode ca.serial

/-- The self-generated root and the imported sub-CA, if there is one. -/
structure CertAuthority where
  root : CaIdentity
  issuing : Option IssuingCa
  deriving DecidableEq

/-- The identity that issues certificates. -/
def CertAuthority.issuer (ca : CertAuthority) : CaIdentity :=
  (ca.issuing.map IssuingCa.identity).getD ca.root

/-- `issuing_serial_hex`: empty when the root issues. -/
def CertAuthority.issuingSerialHex (ca : CertAuthority) : String :=
  match ca.issuing with
  | some sub => sub.serialHex
  | none => ""

/-- The states of a certificate. -/
inductive CertStatus where
  | active
  | revoked
  | expired
  deriving DecidableEq, Repr

/-- The tiers of the certificates that the manager records. -/
inductive CaTier where
  | root
  | leaf
  deriving DecidableEq, Repr

/-- A row of `certificates`. Its serial number is drawn as a UUID, and `issuer` is the signer of the
recorded certificate. -/
structure Certificate where
  id : Uuid
  hostId : Option Uuid
  serial : Uuid
  tier : CaTier
  status : CertStatus
  expiresAt : Nat
  revokedAt : Option Nat
  issuerSerial : Option String
  issuer : CaIdentity
  deriving DecidableEq, Repr

/-- The column `serial_number`: hexadecimal for a leaf, hyphenated for the row of the root. -/
def Certificate.serialNumber (cert : Certificate) : String :=
  match cert.tier with
  | .leaf => Text.hexEncode cert.serial.asBytes
  | .root => cert.serial.text

/-- The row is one that a generation at the given time reads. -/
def Certificate.Listed (now : Nat) (cert : Certificate) : Prop :=
  cert.status = .revoked ∧ cert.revokedAt.isSome = true ∧ now < cert.expiresAt

instance (now : Nat) (cert : Certificate) : Decidable (cert.Listed now) :=
  inferInstanceAs (Decidable (_ ∧ _))

/-- A row of `enrollment_requests`, as far as an approval reads it. -/
structure EnrollmentRequest where
  id : Uuid
  fqdn : String
  ipAddress : String
  csr : Option String
  deriving DecidableEq, Repr

/-- The columns of `hosts` that are compared with a new enrolment. -/
structure HostName where
  hostId : Uuid
  fqdn : String
  ipAddress : String
  deriving DecidableEq, Repr

/-- The database with the tables of the certificate authority. Serial numbers are unique, and
`crlCounters` has the last CRL number of each issuer key. -/
structure PkiDatabase where
  base : Database
  hostNames : Table HostName.hostId
  enrollments : Table EnrollmentRequest.id
  certificates : Table Certificate.id
  serials_nodup : (certificates.rows.map Certificate.serialNumber).Nodup
  crlCounters : List (String × Nat)

/-- An entry of a CRL. -/
structure RevokedCert where
  serialNumber : List UInt8
  revocationTime : Nat
  deriving DecidableEq, Repr

/-- A certificate revocation list. -/
structure Crl where
  issuer : CaIdentity
  crlNumber : Nat
  thisUpdate : Nat
  nextUpdate : Nat
  revokedCerts : List RevokedCert
  deriving DecidableEq, Repr

/-- The list has an entry for the serial number. -/
def Crl.lists (crl : Crl) (serial : List UInt8) : Bool :=
  decide (serial ∈ crl.revokedCerts.map RevokedCert.serialNumber)

/-- The errors of a generation: a serial number that is not hexadecimal, and a refused statement. -/
inductive CertError where
  | serialNumberHex (text : String)
  | database (error : Sql.SqlError)
  deriving DecidableEq, Repr

namespace CertAuthority

variable (ca : CertAuthority)

/-- The row was issued by the current sub-CA, as its recorded serial tells. -/
def inIssuingGroup (cert : Certificate) : Bool :=
  match ca.issuing with
  | some sub => cert.issuerSerial == some sub.serialHex
  | none => false

/-- The loop of `generate_crls`: sort the rows into the group of the root and that of the sub-CA. It
stops at a serial number that is not hexadecimal. -/
def groupRevoked : List Certificate → List RevokedCert × List RevokedCert →
    Except CertError (List RevokedCert × List RevokedCert)
  | [], groups => .ok groups
  | row :: rows, (rootRevoked, issuingRevoked) =>
    match Text.hexDecode (Text.trim row.serialNumber) with
    | none => .error (.serialNumberHex row.serialNumber)
    | some serial =>
      let params : RevokedCert := ⟨serial, row.revokedAt.getD 0⟩
      if ca.inIssuingGroup row then
        groupRevoked rows (rootRevoked, issuingRevoked ++ [params])
      else groupRevoked rows (rootRevoked ++ [params], issuingRevoked)

end CertAuthority

/-- The rows that a generation reads, by the time of their revocation. -/
def PkiDatabase.revokedRows (db : PkiDatabase) (now : Nat) : List Certificate :=
  (db.certificates.select fun row => decide (row.Listed now)).insertionSort
    fun a b => a.revokedAt.getD 0 ≤ b.revokedAt.getD 0

/-- The statement that draws the next CRL number of an issuer key. -/
def crlNumberUpsert : Sql.Upsert where
  table := "crl_counter"
  key := "issuer_key"
  column := "last_number"
  initial := 1
  set := .add (.column ⟨none, "last_number"⟩) (.literal 1)

/-- The column may be that of the stored row or that of the row to be inserted. -/
theorem crlNumber_refused (issuerKey : String) (counters : List (String × Nat)) :
    crlNumberUpsert.exec issuerKey counters = .error (.ambiguousColumn "last_number") :=
  crlNumberUpsert.exec_of_analyse_error rfl issuerKey counters

-- With the table's name before the column the statement would count.
example : { crlNumberUpsert with
      set := .add (.column ⟨some "crl_counter", "last_number"⟩) (.literal 1) }.exec "root"
    [("root", 4)] = .ok (5, [("root", 5)]) := by
  decide

/-- A group of revoked certificates, the identity that signs its CRL, and the key of its number. -/
structure CrlGroup where
  revoked : List RevokedCert
  issuer : CaIdentity
  issuerKey : String
  deriving DecidableEq, Repr

/-- The groups that a generation loops over. -/
def CertAuthority.crlGroups (ca : CertAuthority) (rootRevoked issuingRevoked : List RevokedCert) :
    List CrlGroup :=
  [⟨rootRevoked, ca.root, "root"⟩, ⟨issuingRevoked, ca.issuer, "issuing"⟩]

/-- The CRL of a group. -/
def CrlGroup.sign (group : CrlGroup) (now number : Nat) : Crl :=
  ⟨group.issuer, number, now, now + 24 * 3600, group.revoked⟩

/-- The second loop of `generate_crls`: skip an empty group, and for another one draw a number and
sign. -/
def signGroups (now : Nat) :
    List CrlGroup → List Crl → PkiDatabase → Except CertError (List Crl) × PkiDatabase
  | [], crls, db => (.ok crls, db)
  | group :: groups, crls, db =>
    if group.revoked = [] then signGroups now groups crls db
    else
      match crlNumberUpsert.exec group.issuerKey db.crlCounters with
      | .error e => (.error (.database e), db)
      | .ok (number, counters) =>
        signGroups now groups (crls ++ [group.sign now number])
          { db with crlCounters := counters }

/-- `generate_crls`. -/
def generateCrls (ca : CertAuthority) (now : Nat) (db : PkiDatabase) :
    Except CertError (List Crl) × PkiDatabase :=
  match ca.groupRevoked (db.revokedRows now) ([], []) with
  | .error e => (.error e, db)
  | .ok (rootRevoked, issuingRevoked) =>
    signGroups now (ca.crlGroups rootRevoked issuingRevoked) [] db

section Spec

variable {ca : CertAuthority} {now : Nat} {db : PkiDatabase} {row : Certificate}

theorem mem_revokedRows :
    row ∈ db.revokedRows now ↔ row ∈ db.certificates.rows ∧ row.Listed now := by
  rw [PkiDatabase.revokedRows, mem_insertionSort, Table.mem_select, decide_eq_true_eq]

/-- No row is left to read exactly when none is revoked and unexpired. -/
theorem revokedRows_eq_nil_iff :
    db.revokedRows now = [] ↔ ∀ row ∈ db.certificates.rows, ¬ row.Listed now := by
  rw [eq_nil_iff_forall_not_mem]
  simp only [mem_revokedRows, not_and]

/-- The loop over the rows puts every row into one of the groups. -/
theorem length_groupRevoked {rows : List Certificate}
    {rootRevoked issuingRevoked rootRevoked' issuingRevoked' : List RevokedCert}
    (h : ca.groupRevoked rows (rootRevoked, issuingRevoked) =
      .ok (rootRevoked', issuingRevoked')) :
    rootRevoked'.length + issuingRevoked'.length =
      rootRevoked.length + issuingRevoked.length + rows.length := by
  induction rows generalizing rootRevoked issuingRevoked with
  | nil =>
    cases h
    rfl
  | cons row rows ih =>
    unfold CertAuthority.groupRevoked at h
    split at h
    next => cases h
    next =>
      dsimp only at h
      -- Either branch adds one entry to one of the groups.
      split at h
      next =>
        have hlength := ih h
        simp only [length_append, length_cons, length_nil] at hlength ⊢
        omega
      next =>
        have hlength := ih h
        simp only [length_append, length_cons, length_nil] at hlength ⊢
        omega

/-- The loop over the groups signs nothing: it passes by empty groups and ends at the first other
one. -/
theorem signGroups_eq (groups : List CrlGroup) (crls : List Crl) :
    signGroups now groups crls db =
      if ∀ group ∈ groups, group.revoked = [] then (.ok crls, db)
      else (.error (.database (.ambiguousColumn "last_number")), db) := by
  induction groups with
  | nil => simp [signGroups]
  | cons group groups ih =>
    rw [signGroups]
    by_cases hempty : group.revoked = []
    · rw [if_pos hempty, ih]
      simp [hempty]
    · rw [if_neg hempty, crlNumber_refused]
      simp [hempty]

/-- A generation leaves the database as it is. -/
@[simp] theorem generateCrls_db (ca : CertAuthority) (now : Nat) (db : PkiDatabase) :
    (generateCrls ca now db).2 = db := by
  unfold generateCrls
  split
  next => rfl
  next =>
    rw [signGroups_eq]
    split
    · rfl
    · rfl

/-- A generation goes through exactly when no row is revoked and unexpired, and then there is no
list. -/
theorem generateCrls_eq_ok_iff {crls : List Crl} :
    (generateCrls ca now db).1 = .ok crls ↔
      crls = [] ∧ ∀ row ∈ db.certificates.rows, ¬ row.Listed now := by
  rw [← revokedRows_eq_nil_iff, generateCrls]
  constructor
  · intro h
    split at h
    next => cases h
    next rootRevoked issuingRevoked hgroups =>
      rw [signGroups_eq] at h
      split at h
      next hempty =>
        cases h
        obtain ⟨rfl, rfl⟩ : rootRevoked = [] ∧ issuingRevoked = [] := by
          simpa [CertAuthority.crlGroups] using hempty
        refine ⟨rfl, length_eq_zero_iff.mp ?_⟩
        simpa using (length_groupRevoked hgroups).symm
      next => cases h
  · rintro ⟨rfl, hrows⟩
    rw [hrows, CertAuthority.groupRevoked]
    simp [signGroups_eq, CertAuthority.crlGroups]

end Spec

end FirewallManager
