import FirewallManager.Core.Timestamp
import FirewallManager.Lib.HashChain
import FirewallManager.Lib.Sql
import FirewallManager.Manager.Database

/-!
# The audit log

`log_event` appends a row whose hash is made from the hash of the row before it and from the
fields of the event, one after the other and without separators. `verify_integrity` reads the rows
and recomputes the hashes. SHA-256 is a parameter. The insert of `log_event` goes through here; how
the database takes it as it is written is the subject of `Audit.Trail`.

The verifier's loop is the verifier of a hash chain (`verifyChain_mismatchedRows`). The query before
it fails if a row has an address (`verifyIntegrity_eq_ok_iff`). With an injective SHA-256 a stored
hash fits exactly one text of previous hash and fields (`rowHash_inj`).
-/

namespace FirewallManager

open List

/-- The labels of the `audit_action` type after all migrations. -/
def auditActions : List String :=
  ["user_login", "user_logout", "user_login_failed", "user_created", "user_deleted",
    "user_updated", "host_registered", "host_removed", "group_created", "group_deleted",
    "group_membership_changed", "firewall_job_created", "firewall_job_cancelled",
    "firewall_job_rollback", "maintenance_window_created", "maintenance_window_updated",
    "maintenance_window_deleted", "certificate_issued", "certificate_renewed",
    "certificate_revoked", "certificate_downloaded", "config_changed",
    "discovery_scan_started", "audit_integrity_verified", "email_notification_sent",
    "firewall_job_completed", "firewall_job_failed", "maintenance_window_reminder",
    "rule_created", "rule_updated", "rule_deleted", "policy_set_created",
    "policy_set_changed", "policy_assigned", "policy_unassigned", "rule_deployed",
    "rule_rollback", "drift_detected", "backend_changed", "break_glass_used",
    "enrollment_token_issued", "enrollment_token_used", "enrollment_token_revoked",
    "host_enrolled", "ca_intermediate_issued", "ca_intermediate_revoked",
    "audit_anchor_mismatch", "policy_force_checkin"]

/-- The fields of an audit event. The details are the text of a JSON value. -/
structure AuditRecord where
  action : String
  actorUserId : Option Uuid
  actorUsername : Option String
  targetType : Option String
  targetId : Option String
  details : String
  ipAddress : Option String
  requestId : Option String
  createdAt : Timestamp
  deriving DecidableEq

/-- A row of `audit_log`. Its action is a label of the column's type, and its time is one that
the column can hold. -/
structure AuditRow extends AuditRecord where
  id : Nat
  rowHash : String
  prevHash : String
  action_label : action ∈ auditActions
  createdAt_whole : createdAt.WholeMicros
  deriving DecidableEq

namespace AuditRecord

/-- What the hasher reads of a record, in order. Absent fields are skipped. -/
def pieces (record : AuditRecord) : List (Option String) :=
  [some record.action, record.actorUserId.map Uuid.text, record.actorUsername, record.targetType,
    record.targetId, some record.details, record.ipAddress, record.requestId,
    some record.createdAt.toRfc3339]

/-- The pieces of a record, one after the other. -/
def text (record : AuditRecord) : String :=
  String.join (record.pieces.map (·.getD ""))

/-- The record as the table keeps it. -/
def stored (column : TimestampColumn) (record : AuditRecord) : AuditRecord :=
  { record with createdAt := column.store record.createdAt }

end AuditRecord

section Log

variable (sha256 : List UInt8 → List UInt8) (column : TimestampColumn)

/-- The hash of a record after a row with the hash `prev`. -/
def rowHash (prev : String) (record : AuditRecord) : String :=
  Text.hexEncode (sha256 (Text.utf8 prev ++
    record.pieces.flatMap fun piece => (piece.map Text.utf8).getD []))

/-- The hash of the newest row, and nothing for an empty log. -/
def chainHead (log : List AuditRow) : String :=
  (log.getLast?.map AuditRow.rowHash).getD ""

/-- The next number of the row sequence. -/
def nextRowId (log : List AuditRow) : Nat :=
  (log.getLast?.map AuditRow.id).getD 0 + 1

/-- Insert a row for a record that was hashed after `prev`. An action has to be a label of the type.
-/
def insertRow (record : AuditRecord) (prev : String) (log : List AuditRow) : List AuditRow :=
  if hlabel : record.action ∈ auditActions then
    log ++ [{
      toAuditRecord := record.stored column
      id := nextRowId log
      rowHash := rowHash sha256 prev record
      prevHash := prev
      action_label := hlabel
      createdAt_whole := column.store_whole record.createdAt }]
  else log

/-- `log_event`: read the newest hash, then insert the row. -/
def logEvent (log : List AuditRow) (record : AuditRecord) : List AuditRow :=
  insertRow sha256 column record (chainHead log) log

/-- What `verify_integrity` reports. -/
structure IntegrityResult where
  verified : Bool
  mismatchedRows : List Nat
  totalRows : Nat
  deriving DecidableEq, Repr

/-- The loop of `verify_integrity`: the rows found so far that do not match, and the stored hash
of the row before. -/
def verifyRows : List AuditRow → List Nat × String → List Nat × String
  | [], acc => acc
  | row :: rows, (mismatched, prev) =>
    let expected := rowHash sha256 prev row.toAuditRecord
    verifyRows rows
      (if expected ≠ row.rowHash then mismatched ++ [row.id] else mismatched, row.rowHash)

/-- What `verify_integrity` answers about the rows that it has read. -/
def verifyChain (log : List AuditRow) : IntegrityResult :=
  let mismatched := (verifyRows sha256 log ([], "")).1
  { verified := mismatched.isEmpty
    mismatchedRows := mismatched
    totalRows := log.length }

/-- Read a row of the query. The address is read into an optional text, but its column is an `inet`.
Only a null can be read, whatever its type. -/
def AuditRow.read (row : AuditRow) : Except Sql.SqlError AuditRow :=
  match row.ipAddress with
  | none => .ok row
  | some _ => (Sql.checkTypes [⟨"ip_address", .inet, .text⟩]).map fun () => row

/-- `verify_integrity`: a row that cannot be read is an error of the whole query. -/
def verifyIntegrity (log : List AuditRow) : Except Sql.SqlError IntegrityResult := do
  let rows ← log.mapM AuditRow.read
  .ok (verifyChain sha256 rows)

/-- The verifier accepts the log. -/
def AcceptsLog (log : List AuditRow) : Prop :=
  ∃ result, verifyIntegrity sha256 log = .ok result ∧ result.verified = true

/-- The stored hash of a row was made from `prev` and the stored fields. -/
def RowFits (prev : String) (row : AuditRow) : Prop :=
  rowHash sha256 prev row.toAuditRecord = row.rowHash

/-- Hashes are compared as texts. -/
instance (prev : String) (row : AuditRow) : Decidable (RowFits sha256 prev row) :=
  inferInstanceAs (Decidable (_ = _))

theorem verifyRows_eq (rows : List AuditRow) (mismatched : List Nat) (prev : String) :
    verifyRows sha256 rows (mismatched, prev) =
      (mismatched ++
        (HashChain.mismatched AuditRow.rowHash (RowFits sha256) prev rows).map AuditRow.id,
        HashChain.head AuditRow.rowHash prev rows) := by
  induction rows generalizing mismatched prev with
  | nil => simp [verifyRows, HashChain.mismatched, HashChain.head]
  | cons row rows ih =>
    rw [verifyRows, ih, HashChain.mismatched, HashChain.head]
    by_cases hfits : rowHash sha256 prev row.toAuditRecord = row.rowHash
    · have hrow : RowFits sha256 prev row := hfits
      rw [if_pos hrow, if_neg (not_not_intro hfits)]
    · have hrow : ¬ RowFits sha256 prev row := hfits
      rw [if_neg hrow, if_pos hfits, map_cons, append_assoc, singleton_append]

theorem verifyChain_mismatchedRows (log : List AuditRow) :
    (verifyChain sha256 log).mismatchedRows =
      (HashChain.mismatched AuditRow.rowHash (RowFits sha256) "" log).map AuditRow.id := by
  show (verifyRows sha256 log ([], "")).1 = _
  rw [verifyRows_eq, nil_append]

/-- A log is verified when it is a chain from the empty text. -/
theorem verified_iff_chained (log : List AuditRow) :
    (verifyChain sha256 log).verified = true ↔
      HashChain.Chained AuditRow.rowHash (RowFits sha256) "" log := by
  have hlisted := verifyChain_mismatchedRows sha256 log
  rw [← HashChain.mismatched_eq_nil_iff, ← map_eq_nil_iff (f := AuditRow.id), ← hlisted]
  exact List.isEmpty_iff

/-- The query can read the rows of a log exactly when none of them has an address. -/
theorem mapM_read_eq_ok_iff {log rows : List AuditRow} :
    log.mapM AuditRow.read = .ok rows ↔ rows = log ∧ ∀ row ∈ log, row.ipAddress = none := by
  induction log generalizing rows with
  | nil => simp [pure, Except.pure, eq_comm]
  | cons row log ih =>
    rw [mapM_cons, forall_mem_cons]
    cases haddress : row.ipAddress with
    | some address =>
      have hread : row.read = .error (.datatypeMismatch "ip_address" .inet .text) := by
        rw [AuditRow.read, haddress]
        rfl
      simp [hread, bind, Except.bind]
    | none =>
      have hread : row.read = .ok row := by
        rw [AuditRow.read, haddress]
      cases hrest : log.mapM AuditRow.read with
      | error e =>
        have hnot : ¬ ∀ row ∈ log, row.ipAddress = none := by
          intro hnone
          rw [ih.mpr ⟨rfl, hnone⟩] at hrest
          cases hrest
        simp [hread, bind, Except.bind, hnot]
      | ok rest =>
        obtain ⟨rfl, hnone⟩ := ih.mp hrest
        rw [hread, and_iff_left ⟨rfl, hnone⟩]
        exact ⟨fun h => (Except.ok.inj h).symm, fun h => congrArg Except.ok h.symm⟩

/-- The verifier answers exactly when no row has an address. -/
theorem verifyIntegrity_eq_ok_iff {log : List AuditRow} {result : IntegrityResult} :
    verifyIntegrity sha256 log = .ok result ↔
      result = verifyChain sha256 log ∧ ∀ row ∈ log, row.ipAddress = none := by
  unfold verifyIntegrity
  cases hread : log.mapM AuditRow.read with
  | error e =>
    refine iff_of_false (by simp [bind, Except.bind]) ?_
    rintro ⟨-, hnone⟩
    rw [mapM_read_eq_ok_iff.mpr ⟨rfl, hnone⟩] at hread
    cases hread
  | ok rows =>
    obtain ⟨rfl, hnone⟩ := mapM_read_eq_ok_iff.mp hread
    rw [and_iff_left hnone]
    exact ⟨fun h => (Except.ok.inj h).symm, fun h => congrArg Except.ok h.symm⟩

theorem acceptsLog_iff {log : List AuditRow} : AcceptsLog sha256 log ↔
    (verifyChain sha256 log).verified = true ∧ ∀ row ∈ log, row.ipAddress = none := by
  constructor
  · rintro ⟨_, hresult, hverified⟩
    obtain ⟨rfl, hnone⟩ := (verifyIntegrity_eq_ok_iff sha256).mp hresult
    exact ⟨hverified, hnone⟩
  · rintro ⟨hverified, hnone⟩
    exact ⟨_, (verifyIntegrity_eq_ok_iff sha256).mpr ⟨rfl, hnone⟩, hverified⟩

theorem chainHead_eq_head (log : List AuditRow) :
    chainHead log = HashChain.head AuditRow.rowHash "" log := by
  rcases eq_nil_or_concat log with rfl | ⟨front, row, rfl⟩
  · rfl
  · rw [concat_eq_append, HashChain.head_append, chainHead, getLast?_concat]
    rfl

theorem AuditRecord.utf8_text (record : AuditRecord) :
    Text.utf8 record.text =
      record.pieces.flatMap fun piece => (piece.map Text.utf8).getD [] := by
  have hjoin (pieces : List (Option String)) :
      Text.utf8 (String.join (pieces.map (·.getD ""))) =
        pieces.flatMap fun piece => (piece.map Text.utf8).getD [] := by
    induction pieces with
    | nil => rfl
    | cons piece pieces ih =>
      rw [map_cons, String.join_cons, Text.utf8_append, ih, flatMap_cons]
      cases piece with
      | none => rfl
      | some text => rfl
  exact hjoin record.pieces

/-- With an injective SHA-256 a hash determines the text it was made from. -/
theorem rowHash_inj {sha256 : List UInt8 → List UInt8} (hsha : Function.Injective sha256)
    {prev prev' : String} {record record' : AuditRecord} :
    rowHash sha256 prev record = rowHash sha256 prev' record' ↔
      prev ++ record.text = prev' ++ record'.text := by
  rw [rowHash, rowHash, Text.hexEncode_injective.eq_iff, hsha.eq_iff, ← AuditRecord.utf8_text,
    ← AuditRecord.utf8_text, ← Text.utf8_append, ← Text.utf8_append, Text.utf8_injective.eq_iff]

end Log

end FirewallManager
