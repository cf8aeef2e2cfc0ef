import FirewallManager.Audit.Log
import FirewallManager.Lib.Runs

/-!
# Writers of the audit log

What an insert does to a log that the verifier accepts. The new row keeps the log verified exactly
when the hash that was computed before the insert is the one the verifier computes after it
(`verified_insertRow_iff`). With an injective SHA-256 there are two ways to fail: the column cuts
the time that went into the hash, or another row is inserted between the read of the previous hash
and the insert.

`sequential_log_verified_iff` follows calls that are executed one after another, and
`interleaved_log_verified_iff` calls whose two statements are interleaved in any way.
-/

namespace FirewallManager

open List

theorem AuditRecord.text_stored_eq_iff (column : TimestampColumn) (record : AuditRecord) :
    (record.stored column).text = record.text ↔ record.createdAt.WholeMicros := by
  have htime (time : Timestamp) : { record with createdAt := time }.text =
      String.join (record.pieces.dropLast.map (·.getD "")) ++ time.toRfc3339 := by
    show String.join ((record.pieces.dropLast.map (·.getD "")) ++ [time.toRfc3339]) = _
    rw [String.join_append, String.join_cons, String.join_nil, String.append_empty]
  have hstored := htime (column.store record.createdAt)
  have hrecord := htime record.createdAt
  rw [stored, hstored, hrecord, String.append_right_inj, column.toRfc3339_store_eq_iff]

theorem AuditRecord.stored_eq_self (column : TimestampColumn) {record : AuditRecord}
    (h : record.createdAt.WholeMicros) : record.stored column = record := by
  rw [stored, column.store_of_whole _ h]

section Insert

variable (sha256 : List UInt8 → List UInt8) (column : TimestampColumn)

/-- An insert keeps a verified log verified exactly if the verifier computes the hash of the writer.
-/
theorem verified_insertRow_iff (record : AuditRecord) (prev : String) (log : List AuditRow) :
    (verifyChain sha256 (insertRow sha256 column record prev log)).verified = true ↔
      (verifyChain sha256 log).verified = true ∧
        (record.action ∈ auditActions →
          rowHash sha256 (chainHead log) (record.stored column) = rowHash sha256 prev record) := by
  by_cases hlabel : record.action ∈ auditActions
  · rw [insertRow, dif_pos hlabel, verified_iff_chained, verified_iff_chained,
      HashChain.chained_append, ← chainHead_eq_head]
    simp only [HashChain.Chained, RowFits, and_true, hlabel, forall_const]
  · rw [insertRow, dif_neg hlabel]
    exact ⟨fun h => ⟨h, fun hin => absurd hin hlabel⟩, And.left⟩

end Insert

/-- One after another executed calls leave a verified log exactly when the log was verified
before and every time that went into a row is one that the column can hold. -/
theorem sequential_log_verified_iff {sha256 : List UInt8 → List UInt8}
    (hsha : Function.Injective sha256) (column : TimestampColumn) (log : List AuditRow)
    (records : List AuditRecord) :
    (verifyChain sha256 (Runs.run (logEvent sha256 column) log records)).verified = true ↔
      (verifyChain sha256 log).verified = true ∧
        ∀ record ∈ records, record.action ∈ auditActions → record.createdAt.WholeMicros := by
  induction records generalizing log with
  | nil => simp
  | cons record records ih =>
    have hstep : (verifyChain sha256 (logEvent sha256 column log record)).verified = true ↔
        (verifyChain sha256 log).verified = true ∧
          (record.action ∈ auditActions → record.createdAt.WholeMicros) := by
      rw [logEvent, verified_insertRow_iff, rowHash_inj hsha, String.append_right_inj,
        AuditRecord.text_stored_eq_iff]
    have hrun := ih (logEvent sha256 column log record)
    rw [hstep] at hrun
    rw [forall_mem_cons, ← and_assoc]
    exact hrun

/-- A login of nobody, in the first minute of a day. -/
def loginAt (second nanos : Nat) : AuditRecord where
  action := "user_login"
  actorUserId := none
  actorUsername := none
  targetType := none
  targetId := none
  details := "\x7b\x7d"
  ipAddress := none
  requestId := none
  createdAt := ⟨2026, 1, 1, 0, 0, second % 60, nanos % 10 ^ 9, by omega, by omega, by omega,
    by omega, by omega, by omega⟩

/-- The time of a login with a nanosecond in it is cut by the column, and the one row of the log
does not match its hash. -/
theorem nanosecond_login_mismatched :
    verifyIntegrity id (Runs.run (logEvent id .truncating) [] [loginAt 0 1]) =
      .ok ⟨false, [1], 1⟩ := by
  decide +kernel

/-- Two logins at whole microseconds keep the empty log verified. -/
theorem sequential_log_verified_at_login :
    (verifyChain id (Runs.run (logEvent id .truncating) []
      [loginAt 0 1000, loginAt 1 0])).verified = true := by
  refine (sequential_log_verified_iff Function.injective_id .truncating [] _).mpr ⟨rfl, ?_⟩
  intro record hrecord _
  rcases mem_pair.mp hrecord with rfl | rfl
  · rfl
  · rfl

section Interleaving

variable (sha256 : List UInt8 → List UInt8) (column : TimestampColumn)

/-- The log, and the calls between their two statements with the hash that each of them read. -/
structure AuditWriters where
  log : List AuditRow
  waiting : List (AuditRecord × String)

/-- A statement of a call: the read of the newest hash for a new record, or the insert of the
waiting record with a given number. -/
inductive WriterStep where
  | read (record : AuditRecord)
  | insert (index : Nat)

/-- Execute one statement. -/
def writerStep (writers : AuditWriters) : WriterStep → AuditWriters
  | .read record =>
    { writers with waiting := writers.waiting ++ [(record, chainHead writers.log)] }
  | .insert index =>
    match writers.waiting[index]? with
    | none => writers
    | some (record, prev) =>
      { log := insertRow sha256 column record prev writers.log
        waiting := writers.waiting.eraseIdx index }

/-- An insert comes in turn if the hash that its call read is still the newest one. -/
def InTurn (writers : AuditWriters) : WriterStep → Prop
  | .read _ => True
  | .insert index =>
    ∀ record prev, writers.waiting[index]? = some (record, prev) →
      record.action ∈ auditActions → prev = chainHead writers.log

variable {sha256 column}

/-- One statement keeps the log verified exactly when it is a read or an insert in turn. -/
theorem verified_writerStep_iff (hsha : Function.Injective sha256) {writers : AuditWriters}
    (hwhole : ∀ entry ∈ writers.waiting, entry.1.createdAt.WholeMicros) (step : WriterStep) :
    (verifyChain sha256 (writerStep sha256 column writers step).log).verified = true ↔
      (verifyChain sha256 writers.log).verified = true ∧ InTurn writers step := by
  cases step with
  | read record => simp [writerStep, InTurn]
  | insert index =>
    cases hentry : writers.waiting[index]? with
    | none => simp [writerStep, InTurn, hentry]
    | some entry =>
      obtain ⟨record, prev⟩ := entry
      have hrecord := hwhole _ (mem_of_getElem? hentry)
      simp only [writerStep, InTurn, hentry, Option.some.injEq, Prod.mk.injEq]
      rw [verified_insertRow_iff, AuditRecord.stored_eq_self column hrecord, rowHash_inj hsha,
        String.append_left_inj]
      constructor
      · rintro ⟨hlog, hturn⟩
        refine ⟨hlog, ?_⟩
        rintro _ _ ⟨rfl, rfl⟩ hlabel
        exact (hturn hlabel).symm
      · rintro ⟨hlog, hturn⟩
        exact ⟨hlog, fun hlabel => (hturn record prev ⟨rfl, rfl⟩ hlabel).symm⟩

theorem mem_waiting_writerStep {writers : AuditWriters} {step : WriterStep}
    {entry : AuditRecord × String}
    (h : entry ∈ (writerStep sha256 column writers step).waiting) :
    entry ∈ writers.waiting ∨ step = .read entry.1 := by
  cases step with
  | read record =>
    rcases mem_append.mp h with hold | hnew
    · exact Or.inl hold
    · rw [mem_singleton.mp hnew]
      exact Or.inr rfl
  | insert index =>
    left
    simp only [writerStep] at h
    split at h
    · exact h
    · exact mem_of_mem_eraseIdx h

/-- A run of statements leaves a verified log exactly when the log was verified before and every
insert comes in turn. -/
theorem interleaved_log_verified_iff (hsha : Function.Injective sha256) (writers : AuditWriters)
    (steps : List WriterStep) (hwaiting : ∀ entry ∈ writers.waiting, entry.1.createdAt.WholeMicros)
    (hsteps : ∀ record, .read record ∈ steps → record.createdAt.WholeMicros) :
    (verifyChain sha256
        (Runs.run (writerStep sha256 column) writers steps).log).verified = true ↔
      (verifyChain sha256 writers.log).verified = true ∧
        Runs.Meets (writerStep sha256 column) InTurn writers steps := by
  induction steps generalizing writers with
  | nil => simp [Runs.Meets]
  | cons step steps ih =>
    have hnext : ∀ entry ∈ (writerStep sha256 column writers step).waiting,
        entry.1.createdAt.WholeMicros := by
      intro entry hentry
      rcases mem_waiting_writerStep hentry with hold | hread
      · exact hwaiting entry hold
      · exact hsteps entry.1 (hread ▸ mem_cons_self)
    have hrun := ih _ hnext fun record hrecord => hsteps record (mem_cons_of_mem _ hrecord)
    rw [verified_writerStep_iff hsha hwaiting] at hrun
    rw [Runs.Meets, ← and_assoc]
    exact hrun

end Interleaving

/-- Two logins that both read the empty log before either of them is inserted. -/
def overlappingLogins : List WriterStep :=
  [.read (loginAt 0 0), .read (loginAt 1 0), .insert 0, .insert 0]

/-- Both rows name the empty text as the hash before them, and the second one does not match. -/
theorem overlapping_logins_fork :
    let writers := Runs.run (writerStep id .truncating) ⟨[], []⟩ overlappingLogins
    writers.waiting = [] ∧ writers.log.map AuditRow.prevHash = ["", ""] ∧
      verifyIntegrity id writers.log = .ok ⟨false, [2], 2⟩ := by
  refine ⟨rfl, rfl, ?_⟩
  decide +kernel

/-- Two logins whose rows are inserted right after their reads keep the empty log verified. -/
theorem interleaved_log_verified_at_login :
    (verifyChain id (Runs.run (writerStep id .truncating) ⟨[], []⟩
      [.read (loginAt 0 0), .insert 0, .read (loginAt 1 0), .insert 0]).log).verified = true := by
  refine (interleaved_log_verified_iff Function.injective_id ⟨[], []⟩ _ (by simp) ?_).mpr
    ⟨rfl, trivial, ?_, trivial, ?_, trivial⟩
  · intro record hrecord
    simp only [mem_cons, WriterStep.read.injEq, reduceCtorEq, not_mem_nil, or_false,
      false_or] at hrecord
    rcases hrecord with rfl | rfl
    · rfl
    · rfl
  · intro record prev hentry _
    exact (congrArg Prod.snd (Option.some.inj hentry)).symm
  · intro record prev hentry _
    exact (congrArg Prod.snd (Option.some.inj hentry)).symm

end FirewallManager
