import FirewallManager.Audit.Writers
import Mathlib.Logic.Equiv.Basic

/-!
# Tampering with the audit log

An attacker who can write to the table but cannot make new hashes may remove rows and edit the
fields of others. `TamperedRow` is a row together with what is left of it. The verifier compares
every row with the stored hash of the row before it, so it lists exactly the rows whose hashed
text was changed and those that come right after a removed one (`listed_tamperedLog`). Only the
removal of the newest rows stays unseen. An edit that fills in an address makes the log unreadable,
and then nothing is listed at all (`tampering_localised_iff`).

The first row is hashed after the empty text. No other row can pass for a first one, because its
text would have to start with a hash: `text_ne_digest_append` uses that every action has an
underscore in it.
-/

namespace FirewallManager

open List

/-- The text is the hexadecimal text of thirty-two bytes. -/
def IsDigest (hash : String) : Prop :=
  hash.toList.length = 64 ∧ ∀ c ∈ hash.toList, Text.isHexDigit c = true

/-- A row of a log and what is left of it after tampering. The number and the stored hash of a row
that is left are untouched. -/
structure TamperedRow where
  original : AuditRow
  left : Option AuditRow
  left_id : ∀ row ∈ left, row.id = original.id
  left_hash : ∀ row ∈ left, row.rowHash = original.rowHash

/-- The row was edited so that its hashed text changed. -/
def rowEdited (original row : AuditRow) : Bool :=
  decide (row.text ≠ original.text)

/-- The log before tampering. -/
def originalLog (rows : List TamperedRow) : List AuditRow :=
  rows.map TamperedRow.original

/-- The log after tampering. -/
def tamperedLog (rows : List TamperedRow) : List AuditRow :=
  rows.filterMap TamperedRow.left

/-- The rows that are left and were edited, or that come right after a removed row. -/
def disturbedRows (rows : List TamperedRow) : List AuditRow :=
  HashChain.disturbed TamperedRow.original TamperedRow.left rowEdited false rows

theorem underscore_mem_of_mem_auditActions : ∀ action ∈ auditActions,
    '_' ∈ action.toList ∧ action.toList.length ≤ 64 := by
  have hlabel {chars : List Char} (h : '_' ∈ chars ∧ chars.length ≤ 64) :
      '_' ∈ (String.ofList chars).toList ∧ (String.ofList chars).toList.length ≤ 64 := by
    rwa [String.toList_ofList]
  unfold auditActions
  repeat refine forall_mem_cons.mpr ⟨hlabel (by decide), ?_⟩
  exact forall_mem_nil _

theorem AuditRecord.toList_text (record : AuditRecord) :
    ∃ rest, record.text.toList = record.action.toList ++ rest := by
  refine ⟨(String.join (record.pieces.tail.map (·.getD ""))).toList, ?_⟩
  rw [← String.toList_append, ← String.join_cons]
  rfl

theorem text_ne_digest_append {record : AuditRecord} (hlabel : record.action ∈ auditActions)
    {hash : String} (hhash : IsDigest hash) (rest : String) : record.text ≠ hash ++ rest := by
  intro h
  obtain ⟨hunderscore, hlength⟩ := underscore_mem_of_mem_auditActions _ hlabel
  obtain ⟨tail, htail⟩ := record.toList_text
  rw [← String.toList_inj, String.toList_append, htail] at h
  -- The action is not longer than a hash, so it would consist of hexadecimal digits.
  have hprefix : record.action.toList <+: hash.toList ++ rest.toList :=
    h ▸ prefix_append _ _
  have hstart : record.action.toList <+: hash.toList :=
    prefix_of_prefix_length_le hprefix (prefix_append _ _) (hhash.1 ▸ hlength)
  have hdigit := hhash.2 '_' (hstart.subset hunderscore)
  exact absurd hdigit (by decide)

section Tampering

variable {sha256 : List UInt8 → List UInt8}

/-- What can stand as the hash before a row: the empty text or a digest. -/
def IsPrevHash (hash : String) : Prop :=
  hash = "" ∨ IsDigest hash

theorem prevHash_append_inj {prev prev' : String} {record record' : AuditRecord}
    (hprev : IsPrevHash prev) (hprev' : IsPrevHash prev') (hlabel : record.action ∈ auditActions)
    (hlabel' : record'.action ∈ auditActions) (h : prev ++ record.text = prev' ++ record'.text) :
    prev = prev' ∧ record.text = record'.text := by
  rcases hprev with rfl | hdigest
  · rcases hprev' with rfl | hdigest'
    · exact Text.append_inj rfl h
    · rw [String.empty_append] at h
      exact absurd h (text_ne_digest_append hlabel hdigest' _)
  · rcases hprev' with rfl | hdigest'
    · rw [String.empty_append] at h
      exact absurd h.symm (text_ne_digest_append hlabel' hdigest _)
    · exact Text.append_inj (hdigest.1.trans hdigest'.1.symm) h

/-- A row that is left fits only to the right hash, and only if it is not edited. -/
theorem rowFits_left_iff (hsha : Function.Injective sha256) {prev prev' : String}
    {original row : AuditRow} (hhash : row.rowHash = original.rowHash) (hprev : IsPrevHash prev)
    (hprev' : IsPrevHash prev') (hfits : RowFits sha256 prev original) :
    RowFits sha256 prev' row ↔ prev' = prev ∧ rowEdited original row = false := by
  have hmade : RowFits sha256 prev' row ↔ prev' ++ row.text = prev ++ original.text := by
    rw [← rowHash_inj hsha, RowFits, hhash]
    exact ⟨fun h => h.trans hfits.symm, fun h => h.trans hfits⟩
  rw [hmade, rowEdited, decide_eq_false_iff_not, not_ne_iff]
  constructor
  · exact prevHash_append_inj hprev' hprev row.action_label original.action_label
  · rintro ⟨rfl, htext⟩
    rw [htext]

theorem mismatched_tamperedLog (hsha : Function.Injective sha256) {rows : List TamperedRow}
    (hlog : (verifyChain sha256 (originalLog rows)).verified = true)
    (hdistinct : ((originalLog rows).map AuditRow.rowHash).Nodup)
    (hdigest : ∀ row ∈ originalLog rows, IsDigest row.rowHash) :
    HashChain.mismatched AuditRow.rowHash (RowFits sha256) "" (tamperedLog rows) =
      disturbedRows rows := by
  rw [verified_iff_chained] at hlog
  have hmember : ∀ row ∈ rows, row.original ∈ originalLog rows :=
    fun row hrow => mem_map_of_mem hrow
  have hhashes : rows.map (fun row => row.original.rowHash) =
      (originalLog rows).map AuditRow.rowHash := map_map.symm
  refine HashChain.mismatched_tampered AuditRow.rowHash (RowFits sha256) TamperedRow.original
    TamperedRow.left rowEdited IsPrevHash (fun row _ => row.left_hash) ?_
    (fun row hrow => Or.inr (hdigest _ (hmember row hrow))) (hhashes ▸ hdistinct) hlog
    (Or.inl rfl) (Or.inl rfl) ?_ (iff_of_true rfl rfl)
  · intro prev prev' row _ entry hentry hprev hprev' hfits
    exact rowFits_left_iff hsha (row.left_hash entry hentry) hprev hprev' hfits
  · intro hempty
    rw [hhashes, mem_map] at hempty
    obtain ⟨row, hrow, hhash⟩ := hempty
    have hlength := (hdigest row hrow).1
    rw [hhash] at hlength
    cases hlength

/-- What the verifier should say of a tampered log: it lists the edited rows and the first row that
is left after each run of removed ones, and calls the log verified exactly when no row was edited
and only the newest rows were removed. -/
structure Localises (rows : List TamperedRow) (result : IntegrityResult) : Prop where
  listed : result.mismatchedRows = (disturbedRows rows).map AuditRow.id
  verified : result.verified = true ↔ ∃ kept removed, rows = kept ++ removed ∧
    (∀ row ∈ kept, ∃ left, row.left = some left ∧ left.text = row.original.text) ∧
    ∀ row ∈ removed, row.left = none

/-- It says so of rows that it has read. -/
theorem listed_tamperedLog (hsha : Function.Injective sha256) {rows : List TamperedRow}
    (hlog : (verifyChain sha256 (originalLog rows)).verified = true)
    (hdistinct : ((originalLog rows).map AuditRow.rowHash).Nodup)
    (hdigest : ∀ row ∈ originalLog rows, IsDigest row.rowHash) :
    Localises rows (verifyChain sha256 (tamperedLog rows)) := by
  have hlisted := mismatched_tamperedLog hsha hlog hdistinct hdigest
  refine ⟨by rw [verifyChain_mismatchedRows, hlisted], ?_⟩
  rw [verified_iff_chained, ← HashChain.mismatched_eq_nil_iff, hlisted, disturbedRows,
    HashChain.disturbed_false_eq_nil_iff]
  simp only [rowEdited, decide_eq_false_iff_not, not_ne_iff]

/-- **Tampering.** After tampering with a log that the verifier accepts, with distinct hashes, the
verifier answers and lists exactly what was disturbed if and only if no row that is left has an
address. -/
theorem tampering_localised_iff (hsha : Function.Injective sha256) (rows : List TamperedRow)
    (hlog : AcceptsLog sha256 (originalLog rows))
    (hdistinct : ((originalLog rows).map AuditRow.rowHash).Nodup)
    (hdigest : ∀ row ∈ originalLog rows, IsDigest row.rowHash) :
    (∃ result, verifyIntegrity sha256 (tamperedLog rows) = .ok result ∧ Localises rows result) ↔
      ∀ row ∈ tamperedLog rows, row.ipAddress = none := by
  constructor
  · rintro ⟨result, hresult, -⟩
    exact ((verifyIntegrity_eq_ok_iff sha256).mp hresult).2
  · intro hnone
    exact ⟨_, (verifyIntegrity_eq_ok_iff sha256).mpr ⟨rfl, hnone⟩,
      listed_tamperedLog hsha ((acceptsLog_iff sha256).mp hlog).1 hdistinct hdigest⟩

end Tampering

/-- The hash of the login with the given number. -/
def loginHash (number : UInt8) : String :=
  Text.hexEncode (List.replicate 32 number)

theorem userLogin_mem_auditActions : "user_login" ∈ auditActions := by decide

/-- The login of the given second, as a row with the given number. -/
def loginRow (second : Nat) (number : UInt8) (prevHash : String) : AuditRow where
  toAuditRecord := loginAt second 0
  id := number.toNat
  rowHash := loginHash number
  prevHash := prevHash
  action_label := userLogin_mem_auditActions
  createdAt_whole := rfl

/-- An injective function that gives the texts of three logins their hashes. -/
def loginDigest : Equiv.Perm (List UInt8) :=
  Equiv.swap (Text.utf8 (loginAt 0 0).text) (List.replicate 32 1) *
    Equiv.swap (Text.utf8 (loginHash 1 ++ (loginAt 1 0).text)) (List.replicate 32 2) *
    Equiv.swap (Text.utf8 (loginHash 2 ++ (loginAt 2 0).text)) (List.replicate 32 3)

/-- A row that was removed. -/
def AuditRow.removed (row : AuditRow) : TamperedRow where
  original := row
  left := none
  left_id := fun _ h => absurd h (Option.not_mem_none _)
  left_hash := fun _ h => absurd h (Option.not_mem_none _)

/-- A row that has another user name and another address now. -/
def AuditRow.edited (row : AuditRow) (username ipAddress : Option String) : TamperedRow where
  original := row
  left := some { row with actorUsername := username, ipAddress := ipAddress }
  left_id := by
    rintro _ ⟨⟩
    rfl
  left_hash := by
    rintro _ ⟨⟩
    rfl

/-- Three logins: a user name is written into the first, the second is removed and the third left
alone. -/
def tamperedLogins : List TamperedRow :=
  [(loginRow 0 1 "").edited (some "root") none,
    (loginRow 1 2 (loginHash 1)).removed,
    (loginRow 2 3 (loginHash 2)).edited none none]

/-- The logins as they were are accepted. -/
theorem acceptsLog_logins : AcceptsLog loginDigest (originalLog tamperedLogins) := by
  rw [acceptsLog_iff]
  decide +kernel

/-- The verifier lists the edited login and the one after the removed one. -/
theorem tampering_localised_at_logins :
    ∃ result, verifyIntegrity loginDigest (tamperedLog tamperedLogins) = .ok result ∧
      result.mismatchedRows = [1, 3] := by
  have hdigest : ∀ row ∈ originalLog tamperedLogins, IsDigest row.rowHash := by
    intro row hrow
    obtain ⟨number, hhash⟩ : ∃ number, row.rowHash = loginHash number := by
      simp only [originalLog, tamperedLogins, map_cons, map_nil, mem_cons,
        not_mem_nil, or_false] at hrow
      rcases hrow with rfl | rfl | rfl
      · exact ⟨1, rfl⟩
      · exact ⟨2, rfl⟩
      · exact ⟨3, rfl⟩
    rw [hhash]
    exact ⟨by rw [loginHash, Text.length_hexEncode, length_replicate],
      fun _ => Text.isHexDigit_of_mem_hexEncode⟩
  obtain ⟨result, hresult, hlocalises⟩ := (tampering_localised_iff loginDigest.injective
    tamperedLogins acceptsLog_logins (by decide +kernel) hdigest).mpr (by decide +kernel)
  exact ⟨result, hresult, hlocalises.listed.trans (by decide +kernel)⟩

/-- An address is written into a login that the verifier accepts. After that the verifier only
fails. -/
theorem filled_address_unreadable :
    let rows := [(loginRow 0 1 "").edited none (some "10.0.0.1")]
    AcceptsLog loginDigest (originalLog rows) ∧
      verifyIntegrity loginDigest (tamperedLog rows) =
        .error (.datatypeMismatch "ip_address" .inet .text) := by
  intro rows
  rw [acceptsLog_iff]
  exact ⟨by decide +kernel, rfl⟩

end FirewallManager
