import FirewallManager.Audit.Writers
import Mathlib.Data.List.Forall2
import FirewallManager.Lib.Lists

/-!
# What the head of the audit chain commits to

The newest row hash is anchored outside of the database. With an injective SHA-256 it determines
the hashes of all rows before it and the hashed text of each of them. The text is a row's fields
without separators, so it does not determine the fields: `AuditRecord.shifted` moves the target
identifier into the target type and keeps the text (`text_shifted`). Only together with the
lengths of the pieces the text gives the fields back (`AuditRecord.eq_of_text_eq`).

`chain_head_commits_iff` puts this together for whole logs.
-/

namespace FirewallManager

open List

namespace AuditRecord

/-- Which pieces of a record are present, and how long they are. -/
def layout (record : AuditRecord) : List (Option Nat) :=
  record.pieces.map (·.map String.length)

theorem eq_of_text_eq {record record' : AuditRecord} (htext : record.text = record'.text)
    (hlayout : record.layout = record'.layout) : record = record' := by
  have hpieces : record.pieces = record'.pieces := Text.pieces_eq_of_join_eq hlayout htext
  simp only [pieces, List.cons.injEq, Option.some.injEq, and_true] at hpieces
  obtain ⟨haction, huser, hname, htype, hid, hdetails, haddress, hrequest, htime⟩ := hpieces
  cases record
  cases record'
  simp only [mk.injEq]
  exact ⟨haction, Option.map_injective Uuid.text_injective huser, hname, htype, hid, hdetails,
    haddress, hrequest, Timestamp.toRfc3339_injective htime⟩

/-- The record with its target identifier moved to the end of its target type. -/
def shifted (record : AuditRecord) : AuditRecord :=
  { record with
    targetType := match record.targetId with
      | some target => some (record.targetType.getD "" ++ target)
      | none => record.targetType
    targetId := match record.targetId with
      | some _ => none
      | none => some "" }

theorem text_shifted (record : AuditRecord) : record.shifted.text = record.text := by
  cases htarget : record.targetId with
  | some target =>
    simp only [text, pieces, shifted, htarget, map_cons, String.join_cons, Option.getD_some,
      Option.getD_none, String.empty_append, String.append_assoc]
  | none =>
    simp only [text, pieces, shifted, htarget, map_cons, Option.getD_some, Option.getD_none]

theorem shifted_ne (record : AuditRecord) : record.shifted ≠ record := by
  intro h
  have htarget := congrArg targetId h
  cases hold : record.targetId <;> simp [shifted, hold] at htarget

end AuditRecord

/-- The row of the shifted record. -/
def AuditRow.shifted (row : AuditRow) : AuditRow :=
  { row with
    toAuditRecord := row.toAuditRecord.shifted
    action_label := row.action_label
    createdAt_whole := row.createdAt_whole }

section Commitment

variable {sha256 : List UInt8 → List UInt8}

theorem rowHash_congr {prev : String} {record record' : AuditRecord}
    (h : record.text = record'.text) :
    rowHash sha256 prev record = rowHash sha256 prev record' := by
  rw [rowHash, rowHash, ← AuditRecord.utf8_text, ← AuditRecord.utf8_text, h]

theorem rowFits_shifted (prev : String) (row : AuditRow) :
    RowFits sha256 prev row.shifted ↔ RowFits sha256 prev row := by
  show rowHash sha256 prev row.toAuditRecord.shifted = row.rowHash ↔
    rowHash sha256 prev row.toAuditRecord = row.rowHash
  rw [rowHash_congr row.toAuditRecord.text_shifted]

theorem verified_map_shifted (sha256 : List UInt8 → List UInt8) (log : List AuditRow) :
    ((verifyChain sha256 (log.map AuditRow.shifted)).verified = true ↔
        (verifyChain sha256 log).verified = true) ∧
      chainHead (log.map AuditRow.shifted) = chainHead log := by
  rw [verified_iff_chained, verified_iff_chained, chainHead_eq_head, chainHead_eq_head]
  exact HashChain.chained_map AuditRow.rowHash (RowFits sha256) AuditRow.shifted (fun _ => rfl)
    rowFits_shifted

theorem forall₂_of_chainHead_eq (hsha : Function.Injective sha256) {log log' : List AuditRow}
    (hlog : (verifyChain sha256 log).verified = true)
    (hlog' : (verifyChain sha256 log').verified = true) (hlength : log.length = log'.length)
    (hdigest : ∀ row ∈ log ++ log', row.rowHash.length = 64)
    (hhead : chainHead log = chainHead log') :
    List.Forall₂ (fun row row' => row.rowHash = row'.rowHash ∧ row.text = row'.text) log log' := by
  rw [verified_iff_chained] at hlog hlog'
  rw [chainHead_eq_head, chainHead_eq_head] at hhead
  -- Previous hashes of one length are where the concatenation can be split.
  have hinj : ∀ (p p' : String) (row row' : AuditRow), p.length = p'.length →
      RowFits sha256 p row → RowFits sha256 p' row' → row.rowHash = row'.rowHash →
        p = p' ∧ row.text = row'.text := by
    intro p p' row row' hsame hrow hrow' hhash
    have htext := (rowHash_inj hsha).mp ((hrow.trans hhash).trans hrow'.symm)
    exact Text.append_inj hsame htext
  refine (HashChain.forall₂_of_head_eq AuditRow.rowHash (RowFits sha256) hinj hlength hlog hlog' rfl
    ?_ hhead).2
  intro row hrow row' hrow'
  rw [hdigest row (mem_append_left _ hrow), hdigest row' (mem_append_right _ hrow')]

/-- An accepted log with the head and the length of this one has the same fields. -/
def HeadCommits (accepts : List AuditRow → Prop) (log : List AuditRow) : Prop :=
  ∀ log' : List AuditRow, accepts log' → log'.length = log.length → chainHead log' = chainHead log →
    log'.map AuditRow.toAuditRecord = log.map AuditRow.toAuditRecord

theorem headCommits_iff {accepts : List AuditRow → Prop} {log : List AuditRow}
    (hshifted : accepts (log.map AuditRow.shifted)) : HeadCommits accepts log ↔ log = [] := by
  constructor
  · intro hcommits
    have hfields := hcommits _ hshifted (length_map _) (verified_map_shifted id log).2
    cases log with
    | nil => rfl
    | cons row log =>
      rw [map_cons, map_cons, map_cons, List.cons.injEq] at hfields
      exact absurd hfields.1 row.toAuditRecord.shifted_ne
  · rintro rfl log' _ hlength _
    rw [length_eq_zero_iff.mp hlength]

theorem acceptsLog_map_shifted {log : List AuditRow} (h : AcceptsLog sha256 log) :
    AcceptsLog sha256 (log.map AuditRow.shifted) := by
  rw [acceptsLog_iff] at h ⊢
  exact ⟨(verified_map_shifted sha256 log).1.mpr h.1, forall_mem_map.mpr h.2⟩

/-- The head of a verified log determines the fields of its rows exactly when there are none, also
among the logs that `verify_integrity` accepts. Against another verified log with the same head and
length, the hashes and the hashed texts agree row by row, and the fields agree exactly when the
layouts do. -/
theorem chain_head_commits_iff (log : List AuditRow)
    (hlog : (verifyChain sha256 log).verified = true) :
    (HeadCommits (fun log' => (verifyChain sha256 log').verified = true) log ↔ log = []) ∧
      (AcceptsLog sha256 log → (HeadCommits (AcceptsLog sha256) log ↔ log = [])) ∧
      (Function.Injective sha256 → ∀ log' : List AuditRow,
        (verifyChain sha256 log').verified = true → log'.length = log.length →
        chainHead log' = chainHead log → (∀ row ∈ log' ++ log, row.rowHash.length = 64) →
          log'.map AuditRow.rowHash = log.map AuditRow.rowHash ∧
            log'.map (·.text) = log.map (·.text) ∧
            (log'.map AuditRow.toAuditRecord = log.map AuditRow.toAuditRecord ↔
              log'.map (·.layout) = log.map (·.layout))) := by
  refine ⟨headCommits_iff ((verified_map_shifted sha256 log).1.mpr hlog),
    fun haccepts => headCommits_iff (acceptsLog_map_shifted haccepts), ?_⟩
  intro hsha log' hlog' hlength hhead hdigest
  have hrows := forall₂_of_chainHead_eq hsha hlog' hlog hlength hdigest hhead
  have htexts := hrows.imp fun _ _ h => h.2
  refine ⟨Lists.map_eq_map_iff_forall₂.mpr (hrows.imp fun _ _ h => h.1),
    Lists.map_eq_map_iff_forall₂.mpr htexts, ?_, ?_⟩
  · intro hfields
    have hlayouts := congrArg (List.map AuditRecord.layout) hfields
    rwa [map_map, map_map] at hlayouts
  · intro hlayouts
    rw [Lists.map_eq_map_iff_forall₂] at hlayouts ⊢
    exact List.Forall₂.mp (fun _ _ => AuditRecord.eq_of_text_eq) htexts hlayouts

end Commitment

/-- A login with a given user name and target type. -/
def loginOf (username targetType : Option String) : AuditRecord :=
  { loginAt 0 0 with actorUsername := username, targetType := targetType }

/-- The login of a user and the login of nobody on a target with the user's name are two verified
logs with one head. -/
theorem erased_username_unnoticed :
    let log := logEvent id .truncating [] (loginOf (some "root") none)
    let log' := logEvent id .truncating [] (loginOf none (some "root"))
    verifyIntegrity id log = .ok ⟨true, [], 1⟩ ∧ verifyIntegrity id log' = .ok ⟨true, [], 1⟩ ∧
      log.length = log'.length ∧ chainHead log = chainHead log' ∧
      log.map (·.actorUsername) = [some "root"] ∧ log'.map (·.actorUsername) = [none] := by
  decide +kernel

/-- The characterisation at the login of a user: its head does not commit to its fields. -/
theorem chain_head_commits_at_login :
    ¬ HeadCommits (AcceptsLog id) (logEvent id .truncating [] (loginOf (some "root") none)) := by
  intro hcommits
  have hnil := ((chain_head_commits_iff _ (by decide +kernel)).2.1 ⟨⟨true, [], 1⟩, rfl, rfl⟩).mp
    hcommits
  cases hnil

end FirewallManager
