import FirewallManager.Audit.Commitment
import FirewallManager.Audit.Tamper

/-!
# Anchors of the audit chain

Once a day the worker reads the newest row hash and copies it into `audit_anchor`. Its two
statements run between those of any number of `log_event` calls, so rows may come in between. The
log only grows, and every anchor stays the hash of some first rows of it (`anchored_run`). To these
rows it commits (`anchor_commits`).
-/

namespace FirewallManager

open List

/-- A row of `audit_anchors`. -/
structure AuditAnchor where
  id : Uuid
  chainHead : String
  anchoredAt : Nat
  anchorType : String
  anchorRef : String
  verifiedAt : Option Nat
  verifiedOk : Option Bool

/-- The tables, and the hash that a pass of the worker has read and not yet inserted. -/
structure AnchoredLog where
  writers : AuditWriters
  chainHead : Option String
  anchors : List AuditAnchor

/-- A statement of a writer, or one of the two of the worker. -/
inductive AnchorStep where
  | write (step : WriterStep)
  | read
  | insert (id : Uuid) (timestamp now : Nat)

section Anchor

variable (sha256 : List UInt8 → List UInt8) (column : TimestampColumn)

/-- A statement of `log_event`, or one of the two of `anchor_chain`. An empty log has no hash to
insert, and no statement verifies an anchor. -/
def anchorStep (state : AnchoredLog) : AnchorStep → AnchoredLog
  | .write step => { state with writers := writerStep sha256 column state.writers step }
  | .read => { state with chainHead := state.writers.log.getLast?.map AuditRow.rowHash }
  | .insert id timestamp now =>
    match state.chainHead with
    | none => state
    | some head =>
      { state with
        chainHead := none
        anchors := state.anchors ++ [⟨id, head, now, "remote_log_host",
          "local-anchor-" ++ toString timestamp, none, none⟩] }

/-- The hash belongs to the last of some first rows of the log. -/
def HeadOf (log : List AuditRow) (head : String) : Prop :=
  ∃ rows, rows <+: log ∧ rows.getLast?.map AuditRow.rowHash = some head

/-- What the passes of the worker keep, also for a hash that is not inserted yet. -/
def AnchoredLog.Anchored (state : AnchoredLog) : Prop :=
  ∀ head ∈ state.chainHead.toList ++ state.anchors.map (·.chainHead), HeadOf state.writers.log head

theorem log_prefix_writerStep (writers : AuditWriters) (step : WriterStep) :
    writers.log <+: (writerStep sha256 column writers step).log := by
  unfold writerStep
  split
  next => exact prefix_rfl
  next =>
    split
    next => exact prefix_rfl
    next =>
      unfold insertRow
      split
      · exact prefix_append _ _
      · exact prefix_rfl

variable {sha256 column}

theorem AnchoredLog.Anchored.step {state : AnchoredLog} (h : state.Anchored)
    (step : AnchorStep) : (anchorStep sha256 column state step).Anchored := by
  cases step with
  | write step =>
    intro head hhead
    obtain ⟨rows, hrows, hlast⟩ := h head hhead
    exact ⟨rows, hrows.trans (log_prefix_writerStep sha256 column state.writers step), hlast⟩
  | read =>
    intro head hhead
    rcases mem_append.mp hhead with hread | hanchor
    · exact ⟨_, prefix_rfl, Option.mem_toList.mp hread⟩
    · exact h head (mem_append_right _ hanchor)
  | insert id timestamp now =>
    simp only [anchorStep]
    split
    next => exact h
    next head' hread =>
      intro head hhead
      refine h head ?_
      simp only [Option.toList_none, nil_append, map_append, map_cons,
        map_nil, mem_append, mem_singleton] at hhead
      rw [hread, Option.toList_some, mem_append, mem_singleton]
      exact hhead.symm

theorem anchored_run {start : AnchoredLog} (hstart : start.Anchored) (steps : List AnchorStep) :
    (Runs.run (anchorStep sha256 column) start steps).Anchored := by
  have hmeets : Runs.Meets (anchorStep sha256 column) (fun _ _ => True) start steps :=
    Runs.meets_of_forall (fun _ _ => trivial) start steps
  exact Runs.run_invariant_end (fun _ step h _ => h.step step) hstart hmeets

theorem verified_of_initial {rows log : List AuditRow} (hrows : rows <+: log)
    (h : (verifyChain sha256 log).verified = true) :
    (verifyChain sha256 rows).verified = true := by
  obtain ⟨rest, rfl⟩ := hrows
  rw [verified_iff_chained, HashChain.chained_append] at h
  exact (verified_iff_chained sha256 rows).mpr h.1

/-- In a log that the verifier accepts, the last of as many rows has the hash exactly if all of
them have the hashes and the texts of these. -/
def CommitsTo (sha256 : List UInt8 → List UInt8) (head : String) (rows : List AuditRow) : Prop :=
  ∀ log' rows' : List AuditRow, (verifyChain sha256 log').verified = true →
    (∀ row ∈ log', row.rowHash.length = 64) → rows' <+: log' → rows'.length = rows.length →
      (rows'.getLast?.map AuditRow.rowHash = some head ↔
        rows'.map AuditRow.rowHash = rows.map AuditRow.rowHash ∧
          rows'.map (·.text) = rows.map (·.text))

/-- **What an anchor commits to.** After every run in which the log stays verified, an anchor
commits to some first rows of it. -/
theorem anchor_commits (hsha : Function.Injective sha256) {start : AnchoredLog}
    (hstart : start.Anchored) (steps : List AnchorStep) {finish : AnchoredLog}
    (hfinish : finish = Runs.run (anchorStep sha256 column) start steps)
    (hlog : (verifyChain sha256 finish.writers.log).verified = true)
    (hdigest : ∀ row ∈ finish.writers.log, row.rowHash.length = 64) :
    ∀ anchor ∈ finish.anchors, ∃ rows, rows <+: finish.writers.log ∧ rows ≠ [] ∧
      CommitsTo sha256 anchor.chainHead rows := by
  intro anchor hanchor
  obtain ⟨rows, hrows, hlast⟩ := hfinish ▸ anchored_run hstart steps anchor.chainHead
    (mem_append_right _ (mem_map_of_mem (hfinish ▸ hanchor)))
  have hne : rows ≠ [] := by
    rintro rfl
    cases hlast
  refine ⟨rows, hrows, hne, fun log' rows' hlog' hdigest' hrows' hlength => ?_⟩
  rw [← hlast]
  constructor
  · intro hsame
    have hboth : ∀ row ∈ rows' ++ rows, row.rowHash.length = 64 :=
      forall_mem_append.mpr ⟨fun row hrow => hdigest' row (hrows'.subset hrow),
        fun row hrow => hdigest row (hrows.subset hrow)⟩
    have hpairs := forall₂_of_chainHead_eq hsha (verified_of_initial hrows' hlog')
      (verified_of_initial hrows hlog) hlength hboth (congrArg (·.getD "") hsame)
    exact ⟨Lists.map_eq_map_iff_forall₂.mpr (hpairs.imp fun _ _ h => h.1),
      Lists.map_eq_map_iff_forall₂.mpr (hpairs.imp fun _ _ h => h.2)⟩
  · rintro ⟨hhashes, -⟩
    rw [← getLast?_map, ← getLast?_map, hhashes]

end Anchor

/-- The first of three logins. -/
def firstLogin : AuditRow :=
  loginRow 0 1 ""

/-- The worker's first pass after a login. -/
theorem anchor_commits_at_login : ∃ rows, rows <+: [firstLogin] ∧ rows ≠ [] ∧
    CommitsTo loginDigest firstLogin.rowHash rows := by
  have hverified : (verifyChain loginDigest [firstLogin]).verified = true := by decide +kernel
  have hstart : AnchoredLog.Anchored ⟨⟨[firstLogin], []⟩, none, []⟩ := forall_mem_nil _
  have hfinish : (⟨⟨[firstLogin], []⟩, none, [⟨⟨5⟩, firstLogin.rowHash, 86401, "remote_log_host",
      "local-anchor-86400", none, none⟩]⟩ : AnchoredLog) =
        Runs.run (anchorStep loginDigest .truncating) ⟨⟨[firstLogin], []⟩, none, []⟩
          [.read, .insert ⟨5⟩ 86400 86401] := rfl
  exact anchor_commits loginDigest.injective hstart _ hfinish hverified
    (forall_mem_singleton.mpr rfl) _ (mem_singleton_self _)

end FirewallManager
