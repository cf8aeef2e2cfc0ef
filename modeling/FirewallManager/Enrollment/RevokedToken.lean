import FirewallManager.Enrollment.Interleaving

/-!
# Revoked tokens

A revocation writes the column `revoked_at` of a token. No submission reads that column. So a
history of tokens and submissions goes the same way with its revocations and without them
(`alike_run`), and a revoked token is refused only where it would be refused anyway
(`revoked_tokens_dead_iff`).
-/

namespace FirewallManager

open List

/-- The operations on tokens, each at its time. -/
inductive TokenOp where
  | create (user : AuthUser) (now : Nat) (token : String) (req : CreateTokenRequest)
  | revoke (user : AuthUser) (now : Nat) (hash : String)
  | submit (now : Nat) (req : SubmitEnrollmentRequest) (polling id : Uuid)
  deriving DecidableEq, Repr

/-- The tables after an operation. -/
def tokenStep (env : EnrollEnv) (store : EnrollStore) : TokenOp → EnrollStore
  | .create user now token req => (createToken env user now token req store).2
  | .revoke user now hash => (revokeToken user now hash store).2
  | .submit now req polling id => (submitEnrollment env now req polling id store).2

/-- An admin revokes the token with the hash. -/
def TokenOp.Revokes (hash : String) : TokenOp → Prop
  | .revoke user _ revoked => user.role.isAdmin = true ∧ revoked = hash
  | _ => False

/-- The operation is a revocation. -/
def TokenOp.isRevoke : TokenOp → Bool
  | .revoke _ _ _ => true
  | _ => false

/-- The token is there, unused, unexpired and for this host, and the request can be stored. -/
def EnrollStore.Accepts (env : EnrollEnv) (now : Nat) (req : SubmitEnrollmentRequest)
    (polling id : Uuid) (store : EnrollStore) : Prop :=
  (∃ row ∈ store.tokens.rows, row.tokenHash = env.hashToken req.token ∧ row.usedAt = none ∧
      now ≤ row.expiresAt ∧ row.hostFqdn = req.fqdn) ∧
    ∃ requests, upsertRequest env now req polling id store.requests = .ok requests

section Acceptance

variable {env : EnrollEnv} {now : Nat} {req : SubmitEnrollmentRequest} {polling id : Uuid}
  {store : EnrollStore}

theorem checkToken_ok_iff {hash : String} :
    checkToken now hash store = .ok () ↔
      ∃ row, store.tokens.find? hash = some row ∧ row.usedAt = none ∧ now ≤ row.expiresAt := by
  unfold checkToken
  cases hfind : store.tokens.find? hash with
  | none => simp
  | some row =>
    cases hused : row.usedAt with
    | some time => simp [hused]
    | none =>
      by_cases hexpired : row.expiresAt < now
      · simp [hused, hexpired]
      · simp [hused, hexpired, Int.not_lt.mp hexpired]

theorem checkFqdn_ok_iff {hash fqdn : String} :
    checkFqdn hash fqdn store = .ok () ↔
      ∃ row, store.tokens.find? hash = some row ∧ row.hostFqdn = fqdn := by
  unfold checkFqdn
  rw [← Option.map_eq_some_iff]
  split
  next h => exact iff_of_true rfl h
  next h => simp [h]

/-- A submission that meets no other call succeeds exactly under its four conditions. -/
theorem submitEnrollment_ok_iff :
    (∃ token, (submitEnrollment env now req polling id store).1 = .ok token) ↔
      store.Accepts env now req polling id := by
  have hchecks : (∃ row ∈ store.tokens.rows, row.tokenHash = env.hashToken req.token ∧
      row.usedAt = none ∧ now ≤ row.expiresAt ∧ row.hostFqdn = req.fqdn) ↔
      checkToken now (env.hashToken req.token) store = .ok () ∧
        checkFqdn (env.hashToken req.token) req.fqdn store = .ok () := by
    rw [checkToken_ok_iff, checkFqdn_ok_iff]
    constructor
    · rintro ⟨row, hrow, hhash, hunused, hvalid, hfqdn⟩
      have hfind := Table.find?_eq_some_iff.mpr ⟨hrow, hhash⟩
      exact ⟨⟨row, hfind, hunused, hvalid⟩, row, hfind, hfqdn⟩
    · rintro ⟨⟨row, hfind, hunused, hvalid⟩, other, hother, hfqdn⟩
      rw [hfind] at hother
      cases hother
      obtain ⟨hrow, hhash⟩ := Table.find?_eq_some_iff.mp hfind
      exact ⟨row, hrow, hhash, hunused, hvalid, hfqdn⟩
  rw [EnrollStore.Accepts, hchecks, submitEnrollment]
  dsimp only
  cases checkToken now (env.hashToken req.token) store with
  | error e => simp
  | ok =>
    cases checkFqdn (env.hashToken req.token) req.fqdn store with
    | error e => simp
    | ok =>
      have hrequests : (store.markUsed now (env.hashToken req.token)).requests =
        store.requests := rfl
      rw [hrequests]
      cases upsertRequest env now req polling id store.requests with
      | error e => simp
      | ok requests => simp

end Acceptance

/-- The row without the column that a revocation writes. -/
def EnrollToken.plain (row : EnrollToken) : EnrollToken :=
  { row with revokedAt := none }

/-- The tables differ at most in which tokens are revoked. -/
structure EnrollStore.Alike (store store' : EnrollStore) : Prop where
  tokens : store.tokens.rows.map EnrollToken.plain = store'.tokens.rows.map EnrollToken.plain
  requests : store.requests = store'.requests
  pki : store.pki = store'.pki
  ca : store.ca = store'.ca

section Alike

variable {env : EnrollEnv} {store store' : EnrollStore}

theorem EnrollStore.Alike.refl (store : EnrollStore) : store.Alike store :=
  ⟨rfl, rfl, rfl, rfl⟩

theorem EnrollStore.Alike.find? (h : store.Alike store') (hash : String) :
    (store.tokens.find? hash).map EnrollToken.plain =
      (store'.tokens.find? hash).map EnrollToken.plain := by
  have hfind (table : Table EnrollToken.tokenHash) : (table.find? hash).map EnrollToken.plain =
      ((table.rows.map EnrollToken.plain).filter fun row =>
        decide (row.tokenHash = hash)).head? := by
    rw [filter_map, head?_map]
    rfl
  rw [hfind, hfind, h.tokens]

theorem EnrollStore.Alike.has (h : store.Alike store') (hash : String) :
    store.tokens.has hash = store'.tokens.has hash := by
  have hfind := congrArg Option.isSome (h.find? hash)
  rw [Option.isSome_map, Option.isSome_map] at hfind
  exact hfind

/-- The checks of a submission do not read the revocation. -/
theorem EnrollStore.Alike.checks (h : store.Alike store') (now : Nat) (hash fqdn : String) :
    checkToken now hash store = checkToken now hash store' ∧
      checkFqdn hash fqdn store = checkFqdn hash fqdn store' := by
  have hfind := h.find? hash
  unfold checkToken checkFqdn
  cases hrow : store.tokens.find? hash with
  | none =>
    cases hrow' : store'.tokens.find? hash with
    | none => exact ⟨rfl, rfl⟩
    | some row' =>
      rw [hrow, hrow'] at hfind
      cases hfind
  | some row =>
    cases hrow' : store'.tokens.find? hash with
    | none =>
      rw [hrow, hrow'] at hfind
      cases hfind
    | some row' =>
      rw [hrow, hrow'] at hfind
      have hplain : row.plain = row'.plain := Option.some.inj hfind
      have hfqdn : row.hostFqdn = row'.hostFqdn := (congrArg EnrollToken.hostFqdn hplain :)
      have hexpires : row.expiresAt = row'.expiresAt := (congrArg EnrollToken.expiresAt hplain :)
      have hused : row.usedAt = row'.usedAt := (congrArg EnrollToken.usedAt hplain :)
      simp only [Option.map_some, hfqdn, hexpires, hused, and_self]

theorem EnrollStore.Alike.markUsed (h : store.Alike store') (now : Nat) (hash : String) :
    (store.markUsed now hash).Alike (store'.markUsed now hash) := by
  have hmark (table : Table EnrollToken.tokenHash) :
      (table.rows.map fun row => if decide (row.tokenHash = hash) = true then row.use now
        else row).map EnrollToken.plain =
      (table.rows.map EnrollToken.plain).map fun row => if decide (row.tokenHash = hash) = true
        then row.use now else row := by
    rw [map_map, map_map]
    refine map_congr_left fun row _ => ?_
    by_cases hhash : row.tokenHash = hash
    · simp [hhash, EnrollToken.plain, EnrollToken.use]
    · simp [hhash, EnrollToken.plain]
  refine ⟨?_, h.requests, h.pki, h.ca⟩
  show (store.tokens.rows.map _).map EnrollToken.plain =
    (store'.tokens.rows.map _).map EnrollToken.plain
  rw [hmark, hmark, h.tokens]

/-- A revocation changes nothing else. -/
theorem EnrollStore.Alike.revokeToken (h : store.Alike store') (user : AuthUser) (now : Nat)
    (hash : String) : (revokeToken user now hash store).2.Alike store' := by
  unfold FirewallManager.revokeToken
  split
  · exact h
  · refine ⟨?_, h.requests, h.pki, h.ca⟩
    rw [← h.tokens]
    show (store.tokens.rows.map _).map EnrollToken.plain = _
    rw [map_map]
    refine map_congr_left fun row _ => ?_
    by_cases hhash : row.tokenHash = hash
    · simp [hhash, EnrollToken.plain, EnrollToken.revoke]
    · simp [hhash]

theorem EnrollStore.Alike.createToken (h : store.Alike store') (user : AuthUser) (now : Nat)
    (token : String) (req : CreateTokenRequest) :
    (createToken env user now token req store).2.Alike
      (createToken env user now token req store').2 := by
  unfold FirewallManager.createToken
  split
  · exact h
  · split
    · exact h
    · have hhas := h.has (env.hashToken token)
      unfold Table.insert?
      by_cases hfree : store.tokens.has (env.hashToken token) = false
      · rw [dif_pos hfree, dif_pos (hhas ▸ hfree)]
        refine ⟨?_, h.requests, h.pki, h.ca⟩
        show (store.tokens.rows ++ [_]).map EnrollToken.plain =
          (store'.tokens.rows ++ [_]).map EnrollToken.plain
        rw [map_append, map_append, h.tokens]
      · rw [dif_neg hfree, dif_neg (hhas ▸ hfree)]
        exact h

/-- A submission answers the same on alike tables and leaves alike tables. -/
theorem EnrollStore.Alike.submitEnrollment (h : store.Alike store') (now : Nat)
    (req : SubmitEnrollmentRequest) (polling id : Uuid) :
    (submitEnrollment env now req polling id store).1 =
        (submitEnrollment env now req polling id store').1 ∧
      (submitEnrollment env now req polling id store).2.Alike
        (submitEnrollment env now req polling id store').2 := by
  obtain ⟨hcheck, hfqdn⟩ := h.checks now (env.hashToken req.token) req.fqdn
  have hmarked := h.markUsed now (env.hashToken req.token)
  unfold FirewallManager.submitEnrollment
  dsimp only
  rw [hcheck, hfqdn, hmarked.requests]
  cases checkToken now (env.hashToken req.token) store' with
  | error e => exact ⟨rfl, h⟩
  | ok =>
    cases checkFqdn (env.hashToken req.token) req.fqdn store' with
    | error e => exact ⟨rfl, h⟩
    | ok =>
      cases upsertRequest env now req polling id
          (store'.markUsed now (env.hashToken req.token)).requests with
      | error e => exact ⟨rfl, hmarked⟩
      | ok requests => exact ⟨rfl, hmarked.tokens, rfl, hmarked.pki, hmarked.ca⟩

theorem EnrollStore.Alike.step (h : store.Alike store') {op : TokenOp} (hop : op.isRevoke = false) :
    (tokenStep env store op).Alike (tokenStep env store' op) := by
  cases op with
  | create user now token req => exact h.createToken user now token req
  | revoke user now hash => cases hop
  | submit now req polling id => exact (h.submitEnrollment now req polling id).2

/-- A history leaves tables that are alike with and without its revocations. -/
theorem alike_run (env : EnrollEnv) (store : EnrollStore) (ops : List TokenOp) :
    (Runs.run (tokenStep env) store ops).Alike
      (Runs.run (tokenStep env) store (ops.filter fun op => !op.isRevoke)) := by
  induction ops using List.reverseRecOn with
  | nil => exact .refl store
  | append_singleton ops op ih =>
    rw [Runs.run_concat, filter_append]
    cases hop : op.isRevoke with
    | false =>
      rw [filter_singleton, hop, Bool.not_false, cond_true, Runs.run_concat]
      exact ih.step hop
    | true =>
      rw [filter_singleton, hop, Bool.not_true, cond_false, append_nil]
      cases op with
      | create => cases hop
      | submit => cases hop
      | revoke user now hash => exact ih.revokeToken user now hash

end Alike

/-- Every submission of the history that comes after a revocation of its token is refused. -/
def RevokedTokensDead (env : EnrollEnv) (store : EnrollStore) (ops : List TokenOp) : Prop :=
  ∀ before now req polling id after, ops = before ++ .submit now req polling id :: after →
    (∃ op ∈ before, op.Revokes (env.hashToken req.token)) →
      ∃ e, (submitEnrollment env now req polling id
        (Runs.run (tokenStep env) store before)).1 = .error e

/-- **When revoked tokens are dead.** In any history of tokens and submissions, every submission
after a revocation of its token is refused if and only if it would be refused had nothing been
revoked at all. -/
theorem revoked_tokens_dead_iff (env : EnrollEnv) (store : EnrollStore) (ops : List TokenOp) :
    RevokedTokensDead env store ops ↔
      ∀ before now req polling id after, ops = before ++ .submit now req polling id :: after →
        (∃ op ∈ before, op.Revokes (env.hashToken req.token)) →
          ¬ (Runs.run (tokenStep env) store (before.filter fun op => !op.isRevoke)).Accepts env
            now req polling id := by
  have hrefused (before : List TokenOp) (now : Nat) (req : SubmitEnrollmentRequest)
      (polling id : Uuid) :
      (∃ e, (submitEnrollment env now req polling id
        (Runs.run (tokenStep env) store before)).1 = .error e) ↔
      ¬ (Runs.run (tokenStep env) store (before.filter fun op => !op.isRevoke)).Accepts env now req
        polling id := by
    rw [← submitEnrollment_ok_iff,
      ((alike_run env store before).submitEnrollment now req polling id).1]
    cases (submitEnrollment env now req polling id
      (Runs.run (tokenStep env) store (before.filter fun op => !op.isRevoke))).1 with
    | ok token => simp
    | error e => simp
  constructor
  · intro hdead before now req polling id after hops hrevoked
    exact (hrefused before now req polling id).mp
      (hdead before now req polling id after hops hrevoked)
  · intro hdead before now req polling id after hops hrevoked
    exact (hrefused before now req polling id).mpr
      (hdead before now req polling id after hops hrevoked)

/-- A token is issued and revoked, and the submission that presents it succeeds. -/
theorem revoked_token_accepted :
    ¬ RevokedTokensDead plainEnv { oneToken with tokens := .empty }
      [.create caAdmin 0 "token" ⟨"web", none, none⟩,
        .revoke caAdmin 1 (plainEnv.hashToken "token"),
        .submit 2 ⟨"token", "csr", "web", "10.0.0.1"⟩ ⟨1⟩ ⟨2⟩] := by
  intro hdead
  obtain ⟨e, herror⟩ := hdead [.create caAdmin 0 "token" ⟨"web", none, none⟩,
    .revoke caAdmin 1 (plainEnv.hashToken "token")] 2 ⟨"token", "csr", "web", "10.0.0.1"⟩ ⟨1⟩ ⟨2⟩ []
    rfl ⟨_, mem_cons_of_mem _ (mem_singleton_self _), rfl, rfl⟩
  have hok : (submitEnrollment plainEnv 2 ⟨"token", "csr", "web", "10.0.0.1"⟩ ⟨1⟩ ⟨2⟩
      (Runs.run (tokenStep plainEnv) { oneToken with tokens := .empty }
        [.create caAdmin 0 "token" ⟨"web", none, none⟩,
          .revoke caAdmin 1 (plainEnv.hashToken "token")])).1 = .ok ⟨1⟩ := by
    decide +kernel
  rw [hok] at herror
  cases herror

end FirewallManager
