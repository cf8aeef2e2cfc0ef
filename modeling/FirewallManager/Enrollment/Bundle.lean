import FirewallManager.Enrollment.Interleaving

/-!
# Which host gets which bundle

A resubmission overwrites the polling token and the CSR of a pending request, also while an approval
of that request is on its way. The approval has read both in one statement, and goes on with what it
read.

`Bound` says for every place of the state that a hash of a polling token stands beside the key of
the CSR that came in with it, and `Located` that a bundle is in one place: with its approval, in the
map or with the poll that took it. `bundle_bound_to_requester` follows for every interleaving.
-/

namespace FirewallManager

open List

section Phases

/-- The request that an approval on its way has read. -/
def ApprovePhase.row? : ApprovePhase → Option PendingEnrollment
  | .selected row => some row
  | .free row => some row
  | .registered row _ _ => some row
  | .signed row _ _ => some row
  | _ => none

/-- The bundle of an approval that has not handed it over yet. -/
def ApprovePhase.bundle? : ApprovePhase → Option PkiBundle
  | .signed _ _ bundle => some bundle
  | _ => none

/-- The bundle of an approval that has not handed it over yet. -/
def PollPhase.bundle? : PollPhase → Option PkiBundle
  | .answered (.approved bundle _) => some bundle
  | _ => none

theorem mem_cacheEntry {entry other : ApprovedEntry} {approved : Table ApprovedEntry.pollingHash} :
    other ∈ (cacheEntry entry approved).rows ↔
      other ∈ approved.rows ∧ other.pollingHash ≠ entry.pollingHash ∨ other = entry := by
  have hfree : (approved.delete fun other =>
      decide (other.pollingHash = entry.pollingHash)).has entry.pollingHash = false := by
    rw [Bool.eq_false_iff]
    intro htaken
    obtain ⟨row, hrow, hkey⟩ := Table.has_eq_true_iff.mp htaken
    exact of_decide_eq_false (Table.mem_delete.mp hrow).2 hkey
  unfold cacheEntry
  rw [Table.mem_insertNew, Table.mem_delete, decide_eq_false_iff_not]
  simp only [hfree, true_and, ne_eq]

/-- What one statement does to an approval, to the requests, to the certificates and to the map. -/
inductive ApproveMove (env : EnrollEnv) (call : ApproveCall) (store : EnrollStore)
    (approved : Table ApprovedEntry.pollingHash) :
    ApprovePhase → EnrollStore → Table ApprovedEntry.pollingHash → Prop where
  | carry (phase : ApprovePhase) (hrow : phase.row? = call.phase.row?)
      (hbundle : phase.bundle? = none) (store' : EnrollStore)
      (hrequests : store'.requests = store.requests)
      (hcerts : store'.pki.certificates = store.pki.certificates) :
      ApproveMove env call store approved phase store' approved
  | sign {row : PendingEnrollment} {csr : String} {host : Uuid} {bundle : PkiBundle}
      {leaf : Certificate} {pki : PkiDatabase} (hphase : call.phase.row? = some row)
      (hcsr : row.csr = some csr) (hkey : env.csrKey csr = some bundle.serverCert.publicKey)
      (hserial : bundle.serverCert.serial = leaf.serial) (hleaf : leaf.tier = .leaf)
      (hinsert : store.pki.insertCertificate leaf = some pki) :
      ApproveMove env call store approved (.signed row host bundle) { store with pki := pki }
        approved
  | cache {row : PendingEnrollment} {host : Uuid} {bundle : PkiBundle}
      (hphase : call.phase = .signed row host bundle) :
      ApproveMove env call store approved (.cached host) store
        (cacheEntry ⟨row.pollingToken, bundle, host⟩ approved)
  | finish (phase : ApprovePhase) (hrow : phase.row? = none) (hbundle : phase.bundle? = none)
      (store' : EnrollStore)
      (hrequests : ∀ row ∈ store'.requests.rows, row ∈ store.requests.rows)
      (hcerts : store'.pki.certificates = store.pki.certificates) :
      ApproveMove env call store approved phase store' approved

variable {env : EnrollEnv} {store : EnrollStore} {approved : Table ApprovedEntry.pollingHash}

theorem ApproveMove.fail {call : ApproveCall} (e : EnrollmentError) :
    ApproveMove env call store approved (.failed e) store approved :=
  .finish (.failed e) rfl rfl store (fun _ h => h) rfl

theorem approveMove_next (env : EnrollEnv) (now : Nat) (draws : ApprovalDraws) (interval : Int)
    (call : ApproveCall) (store : EnrollStore) (approved : Table ApprovedEntry.pollingHash) :
    ApproveMove env call store approved
      (approveNext env now draws interval call store approved).1
      (approveNext env now draws interval call store approved).2.1
      (approveNext env now draws interval call store approved).2.2 := by
  unfold approveNext
  split
  next row hphase =>
    split
    · exact .fail _
    · exact .carry _ (by rw [hphase]; rfl) rfl store rfl rfl
  next row hphase =>
    split
    · exact .fail _
    · split
      next => exact .fail _
      next pki hhost =>
        exact .carry _ (by rw [hphase]; rfl) rfl { store with pki := pki } rfl
          (PkiDatabase.registerHost_certificates hhost)
  next row host interval' hphase =>
    dsimp only
    unfold approveSign
    split
    next => exact .fail _
    next csr hcsr =>
      unfold signCsr
      cases hkey : env.csrKey csr with
      | none => exact .fail _
      | some key =>
        dsimp only [Option.map_some]
        split
        next => exact .fail _
        next pki hinsert =>
          exact .sign (by rw [hphase]; rfl) hcsr hkey rfl rfl hinsert
  next row host bundle hphase => exact .cache hphase
  next host hphase =>
    exact .finish .approved rfl rfl _ (fun row hrow => mem_of_mem_filter hrow) rfl
  next hphase => exact .finish .approved rfl rfl store (fun _ h => h) rfl
  next e hphase => exact .fail e

end Phases

section Binding

/-- A submission returned a polling token with this hash, for this CSR. -/
def EnrollState.Returned (env : EnrollEnv) (state : EnrollState) (hash csr : String) : Prop :=
  ∃ (i : Nat) (req : SubmitEnrollmentRequest) (polling : Uuid),
    state.submits[i]? = some ⟨req, .returned polling⟩ ∧ env.hashToken polling.text = hash ∧
      req.csr = csr

/-- The key is that of the CSR of the submission whose polling token has the hash. -/
def EnrollState.Owns (env : EnrollEnv) (state : EnrollState) (hash : String)
    (key : List UInt8) : Prop :=
  ∃ csr, state.Returned env hash csr ∧ env.csrKey csr = some key

/-- The polling token and the CSR of the request come from one submission. -/
def EnrollState.Pairs (env : EnrollEnv) (state : EnrollState) (row : PendingEnrollment) : Prop :=
  ∃ csr, row.csr = some csr ∧ state.Returned env row.pollingToken csr

/-- In every place, a hash of a polling token is beside what came in with the token. -/
structure EnrollState.Bound (env : EnrollEnv) (state : EnrollState) : Prop where
  requests : ∀ row ∈ state.store.requests.rows, state.Pairs env row
  reads : ∀ call ∈ state.approvals, ∀ row, call.phase.row? = some row → state.Pairs env row
  signs : ∀ call ∈ state.approvals, ∀ row host bundle, call.phase = .signed row host bundle →
    state.Owns env row.pollingToken bundle.serverCert.publicKey
  approved : ∀ entry ∈ state.approved.rows,
    state.Owns env entry.pollingHash entry.bundle.serverCert.publicKey
  polls : ∀ call ∈ state.polls, ∀ bundle, call.phase.bundle? = some bundle →
    state.Owns env (env.hashToken call.token) bundle.serverCert.publicKey

variable {env : EnrollEnv} {state state' : EnrollState}

theorem EnrollState.Bound.wait (h : state.Bound env) (elapsed : Nat) :
    (state.wait elapsed).Bound env :=
  ⟨h.requests, h.reads, h.signs, h.approved, h.polls⟩

/-- A submission that has returned stays as it is. -/
theorem returned_act {i : Nat} {req : SubmitEnrollmentRequest} {polling : Uuid}
    (h : state.submits[i]? = some ⟨req, .returned polling⟩) (action : EnrollAction) :
    (state.act env action).submits[i]? = some ⟨req, .returned polling⟩ := by
  cases action with
  | submit other => exact Calls.getElem?_start_of_some h _
  | submitNext j drawn id =>
    unfold EnrollState.act
    dsimp only
    split
    next => exact h
    next call hcall =>
      by_cases hij : j = i
      · subst hij
        rw [h] at hcall
        cases hcall
        exact Calls.getElem?_put_self h _
      · show (state.submits.set j _)[i]? = _
        rw [getElem?_set_ne hij]
        exact h
  | createToken => exact h
  | revokeToken => exact h
  | approve => exact h
  | deny => exact h
  | poll => exact h
  | approveNext j draws interval =>
    unfold EnrollState.act
    dsimp only
    split
    · exact h
    · exact h
  | pollNext j =>
    rw [(state.act_pollNext_frame env j).2.1]
    exact h

/-- What was returned stays returned. -/
def EnrollState.Keeps (env : EnrollEnv) (state state' : EnrollState) : Prop :=
  ∀ hash csr, state.Returned env hash csr → state'.Returned env hash csr

theorem keeps_act (action : EnrollAction) : state.Keeps env (state.act env action) := by
  rintro hash csr ⟨i, req, polling, hcall, hrest⟩
  exact ⟨i, req, polling, returned_act hcall action, hrest⟩

theorem EnrollState.Keeps.owns (h : state.Keeps env state') {hash : String} {key : List UInt8}
    (howns : state.Owns env hash key) : state'.Owns env hash key := by
  obtain ⟨csr, hreturned, hkey⟩ := howns
  exact ⟨csr, h hash csr hreturned, hkey⟩

theorem EnrollState.Keeps.pairs (h : state.Keeps env state') {row : PendingEnrollment}
    (hpairs : state.Pairs env row) : state'.Pairs env row := by
  obtain ⟨csr, hcsr, hreturned⟩ := hpairs
  exact ⟨csr, hcsr, h _ csr hreturned⟩

/-- A place that a step does not touch keeps what it has. -/
theorem EnrollState.Bound.frame (h : state.Bound env) (hkeeps : state.Keeps env state')
    (hrequests : ∀ row ∈ state'.store.requests.rows,
      row ∈ state.store.requests.rows ∨ state'.Pairs env row)
    (happrovals : ∀ call ∈ state'.approvals, call ∈ state.approvals ∨
      (∀ row, call.phase.row? = some row → state'.Pairs env row) ∧
        ∀ row host bundle, call.phase = .signed row host bundle →
          state'.Owns env row.pollingToken bundle.serverCert.publicKey)
    (happroved : ∀ entry ∈ state'.approved.rows, entry ∈ state.approved.rows ∨
      state'.Owns env entry.pollingHash entry.bundle.serverCert.publicKey)
    (hpolls : ∀ call ∈ state'.polls, call ∈ state.polls ∨
      ∀ bundle, call.phase.bundle? = some bundle →
        state'.Owns env (env.hashToken call.token) bundle.serverCert.publicKey) :
    state'.Bound env := by
  constructor
  · intro row hrow
    rcases hrequests row hrow with hold | hnew
    · exact hkeeps.pairs (h.requests row hold)
    · exact hnew
  · intro call hcall row hread
    rcases happrovals call hcall with hold | hnew
    · exact hkeeps.pairs (h.reads call hold row hread)
    · exact hnew.1 row hread
  · intro call hcall row host bundle hsigned
    rcases happrovals call hcall with hold | hnew
    · exact hkeeps.owns (h.signs call hold row host bundle hsigned)
    · exact hnew.2 row host bundle hsigned
  · intro entry hentry
    rcases happroved entry hentry with hold | hnew
    · exact hkeeps.owns (h.approved entry hold)
    · exact hnew
  · intro call hcall bundle hbundle
    rcases hpolls call hcall with hold | hnew
    · exact hkeeps.owns (h.polls call hold bundle hbundle)
    · exact hnew bundle hbundle

theorem mem_upsertRequest {now : Nat} {req : SubmitEnrollmentRequest} {polling id : Uuid}
    {requests requests' : Table fun row : PendingEnrollment => row.id}
    (h : upsertRequest env now req polling id requests = .ok requests') {row : PendingEnrollment}
    (hrow : row ∈ requests'.rows) :
    row ∈ requests.rows ∨
      row.csr = some req.csr ∧ row.pollingToken = env.hashToken polling.text := by
  unfold upsertRequest at h
  dsimp only at h
  split at h
  next => cases h
  next =>
    split at h
    next => cases h
    next =>
      split at h
      next =>
        cases h
        obtain ⟨old, hold, rfl⟩ := mem_map.mp hrow
        split
        · exact Or.inr ⟨rfl, rfl⟩
        · exact Or.inl hold
      next =>
        split at h
        next => cases h
        next inserted hinsert =>
          cases h
          rw [(Table.insert?_eq_some_iff.mp hinsert).2] at hrow
          rcases mem_append.mp hrow with hold | hnew
          · exact Or.inl hold
          · cases mem_singleton.mp hnew
            exact Or.inr ⟨rfl, rfl⟩

theorem requests_submitNext {call : SubmitCall} (now : Nat) (polling id : Uuid)
    {row : PendingEnrollment}
    (hrow : row ∈ (submitNext env now polling id call state.store).2.requests.rows) :
    row ∈ state.store.requests.rows ∨
      (submitNext env now polling id call state.store).1 = .returned polling ∧
        row.csr = some call.request.csr ∧ row.pollingToken = env.hashToken polling.text := by
  unfold submitNext at hrow ⊢
  dsimp only at hrow ⊢
  split at hrow
  next => exact Or.inl hrow
  next => exact Or.inl hrow
  next hphase =>
    split at hrow
    next requests hupsert =>
      rcases mem_upsertRequest hupsert hrow with hold | hnew
      · exact Or.inl hold
      · exact Or.inr ⟨rfl, hnew⟩
    next => exact Or.inl hrow
  next => exact Or.inl hrow
  next => exact Or.inl hrow

/-- The state after a statement of the approval in place `i`. -/
def EnrollState.advance (state : EnrollState) (i : Nat) (call : ApproveCall) (phase : ApprovePhase)
    (store : EnrollStore) (approved : Table ApprovedEntry.pollingHash) : EnrollState :=
  { state with
    store := store
    approved := approved
    approvals := state.approvals.set i ⟨call.user, call.requestId, phase⟩ }

theorem bound_approveNext (h : state.Bound env) {i : Nat} {call : ApproveCall}
    (hcall : state.approvals[i]? = some call) {phase : ApprovePhase} {store : EnrollStore}
    {approved : Table ApprovedEntry.pollingHash}
    (hmove : ApproveMove env call state.store state.approved phase store approved) :
    (state.advance i call phase store approved).Bound env := by
  have hmem := mem_of_getElem? hcall
  have hset {phase : ApprovePhase} (hreads : ∀ row, phase.row? = some row → state.Pairs env row)
      (hsigns : ∀ row host bundle, phase = .signed row host bundle →
        state.Owns env row.pollingToken bundle.serverCert.publicKey) :
      ∀ other ∈ state.approvals.set i ⟨call.user, call.requestId, phase⟩,
        other ∈ state.approvals ∨
          (∀ row, other.phase.row? = some row → state.Pairs env row) ∧
            ∀ row host bundle, other.phase = .signed row host bundle →
              state.Owns env row.pollingToken bundle.serverCert.publicKey := by
    intro other hother
    rcases mem_or_eq_of_mem_set hother with hold | rfl
    · exact Or.inl hold
    · exact Or.inr ⟨hreads, hsigns⟩
  cases hmove with
  | carry phase hrow hbundle store' hrequests hcerts =>
    refine h.frame (fun _ _ h => h) ?_ (hset ?_ ?_) (fun _ => Or.inl) fun _ => Or.inl
    · intro row hstored
      have hold : row ∈ store.requests.rows := hstored
      exact Or.inl (hrequests ▸ hold)
    · intro row hphase
      exact h.reads call hmem row (hrow ▸ hphase)
    · rintro row host bundle rfl
      cases hbundle
  | sign hphase hcsr hkey hserial hleaf hinsert =>
    have hpairs := h.reads call hmem _ hphase
    refine h.frame (fun _ _ h => h) (fun _ => Or.inl) (hset ?_ ?_) (fun _ => Or.inl) fun _ =>
      Or.inl
    · intro row hread
      cases hread
      exact hpairs
    · intro row host bundle hsigned
      cases hsigned
      obtain ⟨other, hsame, hreturned⟩ := hpairs
      rw [hcsr] at hsame
      cases hsame
      exact ⟨_, hreturned, hkey⟩
  | cache hphase =>
    refine h.frame (fun _ _ h => h) (fun _ => Or.inl) (hset ?_ ?_) ?_ fun _ => Or.inl
    · intro row hread
      cases hread
    · intro row host bundle hsigned
      cases hsigned
    · intro entry hentry
      rcases mem_cacheEntry.mp hentry with ⟨hold, -⟩ | rfl
      · exact Or.inl hold
      · exact Or.inr (h.signs call hmem _ _ _ hphase)
  | finish phase hrow hbundle store' hrequests hcerts =>
    refine h.frame (fun _ _ h => h) (fun row hmem => Or.inl (hrequests row hmem)) (hset ?_ ?_)
      (fun _ => Or.inl) fun _ => Or.inl
    · intro row hread
      rw [hrow] at hread
      cases hread
    · rintro row host bundle rfl
      cases hbundle

theorem createToken_frame (env : EnrollEnv) (user : AuthUser) (now : Nat) (token : String)
    (req : CreateTokenRequest)
    (store : EnrollStore) :
    (createToken env user now token req store).2.requests = store.requests ∧
      (createToken env user now token req store).2.pki = store.pki := by
  unfold createToken
  split
  · exact ⟨rfl, rfl⟩
  · split
    · exact ⟨rfl, rfl⟩
    · split
      · exact ⟨rfl, rfl⟩
      · exact ⟨rfl, rfl⟩

theorem revokeToken_frame (user : AuthUser) (now : Nat) (hash : String) (store : EnrollStore) :
    (revokeToken user now hash store).2.requests = store.requests ∧
      (revokeToken user now hash store).2.pki = store.pki := by
  unfold revokeToken
  split
  · exact ⟨rfl, rfl⟩
  · exact ⟨rfl, rfl⟩

theorem denyEnrollment_frame (user : AuthUser) (id : Uuid) (store : EnrollStore) :
    (∀ row ∈ (denyEnrollment user id store).2.requests.rows, row ∈ store.requests.rows) ∧
      (denyEnrollment user id store).2.pki = store.pki := by
  unfold denyEnrollment
  split
  · exact ⟨fun _ h => h, rfl⟩
  · exact ⟨fun row hrow => mem_of_mem_filter hrow, rfl⟩

theorem approveStart_phase (user : AuthUser) (id : Uuid) (store : EnrollStore) :
    (approveStart user id store).bundle? = none ∧
      ∀ row, (approveStart user id store).row? = some row → row ∈ store.requests.rows := by
  unfold approveStart
  split
  · refine ⟨rfl, ?_⟩
    intro row hrow
    cases hrow
  · split
    next =>
      refine ⟨rfl, ?_⟩
      intro row hrow
      cases hrow
    next row hfind =>
      refine ⟨rfl, ?_⟩
      intro other hother
      cases hother
      exact (Table.mem_of_find? hfind).1

/-- What the first step of a poll does: it takes the bundle that is there under its hash. -/
inductive PollMove (env : EnrollEnv) (token : String) (approved : Table ApprovedEntry.pollingHash) :
    PollPhase → Table ApprovedEntry.pollingHash → Prop where
  | miss : PollMove env token approved .missed approved
  | take {entry : ApprovedEntry} (hentry : entry ∈ approved.rows)
      (hhash : entry.pollingHash = env.hashToken token) :
      PollMove env token approved (.answered (.approved entry.bundle entry.hostId))
        (approved.delete fun other => decide (other.pollingHash = env.hashToken token))

theorem pollMove_start (env : EnrollEnv) (token : String)
    (approved : Table ApprovedEntry.pollingHash) :
    PollMove env token approved (pollStart env token approved).1
      (pollStart env token approved).2 := by
  unfold pollStart
  split
  next => exact .miss
  next entry hfind =>
    obtain ⟨hentry, hhash⟩ := Table.mem_of_find? hfind
    exact .take hentry hhash

theorem bundle?_pollNext (env : EnrollEnv) (now : Nat) (call : PollCall) (store : EnrollStore) :
    (pollNext env now call store).bundle? = call.phase.bundle? := by
  unfold pollNext
  split
  next hphase =>
    rw [hphase]
    split
    · rfl
    · rfl
  next answer hphase => rw [hphase]

theorem bound_poll (h : state.Bound env) {token : String} {phase : PollPhase}
    {approved : Table ApprovedEntry.pollingHash}
    (hmove : PollMove env token state.approved phase approved) :
    { state with approved := approved, polls := state.polls ++ [⟨token, phase⟩] :
      EnrollState }.Bound env := by
  cases hmove with
  | miss =>
    refine h.frame (fun _ _ h => h) (fun _ => Or.inl) (fun _ => Or.inl) (fun _ => Or.inl) ?_
    intro call hcall
    rcases mem_append.mp hcall with hold | hnew
    · exact Or.inl hold
    · cases mem_singleton.mp hnew
      right
      intro bundle hbundle
      cases hbundle
  | take hentry hhash =>
    refine h.frame (fun _ _ h => h) (fun _ => Or.inl) (fun _ => Or.inl) ?_ ?_
    · intro entry hmem
      exact Or.inl (mem_of_mem_filter hmem)
    · intro call hcall
      rcases mem_append.mp hcall with hold | hnew
      · exact Or.inl hold
      · cases mem_singleton.mp hnew
        right
        intro bundle hbundle
        cases hbundle
        show state.Owns env (env.hashToken token) _
        rw [← hhash]
        exact h.approved _ hentry

/-- Every step keeps the bindings. -/
theorem bound_act (h : state.Bound env) (action : EnrollAction) :
    (state.act env action).Bound env := by
  have hkeeps : state.Keeps env (state.act env action) := keeps_act action
  cases action with
  | createToken user token req =>
    refine h.frame hkeeps ?_ (fun _ => Or.inl) (fun _ => Or.inl) (fun _ => Or.inl)
    intro row hrow
    exact Or.inl ((createToken_frame env user state.clock token req state.store).1 ▸ hrow)
  | revokeToken user hash =>
    refine h.frame hkeeps ?_ (fun _ => Or.inl) (fun _ => Or.inl) (fun _ => Or.inl)
    intro row hrow
    exact Or.inl ((revokeToken_frame user state.clock hash state.store).1 ▸ hrow)
  | submit req =>
    exact h.frame hkeeps (fun _ => Or.inl) (fun _ => Or.inl) (fun _ => Or.inl) (fun _ => Or.inl)
  | submitNext i polling id =>
    unfold EnrollState.act at hkeeps ⊢
    dsimp only at hkeeps ⊢
    split at hkeeps
    next => exact h
    next call hcall =>
      refine h.frame hkeeps ?_ (fun _ => Or.inl) (fun _ => Or.inl) (fun _ => Or.inl)
      intro row hrow
      rcases requests_submitNext state.clock polling id hrow with hold | ⟨hphase, hcsr, htoken⟩
      · exact Or.inl hold
      · refine Or.inr ⟨call.request.csr, hcsr, i, call.request, polling, ?_, htoken.symm, rfl⟩
        rw [← hphase]
        exact Calls.getElem?_put_self hcall _
  | approve user id =>
    refine h.frame hkeeps (fun _ => Or.inl) ?_ (fun _ => Or.inl) (fun _ => Or.inl)
    intro call hcall
    rcases mem_append.mp hcall with hold | hnew
    · exact Or.inl hold
    · cases mem_singleton.mp hnew
      obtain ⟨hbundle, hread⟩ := approveStart_phase user id state.store
      refine Or.inr ⟨fun row hrow => h.requests row (hread row hrow), ?_⟩
      intro row host bundle hsigned
      have hsome : (approveStart user id state.store).bundle? = some bundle := by
        rw [show approveStart user id state.store = .signed row host bundle from hsigned]
        rfl
      rw [hbundle] at hsome
      cases hsome
  | approveNext i draws interval =>
    unfold EnrollState.act
    dsimp only
    split
    next => exact h
    next call hcall =>
      exact bound_approveNext h hcall (approveMove_next env _ draws interval call _ _)
  | deny user id =>
    refine h.frame hkeeps ?_ (fun _ => Or.inl) (fun _ => Or.inl) (fun _ => Or.inl)
    intro row hrow
    exact Or.inl ((denyEnrollment_frame user id state.store).1 row hrow)
  | poll token => exact bound_poll h (pollMove_start env token state.approved)
  | pollNext i =>
    unfold EnrollState.act at hkeeps ⊢
    dsimp only at hkeeps ⊢
    split at hkeeps
    next => exact h
    next call hcall =>
      refine h.frame hkeeps (fun _ => Or.inl) (fun _ => Or.inl) (fun _ => Or.inl) ?_
      intro other hother
      rcases mem_or_eq_of_mem_set hother with hold | rfl
      · exact Or.inl hold
      · right
        intro bundle hbundle
        rw [show PollPhase.bundle? _ = _ from bundle?_pollNext env state.clock call state.store]
          at hbundle
        exact h.polls call (mem_of_getElem? hcall) bundle hbundle

/-- A manager before the first submission. -/
def EnrollState.first (clock : Nat) (store : EnrollStore) : EnrollState :=
  .quiet clock { store with requests := .empty } .empty

/-- In every interleaving from the first submission on, the bindings hold. -/
theorem bound_run (clock : Nat) (store : EnrollStore) (steps : List EnrollStep) :
    (Runs.run (enrollStep env) (.first clock store) steps).Bound env := by
  induction steps using List.reverseRecOn with
  | nil =>
    constructor
    · intro row hrow
      cases hrow
    · intro call hcall
      cases hcall
    · intro call hcall
      cases hcall
    · intro entry hentry
      cases hentry
    · intro call hcall
      cases hcall
  | append_singleton steps step ih =>
    rw [Runs.run_concat]
    exact bound_act (ih.wait step.elapsed) step.action

end Binding

section Location

/-- Where a bundle can be: with the approval that made it, in the map under a hash, or with the poll
that took it. -/
inductive Place where
  | approval (i : Nat)
  | cached (hash : String)
  | poll (i : Nat)
  deriving DecidableEq, Repr

/-- The place has a bundle whose certificate has the serial number. -/
def EnrollState.At (state : EnrollState) : Place → Uuid → Prop
  | .approval i, serial => ∃ call bundle, state.approvals[i]? = some call ∧
      call.phase.bundle? = some bundle ∧ bundle.serverCert.serial = serial
  | .cached hash, serial => ∃ entry ∈ state.approved.rows, entry.pollingHash = hash ∧
      entry.bundle.serverCert.serial = serial
  | .poll i, serial => ∃ call bundle, state.polls[i]? = some call ∧
      call.phase.bundle? = some bundle ∧ bundle.serverCert.serial = serial

/-- A leaf with the serial number is in the table of certificates. -/
def EnrollStore.Recorded (serial : Uuid) (store : EnrollStore) : Prop :=
  ∃ row ∈ store.pki.certificates.rows, row.tier = .leaf ∧ row.serial = serial

/-- A bundle is in one place, and its certificate is in the table. -/
structure EnrollState.Located (state : EnrollState) : Prop where
  recorded : ∀ place serial, state.At place serial → state.store.Recorded serial
  one_place : ∀ place other serial, state.At place serial → state.At other serial → place = other

variable {env : EnrollEnv} {state state' : EnrollState}

theorem EnrollState.Located.stay (h : state.Located)
    (hcerts : state'.store.pki.certificates = state.store.pki.certificates)
    (hat : ∀ place serial, state'.At place serial → state.At place serial) : state'.Located := by
  constructor
  · intro place serial hplace
    obtain ⟨row, hrow, hrest⟩ := h.recorded place serial (hat place serial hplace)
    exact ⟨row, hcerts ▸ hrow, hrest⟩
  · intro place other serial hplace hother
    exact h.one_place place other serial (hat place serial hplace) (hat other serial hother)

theorem EnrollState.Located.untouched (h : state.Located)
    (hcerts : state'.store.pki.certificates = state.store.pki.certificates)
    (happrovals : state'.approvals = state.approvals) (happroved : state'.approved = state.approved)
    (hpolls : state'.polls = state.polls) : state'.Located := by
  refine h.stay hcerts ?_
  intro place serial hat
  cases place with
  | approval i =>
    obtain ⟨call, bundle, hcall, hrest⟩ := hat
    exact ⟨call, bundle, happrovals ▸ hcall, hrest⟩
  | cached hash =>
    obtain ⟨entry, hentry, hrest⟩ := hat
    exact ⟨entry, happroved ▸ hentry, hrest⟩
  | poll i =>
    obtain ⟨call, bundle, hcall, hrest⟩ := hat
    exact ⟨call, bundle, hpolls ▸ hcall, hrest⟩

theorem EnrollState.Located.wait (h : state.Located) (elapsed : Nat) :
    (state.wait elapsed).Located :=
  h.untouched rfl rfl rfl rfl

/-- A step that moves a bundle from one place to another, where it may replace the one that was
there. -/
theorem EnrollState.Located.transfer (h : state.Located) (hstore : state'.store = state.store)
    (old new : Place) (hold : ∀ serial, ¬ state'.At old serial)
    (hat : ∀ place serial, state'.At place serial →
      state.At place serial ∧ place ≠ new ∨ state.At old serial ∧ place = new) :
    state'.Located := by
  constructor
  · intro place serial hplace
    rw [hstore]
    rcases hat place serial hplace with ⟨hsame, -⟩ | ⟨hmoved, -⟩
    · exact h.recorded place serial hsame
    · exact h.recorded old serial hmoved
  · intro place other serial hplace hother
    rcases hat place serial hplace with ⟨hsame, -⟩ | ⟨hmoved, hplace'⟩
    · rcases hat other serial hother with ⟨hsame', -⟩ | ⟨hmoved', -⟩
      · exact h.one_place place other serial hsame hsame'
      · -- The old place would still be taken.
        rw [h.one_place place old serial hsame hmoved'] at hplace
        exact absurd hplace (hold serial)
    · rcases hat other serial hother with ⟨hsame', -⟩ | ⟨-, hother'⟩
      · rw [h.one_place other old serial hsame' hmoved] at hother
        exact absurd hother (hold serial)
      · rw [hplace', hother']

/-- A step that makes a bundle with a new serial number. -/
theorem EnrollState.Located.appear (h : state.Located) {leaf : Certificate}
    (hleaf : leaf.tier = .leaf) (hnew : ¬ state.store.Recorded leaf.serial)
    (hcerts : state'.store.pki.certificates.rows = state.store.pki.certificates.rows ++ [leaf])
    (fresh : Place)
    (hat : ∀ place serial, state'.At place serial →
      state.At place serial ∨ place = fresh ∧ serial = leaf.serial) : state'.Located := by
  constructor
  · intro place serial hplace
    rcases hat place serial hplace with hold | ⟨-, rfl⟩
    · obtain ⟨row, hrow, hrest⟩ := h.recorded place serial hold
      exact ⟨row, hcerts ▸ mem_append_left _ hrow, hrest⟩
    · exact ⟨leaf, hcerts ▸ mem_append_right _ (mem_singleton_self leaf), hleaf, rfl⟩
  · intro place other serial hplace hother
    rcases hat place serial hplace with hold | ⟨hplace', hserial⟩
    · rcases hat other serial hother with hold' | ⟨-, rfl⟩
      · exact h.one_place place other serial hold hold'
      · exact absurd (h.recorded place _ hold) hnew
    · rcases hat other serial hother with hold' | ⟨hother', -⟩
      · rw [hserial] at hold'
        exact absurd (h.recorded other _ hold') hnew
      · rw [hplace', hother']

theorem not_recorded_of_insert {store : EnrollStore} {leaf : Certificate} {pki : PkiDatabase}
    (hleaf : leaf.tier = .leaf) (h : store.pki.insertCertificate leaf = some pki) :
    ¬ store.Recorded leaf.serial := by
  rintro ⟨row, hrow, htier, hserial⟩
  unfold PkiDatabase.insertCertificate at h
  split at h
  next hfree =>
    refine hfree (mem_map.mpr ⟨row, hrow, ?_⟩)
    rw [Certificate.serialNumber, Certificate.serialNumber, htier, hleaf, hserial]
  next => cases h

theorem getElem?_advance {i j : Nat} {call other : ApproveCall} {phase : ApprovePhase}
    (hphase : phase.bundle? = none) {bundle : PkiBundle}
    (hother : (state.approvals.set i ⟨call.user, call.requestId, phase⟩)[j]? = some other)
    (hbundle : other.phase.bundle? = some bundle) : i ≠ j ∧ state.approvals[j]? = some other := by
  rcases Calls.getElem?_put hother with hold | ⟨-, rfl⟩
  · exact hold
  · rw [hphase] at hbundle
    cases hbundle

theorem located_cache (h : state.Located) {i : Nat} {call : ApproveCall}
    (hcall : state.approvals[i]? = some call) {row : PendingEnrollment} {host : Uuid}
    {bundle : PkiBundle} (hphase : call.phase = .signed row host bundle) :
    (state.advance i call (.cached host) state.store
      (cacheEntry ⟨row.pollingToken, bundle, host⟩ state.approved)).Located := by
  have hbundle : call.phase.bundle? = some bundle := by
    rw [hphase]
    rfl
  refine h.transfer rfl (.approval i) (.cached row.pollingToken) ?_ ?_
  · rintro serial ⟨found, bundle', hfound, hsome, -⟩
    exact (getElem?_advance rfl hfound hsome).1 rfl
  · intro place serial hat
    cases place with
    | approval j =>
      obtain ⟨other, found, hother, hfound, hserial⟩ := hat
      exact Or.inl ⟨⟨other, found, (getElem?_advance rfl hother hfound).2, hfound, hserial⟩,
        by simp⟩
    | poll j => exact Or.inl ⟨hat, by simp⟩
    | cached hash =>
      obtain ⟨entry, hentry, rfl, hserial⟩ := hat
      rcases mem_cacheEntry.mp hentry with ⟨hmem, hother⟩ | rfl
      · exact Or.inl ⟨⟨entry, hmem, rfl, hserial⟩, by simpa using hother⟩
      · exact Or.inr ⟨⟨call, bundle, hcall, hbundle, hserial⟩, rfl⟩

theorem located_approveNext (h : state.Located) {i : Nat} {call : ApproveCall}
    (hcall : state.approvals[i]? = some call) {phase : ApprovePhase} {store : EnrollStore}
    {approved : Table ApprovedEntry.pollingHash}
    (hmove : ApproveMove env call state.store state.approved phase store approved) :
    (state.advance i call phase store approved).Located := by
  have hstay {phase : ApprovePhase} (hphase : phase.bundle? = none) {store : EnrollStore}
      (hcerts : store.pki.certificates = state.store.pki.certificates) :
      (state.advance i call phase store state.approved).Located := by
    refine h.stay hcerts ?_
    intro place serial hat
    cases place with
    | approval j =>
      obtain ⟨other, bundle, hother, hbundle, hserial⟩ := hat
      exact ⟨other, bundle, (getElem?_advance hphase hother hbundle).2, hbundle, hserial⟩
    | cached hash => exact hat
    | poll j => exact hat
  cases hmove with
  | carry phase hrow hbundle store' hrequests hcerts => exact hstay hbundle hcerts
  | finish phase hrow hbundle store' hrequests hcerts => exact hstay hbundle hcerts
  | cache hphase => exact located_cache h hcall hphase
  | @sign row csr host bundle leaf pki hphase hcsr hkey hserial hleaf hinsert =>
    refine h.appear hleaf (not_recorded_of_insert hleaf hinsert)
      (PkiDatabase.insertCertificate_tables hinsert).1 (.approval i) ?_
    intro place serial hat
    cases place with
    | approval j =>
      obtain ⟨other, found, hother, hfound, rfl⟩ := hat
      rcases Calls.getElem?_put hother with ⟨-, hold⟩ | ⟨rfl, rfl⟩
      · exact Or.inl ⟨other, found, hold, hfound, rfl⟩
      · cases hfound
        exact Or.inr ⟨rfl, hserial⟩
    | cached hash => exact Or.inl hat
    | poll j => exact Or.inl hat

theorem located_poll (h : state.Located) {token : String} {phase : PollPhase}
    {approved : Table ApprovedEntry.pollingHash}
    (hmove : PollMove env token state.approved phase approved) :
    { state with approved := approved, polls := state.polls ++ [⟨token, phase⟩] :
      EnrollState }.Located := by
  cases hmove with
  | miss =>
    refine h.stay rfl ?_
    intro place serial hat
    cases place with
    | approval j => exact hat
    | cached hash => exact hat
    | poll j =>
      obtain ⟨call, bundle, hcall, hbundle, hserial⟩ := hat
      rcases Calls.getElem?_start hcall with hold | ⟨-, rfl⟩
      · exact ⟨call, bundle, hold, hbundle, hserial⟩
      · cases hbundle
  | take hentry hhash =>
    refine h.transfer rfl (.cached (env.hashToken token)) (.poll state.polls.length) ?_ ?_
    · rintro serial ⟨entry, hmem, hsame, -⟩
      obtain ⟨-, hother⟩ := Table.mem_delete.mp hmem
      exact of_decide_eq_false hother hsame
    · intro place serial hat
      cases place with
      | approval j => exact Or.inl ⟨hat, by simp⟩
      | cached hash =>
        obtain ⟨entry, hmem, hrest⟩ := hat
        exact Or.inl ⟨⟨entry, mem_of_mem_filter hmem, hrest⟩, by simp⟩
      | poll j =>
        obtain ⟨call, bundle, hcall, hbundle, hserial⟩ := hat
        rcases Calls.getElem?_start hcall with hold | ⟨rfl, rfl⟩
        · have hlt := (List.getElem?_eq_some_iff.mp hold).1
          refine Or.inl ⟨⟨call, bundle, hold, hbundle, hserial⟩, ?_⟩
          rw [ne_eq, Place.poll.injEq]
          omega
        · cases hbundle
          exact Or.inr ⟨⟨_, hentry, hhash, hserial⟩, rfl⟩

/-- No statement of a submission touches the certificates. -/
theorem pki_submitNext (env : EnrollEnv) (now : Nat) (polling id : Uuid) (call : SubmitCall)
    (store : EnrollStore) :
    (submitNext env now polling id call store).2.pki = store.pki := by
  unfold submitNext
  split
  · rfl
  · rfl
  · split
    · rfl
    · rfl
  · rfl
  · rfl

/-- Every step keeps bundles in one place. -/
theorem located_act (h : state.Located) (action : EnrollAction) :
    (state.act env action).Located := by
  cases action with
  | createToken user token req =>
    have hframe := (createToken_frame env user state.clock token req state.store).2
    exact h.untouched (congrArg PkiDatabase.certificates hframe) rfl rfl rfl
  | revokeToken user hash =>
    have hframe := (revokeToken_frame user state.clock hash state.store).2
    exact h.untouched (congrArg PkiDatabase.certificates hframe) rfl rfl rfl
  | submit req => exact h.untouched rfl rfl rfl rfl
  | submitNext i polling id =>
    unfold EnrollState.act
    dsimp only
    split
    next => exact h
    next call hcall =>
      have hframe := pki_submitNext env state.clock polling id call state.store
      exact h.untouched (congrArg PkiDatabase.certificates hframe) rfl rfl rfl
  | approve user id =>
    refine h.stay rfl ?_
    intro place serial hat
    cases place with
    | approval j =>
      obtain ⟨call, bundle, hcall, hbundle, hserial⟩ := hat
      rcases Calls.getElem?_start hcall with hold | ⟨-, rfl⟩
      · exact ⟨call, bundle, hold, hbundle, hserial⟩
      · rw [show ApprovePhase.bundle? _ = none from (approveStart_phase user id state.store).1]
          at hbundle
        cases hbundle
    | cached hash => exact hat
    | poll j => exact hat
  | approveNext i draws interval =>
    unfold EnrollState.act
    dsimp only
    split
    next => exact h
    next call hcall =>
      exact located_approveNext h hcall (approveMove_next env _ draws interval call _ _)
  | deny user id =>
    have hframe := (denyEnrollment_frame user id state.store).2
    exact h.untouched (congrArg PkiDatabase.certificates hframe) rfl rfl rfl
  | poll token => exact located_poll h (pollMove_start env token state.approved)
  | pollNext i =>
    unfold EnrollState.act
    dsimp only
    split
    next => exact h
    next call hcall =>
      refine h.stay rfl ?_
      intro place serial hat
      cases place with
      | approval j => exact hat
      | cached hash => exact hat
      | poll j =>
        obtain ⟨other, bundle, hother, hbundle, hserial⟩ := hat
        rcases Calls.getElem?_put hother with ⟨-, hold⟩ | ⟨rfl, rfl⟩
        · exact ⟨other, bundle, hold, hbundle, hserial⟩
        · rw [show PollPhase.bundle? _ = _ from bundle?_pollNext env state.clock call state.store]
            at hbundle
          exact ⟨call, bundle, hcall, hbundle, hserial⟩

/-- In every interleaving from the first submission on, bundles are in one place. -/
theorem located_run (clock : Nat) (store : EnrollStore) (steps : List EnrollStep) :
    (Runs.run (enrollStep env) (.first clock store) steps).Located := by
  induction steps using List.reverseRecOn with
  | nil =>
    have hempty (place : Place) (serial : Uuid) :
        ¬ (EnrollState.first clock store).At place serial := by
      cases place with
      | approval i =>
        rintro ⟨call, bundle, hcall, -⟩
        cases hcall
      | cached hash =>
        rintro ⟨entry, hentry, -⟩
        cases hentry
      | poll i =>
        rintro ⟨call, bundle, hcall, -⟩
        cases hcall
    exact ⟨fun place serial hat => absurd hat (hempty place serial),
      fun place _ serial hat => absurd hat (hempty place serial)⟩
  | append_singleton steps step ih =>
    rw [Runs.run_concat]
    exact located_act (ih.wait step.elapsed) step.action

end Location

section Requester

/-- The step draws no polling token that a submission has returned before. -/
def DrawsFresh (state : EnrollState) (step : EnrollStep) : Prop :=
  match step.action with
  | .submitNext _ polling _ => ∀ call ∈ state.submits, call.phase ≠ .returned polling
  | _ => True

/-- No two submissions have returned the same polling token. -/
def EnrollState.PollingUnique (state : EnrollState) : Prop :=
  ∀ (i j : Nat) (req req' : SubmitEnrollmentRequest) (polling : Uuid),
    state.submits[i]? = some ⟨req, .returned polling⟩ →
      state.submits[j]? = some ⟨req', .returned polling⟩ → i = j

variable {env : EnrollEnv} {state : EnrollState}

theorem submitNext_returned {now : Nat} {polling id drawn : Uuid} {call : SubmitCall}
    {store : EnrollStore} (h : (submitNext env now drawn id call store).1 = .returned polling) :
    polling = drawn ∨ call.phase = .returned polling := by
  unfold submitNext at h
  dsimp only at h
  split at h
  next =>
    cases hcheck : checkFqdn (env.hashToken call.request.token) call.request.fqdn store with
    | ok =>
      rw [hcheck] at h
      cases h
    | error e =>
      rw [hcheck] at h
      cases h
  next => cases h
  next =>
    split at h
    next =>
      cases h
      exact Or.inl rfl
    next => cases h
  next other hphase =>
    cases h
    exact Or.inr hphase
  next => cases h

/-- A returned polling token was returned before the step, or the step draws it. -/
theorem returned_of_act {i : Nat} {req : SubmitEnrollmentRequest} {polling : Uuid}
    {action : EnrollAction}
    (h : (state.act env action).submits[i]? = some ⟨req, .returned polling⟩) :
    state.submits[i]? = some ⟨req, .returned polling⟩ ∨
      ∃ id, action = .submitNext i polling id := by
  cases action with
  | submit other =>
    rcases Calls.getElem?_start h with hold | ⟨-, hnew⟩
    · exact Or.inl hold
    · -- A submission that has only begun has returned nothing.
      unfold submitStart at hnew
      cases hcheck : checkToken state.clock (env.hashToken other.token) state.store with
      | ok =>
        rw [hcheck] at hnew
        cases hnew
      | error e =>
        rw [hcheck] at hnew
        cases hnew
  | submitNext j drawn id =>
    unfold EnrollState.act at h
    dsimp only at h
    split at h
    next => exact Or.inl h
    next call hcall =>
      rcases Calls.getElem?_put h with ⟨-, hold⟩ | ⟨rfl, hnew⟩
      · exact Or.inl hold
      · obtain ⟨rfl, hphase⟩ := SubmitCall.mk.inj hnew
        rcases submitNext_returned hphase.symm with rfl | hbefore
        · exact Or.inr ⟨id, rfl⟩
        · rw [← hbefore]
          exact Or.inl hcall
  | createToken => exact Or.inl h
  | revokeToken => exact Or.inl h
  | approve => exact Or.inl h
  | deny => exact Or.inl h
  | poll => exact Or.inl h
  | approveNext j draws interval =>
    unfold EnrollState.act at h
    dsimp only at h
    split at h
    · exact Or.inl h
    · exact Or.inl h
  | pollNext j =>
    rw [(state.act_pollNext_frame env j).2.1] at h
    exact Or.inl h

/-- Fresh draws keep the polling tokens apart. -/
theorem pollingUnique_step (h : state.PollingUnique) {step : EnrollStep}
    (hfresh : DrawsFresh state step) : (enrollStep env state step).PollingUnique := by
  intro i j req req' polling hi hj
  rcases returned_of_act hi with hold | ⟨id, haction⟩
  · rcases returned_of_act hj with hold' | ⟨id, haction⟩
    · exact h i j req req' polling hold hold'
    · unfold DrawsFresh at hfresh
      rw [haction] at hfresh
      exact absurd rfl (hfresh _ (mem_of_getElem? hold))
  · rcases returned_of_act hj with hold' | ⟨id', haction'⟩
    · unfold DrawsFresh at hfresh
      rw [haction] at hfresh
      exact absurd rfl (hfresh _ (mem_of_getElem? hold'))
    · rw [haction] at haction'
      cases haction'
      rfl

theorem pollingUnique_run {start : EnrollState} (hstart : start.submits = [])
    {steps : List EnrollStep} (hfresh : Runs.Meets (enrollStep env) DrawsFresh start steps) :
    (Runs.run (enrollStep env) start steps).PollingUnique := by
  have hunique : start.PollingUnique := by
    intro i j req req' polling hi
    rw [hstart] at hi
    cases hi
  have hstep (state : EnrollState) (step : EnrollStep) (hinv : state.PollingUnique)
      (hguard : DrawsFresh state step) : (enrollStep env state step).PollingUnique :=
    pollingUnique_step hinv hguard
  exact Runs.run_invariant_end hstep hunique hfresh

theorem EnrollEnv.hashToken_injective (h : Function.Injective env.sha256) :
    Function.Injective env.hashToken := by
  intro token other heq
  exact Text.utf8_injective (h (Text.hexEncode_injective heq))

/-- The submission returned the polling token. -/
def EnrollState.Submitted (k : Nat) (req : SubmitEnrollmentRequest) (polling : Uuid)
    (state : EnrollState) : Prop :=
  state.submits[k]? = some ⟨req, .returned polling⟩

/-- The poll with the token got the bundle. -/
def EnrollState.Delivered (i : Nat) (token : String) (bundle : PkiBundle)
    (state : EnrollState) : Prop :=
  ∃ host, state.polls[i]? = some ⟨token, .answered (.approved bundle host)⟩

/-- **Bundles go to their requesters.** In any interleaving, a bundle that a poll gets has a
certificate for the key of the CSR of the one submission that returned the token of the poll, and no
two polls get the same bundle. -/
theorem bundle_bound_to_requester (env : EnrollEnv) (hsha : Function.Injective env.sha256)
    (clock : Nat) (store : EnrollStore) (steps : List EnrollStep)
    (hfresh : Runs.Meets (enrollStep env) DrawsFresh (.first clock store) steps) :
    (∀ i token bundle,
      (Runs.run (enrollStep env) (.first clock store) steps).Delivered i token bundle →
        ∃ k req polling,
          (Runs.run (enrollStep env) (.first clock store) steps).Submitted k req polling ∧
            polling.text = token ∧ env.csrKey req.csr = some bundle.serverCert.publicKey ∧
            ∀ k' req', (Runs.run (enrollStep env) (.first clock store) steps).Submitted k' req'
              polling → k' = k) ∧
      ∀ i j token token' bundle,
        (Runs.run (enrollStep env) (.first clock store) steps).Delivered i token bundle →
          (Runs.run (enrollStep env) (.first clock store) steps).Delivered j token' bundle →
            i = j := by
  constructor
  · rintro i token bundle ⟨host, hpoll⟩
    have hunique := pollingUnique_run rfl hfresh
    obtain ⟨csr, ⟨k, req, polling, hreturned, hhash, rfl⟩, hkey⟩ :=
      (bound_run clock store steps).polls _ (mem_of_getElem? hpoll) bundle rfl
    refine ⟨k, req, polling, hreturned, EnrollEnv.hashToken_injective hsha hhash, hkey, ?_⟩
    intro k' req' hother
    exact hunique k' k req' req polling hother hreturned
  · rintro i j token token' bundle ⟨host, hi⟩ ⟨host', hj⟩
    have hplace := (located_run clock store steps).one_place (.poll i) (.poll j)
      bundle.serverCert.serial ⟨_, bundle, hi, rfl, rfl⟩ ⟨_, bundle, hj, rfl, rfl⟩
    cases hplace
    rfl

end Requester

/-- The host `web` submits, an admin approves, and the host polls. -/
def webEnrols : List EnrollStep :=
  [⟨0, .submit ⟨"token", "csr", "web", "10.0.0.1"⟩⟩, ⟨0, .submitNext 0 ⟨1⟩ ⟨2⟩⟩,
    ⟨0, .submitNext 0 ⟨1⟩ ⟨2⟩⟩, ⟨0, .submitNext 0 ⟨1⟩ ⟨2⟩⟩, ⟨0, .approve caAdmin ⟨2⟩⟩,
    ⟨0, .approveNext 0 ⟨⟨4⟩, ⟨5⟩, ⟨6⟩⟩ 900⟩, ⟨0, .approveNext 0 ⟨⟨4⟩, ⟨5⟩, ⟨6⟩⟩ 900⟩,
    ⟨0, .approveNext 0 ⟨⟨4⟩, ⟨5⟩, ⟨6⟩⟩ 900⟩, ⟨0, .approveNext 0 ⟨⟨4⟩, ⟨5⟩, ⟨6⟩⟩ 900⟩,
    ⟨0, .poll (Uuid.text ⟨1⟩)⟩]

/-- The bundle that `web` gets. -/
def webBundle : PkiBundle :=
  ⟨⟨⟨4⟩, Text.utf8 "csr", ⟨6⟩, oneToken.ca.issuer⟩, 900, true, 1, plainEnv.managerAgentUrl⟩

/-- The enrolment of `web` delivers its bundle, for the key of its CSR. -/
theorem bundle_bound_for_web :
    (Runs.run (enrollStep plainEnv) (.first 0 oneToken) webEnrols).Delivered 0 (Uuid.text ⟨1⟩)
        webBundle ∧
      ∃ k req polling,
        (Runs.run (enrollStep plainEnv) (.first 0 oneToken) webEnrols).Submitted k req polling ∧
          polling.text = Uuid.text ⟨1⟩ ∧
          plainEnv.csrKey req.csr = some webBundle.serverCert.publicKey ∧
          ∀ k' req', (Runs.run (enrollStep plainEnv) (.first 0 oneToken) webEnrols).Submitted k'
            req' polling → k' = k := by
  have hfresh : Runs.Meets (enrollStep plainEnv) DrawsFresh (.first 0 oneToken) webEnrols := by
    refine ⟨trivial, ?_, ?_, ?_, trivial, trivial, trivial, trivial, trivial, trivial, trivial⟩
    · show ∀ call ∈ _, _
      decide +kernel
    · show ∀ call ∈ _, _
      decide +kernel
    · show ∀ call ∈ _, _
      decide +kernel
  have hdelivered : (Runs.run (enrollStep plainEnv) (.first 0 oneToken) webEnrols).Delivered 0
      (Uuid.text ⟨1⟩) webBundle := ⟨⟨4⟩, by decide +kernel⟩
  exact ⟨hdelivered, (bundle_bound_to_requester plainEnv Function.injective_id 0 oneToken webEnrols
    hfresh).1 0 (Uuid.text ⟨1⟩) webBundle hdelivered⟩

end FirewallManager
