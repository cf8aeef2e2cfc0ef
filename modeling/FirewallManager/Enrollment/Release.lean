import FirewallManager.Enrollment.Bundle

/-!
# When bundles are released

An approval reads its request without looking at the expiry, and puts the bundle into the map with
the time of that moment. A poll takes the bundle out and does not look at the time.

`TimedState` keeps, beside the manager, a record of the approvals that have handed over a bundle and
of the polls that have got one. `Traced` says that the map has the last approval of every polling
token whose bundle nobody has got yet. `released_in_time_iff` says in which runs every bundle is
released within ten minutes after the approval of a request that had not expired.
-/

namespace FirewallManager

open List

/-! ## Records -/

/-- An approval that has handed over its bundle: the request that it read, the bundle and the
time. -/
structure Grant where
  row : PendingEnrollment
  bundle : PkiBundle
  grantedAt : Nat
  deriving DecidableEq, Repr

/-- A poll that has got a bundle. -/
structure Release where
  token : String
  bundle : PkiBundle
  releasedAt : Nat
  deriving DecidableEq, Repr

/-- The manager, with a record of the approvals and of the released bundles. -/
structure TimedState where
  state : EnrollState
  grants : List Grant
  releases : List Release

/-- The approval that a step completes. -/
def EnrollState.grant? (state : EnrollState) : EnrollAction → Option Grant
  | .approveNext i _ _ =>
    match state.approvals[i]? with
    | some ⟨_, _, .signed row _ bundle⟩ => some ⟨row, bundle, state.clock⟩
    | _ => none
  | _ => none

/-- The bundle that a step releases. -/
def EnrollState.release? (env : EnrollEnv) (state : EnrollState) : EnrollAction → Option Release
  | .poll token =>
    match (pollStart env token state.approved).1 with
    | .answered (.approved bundle _) => some ⟨token, bundle, state.clock⟩
    | _ => none
  | _ => none

namespace TimedState

/-- Let time pass. -/
def wait (timed : TimedState) (elapsed : Nat) : TimedState :=
  { timed with state := timed.state.wait elapsed }

/-- What a step does at its time. -/
def act (env : EnrollEnv) (timed : TimedState) (action : EnrollAction) : TimedState where
  state := timed.state.act env action
  grants := timed.grants ++ (timed.state.grant? action).toList
  releases := timed.releases ++ (timed.state.release? env action).toList

/-- A manager before the first submission. -/
def first (clock : Nat) (store : EnrollStore) : TimedState :=
  ⟨.first clock store, [], []⟩

end TimedState

/-- The state after a step. -/
def timedStep (env : EnrollEnv) (timed : TimedState) (step : EnrollStep) : TimedState :=
  (timed.wait step.elapsed).act env step.action

/-- The records do not change what the manager does. -/
theorem state_run (env : EnrollEnv) (clock : Nat) (store : EnrollStore) (steps : List EnrollStep) :
    (Runs.run (timedStep env) (.first clock store) steps).state =
      Runs.run (enrollStep env) (.first clock store) steps := by
  induction steps using List.reverseRecOn with
  | nil => rfl
  | append_singleton steps step ih =>
    rw [Runs.run_concat, Runs.run_concat, ← ih]
    rfl

theorem located_timed_run (env : EnrollEnv) (clock : Nat) (store : EnrollStore)
    (steps : List EnrollStep) :
    (Runs.run (timedStep env) (.first clock store) steps).state.Located := by
  rw [state_run]
  exact located_run clock store steps

/-- The last approval under a polling token. -/
def lastGrant (grants : List Grant) (hash : String) : Option Grant :=
  grants.reverse.find? fun grant => decide (grant.row.pollingToken = hash)

theorem lastGrant_concat (grants : List Grant) (grant : Grant) (hash : String) :
    lastGrant (grants ++ [grant]) hash =
      if grant.row.pollingToken = hash then some grant else lastGrant grants hash := by
  unfold lastGrant
  rw [reverse_append, reverse_singleton, singleton_append, find?_cons]
  by_cases hsame : grant.row.pollingToken = hash
  · simp [hsame]
  · simp [hsame]

theorem mem_of_lastGrant {grants : List Grant} {hash : String} {grant : Grant}
    (h : lastGrant grants hash = some grant) :
    grant ∈ grants ∧ grant.row.pollingToken = hash := by
  refine ⟨mem_reverse.mp (mem_of_find?_eq_some h), ?_⟩
  have hfound := find?_some h
  exact of_decide_eq_true hfound

/-- What a step does to the map and to the records. -/
inductive LedgerMove (env : EnrollEnv) (timed after : TimedState) (action : EnrollAction) :
    Prop where
  | same (happroved : after.state.approved = timed.state.approved)
      (hgrants : after.grants = timed.grants) (hreleases : after.releases = timed.releases)
      (hmiss : ∀ token, action = .poll token → ∀ entry ∈ timed.state.approved.rows,
        entry.pollingHash ≠ env.hashToken token)
  | grant {i : Nat} {call : ApproveCall} {row : PendingEnrollment} {host : Uuid}
      {bundle : PkiBundle} (hother : ∀ token, action ≠ .poll token)
      (hcall : timed.state.approvals[i]? = some call)
      (hphase : call.phase = .signed row host bundle)
      (happroved : after.state.approved =
        cacheEntry ⟨row.pollingToken, bundle, host⟩ timed.state.approved)
      (hgrants : after.grants = timed.grants ++ [⟨row, bundle, timed.state.clock⟩])
      (hreleases : after.releases = timed.releases)
  | release {token : String} {entry : ApprovedEntry} (haction : action = .poll token)
      (hentry : entry ∈ timed.state.approved.rows)
      (hhash : entry.pollingHash = env.hashToken token)
      (happroved : after.state.approved = timed.state.approved.delete fun other =>
        decide (other.pollingHash = env.hashToken token))
      (hgrants : after.grants = timed.grants)
      (hreleases : after.releases = timed.releases ++ [⟨token, entry.bundle, timed.state.clock⟩])

theorem approved_approveNext {call : ApproveCall} (h : call.phase.bundle? = none)
    (env : EnrollEnv) (now : Nat) (draws : ApprovalDraws) (interval : Int) (store : EnrollStore)
    (approved : Table ApprovedEntry.pollingHash) :
    (approveNext env now draws interval call store approved).2.2 = approved := by
  obtain ⟨user, id, phase⟩ := call
  cases phase with
  | selected row =>
    unfold approveNext
    dsimp only
    split <;> rfl
  | free row =>
    unfold approveNext
    dsimp only
    split
    · rfl
    · split <;> rfl
  | signed row host bundle => cases h
  | _ => rfl

theorem ledgerMove_approveNext (env : EnrollEnv) (timed : TimedState) (i : Nat)
    (draws : ApprovalDraws) (interval : Int) :
    LedgerMove env timed (timed.act env (.approveNext i draws interval))
      (.approveNext i draws interval) := by
  obtain ⟨state, grants, releases⟩ := timed
  have hother (token : String) : EnrollAction.approveNext i draws interval ≠ .poll token := by
    intro h
    cases h
  cases hcall : state.approvals[i]? with
  | none =>
    refine .same ?_ ?_ (append_nil _) fun token h => absurd h (hother token)
    · simp only [TimedState.act, EnrollState.act, hcall]
    · simp only [TimedState.act, EnrollState.grant?, hcall, Option.toList, append_nil]
  | some call =>
    have hact : (state.act env (.approveNext i draws interval)).approved =
        (approveNext env state.clock draws interval call state.store state.approved).2.2 := by
      simp only [EnrollState.act, hcall]
    obtain ⟨user, id, phase⟩ := call
    cases hbundle : phase.bundle? with
    | none =>
      refine .same (hact.trans (approved_approveNext hbundle env _ _ _ _ _)) ?_
        (append_nil _) fun token h => absurd h (hother token)
      simp only [TimedState.act, EnrollState.grant?, hcall]
      cases phase with
      | signed row host bundle => cases hbundle
      | _ => exact append_nil _
    | some bundle =>
      cases phase with
      | signed row host bundle =>
        refine .grant hother hcall rfl hact ?_ (append_nil _)
        simp only [TimedState.act, EnrollState.grant?, hcall, Option.toList]
      | _ => cases hbundle

theorem ledgerMove_poll (env : EnrollEnv) (timed : TimedState) (token : String) :
    LedgerMove env timed (timed.act env (.poll token)) (.poll token) := by
  obtain ⟨state, grants, releases⟩ := timed
  cases hfind : state.approved.find? (env.hashToken token) with
  | none =>
    refine .same ?_ (append_nil _) ?_ ?_
    · simp only [TimedState.act, EnrollState.act, pollStart, hfind]
    · simp only [TimedState.act, EnrollState.release?, pollStart, hfind, Option.toList,
        append_nil]
    · intro other hother entry hentry hhash
      cases hother
      rw [Table.find?_eq_some_iff.mpr ⟨hentry, hhash⟩] at hfind
      cases hfind
  | some entry =>
    obtain ⟨hentry, hhash⟩ := Table.mem_of_find? hfind
    refine .release rfl hentry hhash ?_ (append_nil _) ?_
    · simp only [TimedState.act, EnrollState.act, pollStart, hfind]
    · simp only [TimedState.act, EnrollState.release?, pollStart, hfind, Option.toList]

theorem ledgerMove_act (env : EnrollEnv) (timed : TimedState) (action : EnrollAction) :
    LedgerMove env timed (timed.act env action) action := by
  cases action with
  | approveNext i draws interval => exact ledgerMove_approveNext env timed i draws interval
  | poll token => exact ledgerMove_poll env timed token
  | submitNext i polling id =>
    obtain ⟨-, happroved, -⟩ := timed.state.act_submitNext_frame env i polling id
    exact .same happroved (append_nil _) (append_nil _) fun token h => (by cases h)
  | pollNext i =>
    obtain ⟨-, -, -, happroved⟩ := timed.state.act_pollNext_frame env i
    exact .same happroved (append_nil _) (append_nil _) fun token h => (by cases h)
  | _ => exact .same rfl (append_nil _) (append_nil _) fun token h => (by cases h)

/-! ## Every bundle has one approval -/

section Approvals

variable {env : EnrollEnv} {state : EnrollState}

theorem recorded_act {serial : Uuid} (h : state.store.Recorded serial) (action : EnrollAction) :
    (state.act env action).store.Recorded serial := by
  have hsame {store : EnrollStore} (hpki : store.pki = state.store.pki) :
      store.Recorded serial := by
    obtain ⟨row, hrow, hrest⟩ := h
    exact ⟨row, hpki ▸ hrow, hrest⟩
  cases action with
  | createToken user token req => exact hsame (createToken_frame env user _ token req _).2
  | revokeToken user hash => exact hsame (revokeToken_frame user _ hash _).2
  | submitNext i polling id =>
    unfold EnrollState.act
    dsimp only
    split
    · exact h
    · exact hsame (pki_submitNext env _ polling id _ _)
  | deny user id => exact hsame (denyEnrollment_frame user id _).2
  | approveNext i draws interval =>
    unfold EnrollState.act
    dsimp only
    split
    next => exact h
    next call hcall =>
      obtain ⟨row, hrow, hrest⟩ := h
      have hmove := approveMove_next env state.clock draws interval call state.store
        state.approved
      generalize (approveNext env state.clock draws interval call state.store
        state.approved) = next at hmove ⊢
      obtain ⟨phase, store, approved⟩ := next
      cases hmove with
      | carry phase hphase hbundle store' hrequests hcerts => exact ⟨row, hcerts ▸ hrow, hrest⟩
      | finish phase hphase hbundle store' hrequests hcerts => exact ⟨row, hcerts ▸ hrow, hrest⟩
      | cache hphase => exact ⟨row, hrow, hrest⟩
      | sign hphase hcsr hkey hserial hleaf hinsert =>
        have hrows := (PkiDatabase.insertCertificate_tables hinsert).1
        exact ⟨row, hrows ▸ mem_append_left _ hrow, hrest⟩
  | pollNext i =>
    rw [(state.act_pollNext_frame env i).1]
    exact h
  | _ => exact h

theorem at_approval_act {j : Nat} {serial : Uuid} {action : EnrollAction}
    (h : (state.act env action).At (.approval j) serial) :
    state.At (.approval j) serial ∨ ¬ state.store.Recorded serial := by
  cases action with
  | approve user id =>
    obtain ⟨call, bundle, hcall, hbundle, hserial⟩ := h
    rcases Calls.getElem?_start hcall with hold | ⟨-, rfl⟩
    · exact Or.inl ⟨call, bundle, hold, hbundle, hserial⟩
    · rw [show ApprovePhase.bundle? _ = none from (approveStart_phase user id state.store).1]
        at hbundle
      cases hbundle
  | approveNext i draws interval =>
    cases hcall : state.approvals[i]? with
    | none =>
      simp only [EnrollState.act, hcall] at h
      exact Or.inl h
    | some call =>
      simp only [EnrollState.act, hcall] at h
      obtain ⟨other, bundle, hother, hbundle, rfl⟩ := h
      rcases Calls.getElem?_put hother with ⟨-, hold⟩ | ⟨-, rfl⟩
      · exact Or.inl ⟨other, bundle, hold, hbundle, rfl⟩
      · right
        have hmove := approveMove_next env state.clock draws interval call state.store
          state.approved
        generalize approveNext env state.clock draws interval call state.store
          state.approved = next at hmove hbundle
        obtain ⟨phase, store, approved⟩ := next
        -- only the signature leaves an approval with a bundle
        cases hmove with
        | sign hphase hcsr hkey hserial hleaf hinsert =>
          cases hbundle
          rw [hserial]
          exact not_recorded_of_insert hleaf hinsert
        | carry phase hphase hnone =>
          rw [hnone] at hbundle
          cases hbundle
        | cache hphase => cases hbundle
        | finish phase hphase hnone =>
          rw [hnone] at hbundle
          cases hbundle
  | submitNext i polling id =>
    obtain ⟨call, bundle, hcall, hrest⟩ := h
    rw [(state.act_submitNext_frame env i polling id).1] at hcall
    exact Or.inl ⟨call, bundle, hcall, hrest⟩
  | pollNext i =>
    obtain ⟨call, bundle, hcall, hrest⟩ := h
    rw [(state.act_pollNext_frame env i).2.2.1] at hcall
    exact Or.inl ⟨call, bundle, hcall, hrest⟩
  | _ => exact Or.inl h

end Approvals

/-- The serial number of the certificate of an approval. -/
def Grant.serial (grant : Grant) : Uuid :=
  grant.bundle.serverCert.serial

/-- Approvals have certificates of their own, which no approval on its way has. -/
structure TimedState.Distinct (timed : TimedState) : Prop where
  recorded : ∀ grant ∈ timed.grants, timed.state.store.Recorded grant.serial
  left : ∀ grant ∈ timed.grants, ∀ i, ¬ timed.state.At (.approval i) grant.serial
  nodup : (timed.grants.map Grant.serial).Nodup

section Distinct

variable {env : EnrollEnv} {timed : TimedState}

theorem TimedState.Distinct.eq_of_bundle (h : timed.Distinct) {grant other : Grant}
    (hgrant : grant ∈ timed.grants) (hother : other ∈ timed.grants)
    (hbundle : grant.bundle = other.bundle) : grant = other := by
  refine inj_on_of_nodup_map h.nodup hgrant hother ?_
  rw [Grant.serial, Grant.serial, hbundle]

theorem TimedState.Distinct.wait (h : timed.Distinct) (elapsed : Nat) :
    (timed.wait elapsed).Distinct :=
  ⟨h.recorded, h.left, h.nodup⟩

theorem TimedState.Distinct.act (h : timed.Distinct) (hlocated : timed.state.Located)
    (action : EnrollAction) : (timed.act env action).Distinct := by
  have hlocated' : (timed.act env action).state.Located := located_act hlocated action
  have hrecorded (grant : Grant) (hgrant : grant ∈ timed.grants) :
      (timed.act env action).state.store.Recorded grant.serial :=
    recorded_act (h.recorded grant hgrant) action
  have hleft (grant : Grant) (hgrant : grant ∈ timed.grants) (i : Nat) :
      ¬ (timed.act env action).state.At (.approval i) grant.serial := by
    intro hat
    rcases at_approval_act hat with hold | hnew
    · exact h.left grant hgrant i hold
    · exact hnew (h.recorded grant hgrant)
  have hmove := ledgerMove_act env timed action
  generalize timed.act env action = after at *
  cases hmove with
  | same happroved hgrants =>
    exact ⟨hgrants ▸ hrecorded, hgrants ▸ hleft, hgrants ▸ h.nodup⟩
  | release haction hentry hhash happroved hgrants =>
    exact ⟨hgrants ▸ hrecorded, hgrants ▸ hleft, hgrants ▸ h.nodup⟩
  | @grant i call row host bundle hother hcall hphase happroved hgrants hreleases =>
    have hat : timed.state.At (.approval i) bundle.serverCert.serial :=
      ⟨call, bundle, hcall, by rw [hphase]; rfl, rfl⟩
    have hcached : after.state.At (.cached row.pollingToken) bundle.serverCert.serial := by
      refine ⟨⟨row.pollingToken, bundle, host⟩, ?_, rfl, rfl⟩
      rw [happroved]
      exact mem_cacheEntry.mpr (Or.inr rfl)
    refine ⟨?_, ?_, ?_⟩
    · intro grant hgrant
      rw [hgrants] at hgrant
      rcases mem_append.mp hgrant with hold | hnew
      · exact hrecorded grant hold
      · rw [mem_singleton.mp hnew]
        exact hlocated'.recorded _ _ hcached
    · intro grant hgrant j hat'
      rw [hgrants] at hgrant
      rcases mem_append.mp hgrant with hold | hnew
      · exact hleft grant hold j hat'
      · rw [mem_singleton.mp hnew] at hat'
        cases hlocated'.one_place _ _ _ hat' hcached
    · rw [hgrants, map_append, nodup_append]
      refine ⟨h.nodup, nodup_singleton _, ?_⟩
      intro serial hserial other hother hsame
      obtain ⟨grant, hgrant, rfl⟩ := mem_map.mp hserial
      rw [mem_singleton.mp hother] at hsame
      refine h.left grant hgrant i ?_
      rw [hsame]
      exact hat

end Distinct

/-! ## The map and the records -/

/-- A poll has got the bundle of the approval. -/
def Fetched (releases : List Release) (grant : Grant) : Prop :=
  ∃ release ∈ releases, release.bundle = grant.bundle

instance (releases : List Release) (grant : Grant) : Decidable (Fetched releases grant) :=
  inferInstanceAs (Decidable (∃ release ∈ releases, _))

/-- The map has the last approval under every polling token, unless its bundle was fetched. Bundles
are released under the token that they were approved for. -/
structure TimedState.Traced (env : EnrollEnv) (timed : TimedState) : Prop where
  mapped : ∀ entry ∈ timed.state.approved.rows, ∃ grant,
    lastGrant timed.grants entry.pollingHash = some grant ∧ grant.bundle = entry.bundle ∧
      ¬ Fetched timed.releases grant
  unfetched : ∀ hash grant, lastGrant timed.grants hash = some grant →
    ¬ Fetched timed.releases grant →
      ∃ entry ∈ timed.state.approved.rows, entry.pollingHash = hash ∧ entry.bundle = grant.bundle
  released : ∀ release ∈ timed.releases, ∃ grant ∈ timed.grants,
    grant.bundle = release.bundle ∧ grant.row.pollingToken = env.hashToken release.token

section Traced

variable {env : EnrollEnv} {timed after : TimedState}

theorem traced_grant (h : timed.Traced env) (hdistinct : timed.Distinct) {i : Nat}
    {call : ApproveCall} {row : PendingEnrollment} {host : Uuid} {bundle : PkiBundle}
    (hcall : timed.state.approvals[i]? = some call) (hphase : call.phase = .signed row host bundle)
    (happroved : after.state.approved =
      cacheEntry ⟨row.pollingToken, bundle, host⟩ timed.state.approved)
    (hgrants : after.grants = timed.grants ++ [⟨row, bundle, timed.state.clock⟩])
    (hreleases : after.releases = timed.releases) : after.Traced env := by
  have hnew : ¬ Fetched timed.releases ⟨row, bundle, timed.state.clock⟩ := by
    rintro ⟨release, hrelease, hbundle⟩
    obtain ⟨grant, hgrant, hsame, -⟩ := h.released release hrelease
    refine hdistinct.left grant hgrant i ⟨call, bundle, hcall, ?_, ?_⟩
    · rw [hphase]
      rfl
    · rw [Grant.serial, hsame, hbundle]
  constructor
  · intro entry hentry
    rw [happroved] at hentry
    rw [hgrants, hreleases, lastGrant_concat]
    rcases mem_cacheEntry.mp hentry with ⟨hold, hother⟩ | rfl
    · rw [if_neg (Ne.symm hother)]
      exact h.mapped entry hold
    · rw [if_pos rfl]
      exact ⟨_, rfl, rfl, hnew⟩
  · intro hash grant hlast hunfetched
    rw [hgrants, lastGrant_concat] at hlast
    rw [hreleases] at hunfetched
    rw [happroved]
    split at hlast
    next hhash =>
      cases hlast
      exact ⟨_, mem_cacheEntry.mpr (Or.inr rfl), hhash, rfl⟩
    next hother =>
      obtain ⟨entry, hentry, hhash, hbundle⟩ := h.unfetched hash grant hlast hunfetched
      refine ⟨entry, mem_cacheEntry.mpr (Or.inl ⟨hentry, ?_⟩), hhash, hbundle⟩
      rw [hhash]
      exact Ne.symm hother
  · intro release hrelease
    rw [hreleases] at hrelease
    obtain ⟨grant, hgrant, hrest⟩ := h.released release hrelease
    exact ⟨grant, hgrants ▸ mem_append_left _ hgrant, hrest⟩

theorem traced_release (h : timed.Traced env) (hdistinct : timed.Distinct) {token : String}
    {entry : ApprovedEntry} (hentry : entry ∈ timed.state.approved.rows)
    (hhash : entry.pollingHash = env.hashToken token)
    (happroved : after.state.approved = timed.state.approved.delete fun other =>
      decide (other.pollingHash = env.hashToken token))
    (hgrants : after.grants = timed.grants)
    (hreleases : after.releases =
      timed.releases ++ [⟨token, entry.bundle, timed.state.clock⟩]) : after.Traced env := by
  obtain ⟨taken, hlast, hbundle, -⟩ := h.mapped entry hentry
  obtain ⟨htaken, htoken⟩ := mem_of_lastGrant hlast
  constructor
  · intro other hother
    rw [happroved] at hother
    obtain ⟨hold, hkey⟩ := Table.mem_delete.mp hother
    obtain ⟨grant, hlast', hbundle', hunfetched⟩ := h.mapped other hold
    rw [hgrants, hreleases]
    refine ⟨grant, hlast', hbundle', ?_⟩
    rintro ⟨release, hrelease, hsame⟩
    rcases mem_append.mp hrelease with hbefore | hnow
    · exact hunfetched ⟨release, hbefore, hsame⟩
    · -- the released bundle would be that of two approvals
      rw [mem_singleton.mp hnow] at hsame
      obtain ⟨hgrant, htoken'⟩ := mem_of_lastGrant hlast'
      have heq := hdistinct.eq_of_bundle hgrant htaken (hsame.symm.trans hbundle.symm)
      refine of_decide_eq_false hkey ?_
      rw [← htoken', heq, htoken, hhash]
  · intro hash grant hlast' hunfetched
    rw [hgrants] at hlast'
    rw [hreleases] at hunfetched
    have hbefore : ¬ Fetched timed.releases grant := by
      rintro ⟨release, hrelease, hsame⟩
      exact hunfetched ⟨release, mem_append_left _ hrelease, hsame⟩
    obtain ⟨other, hother, hkey, hbundle'⟩ := h.unfetched hash grant hlast' hbefore
    refine ⟨other, ?_, hkey, hbundle'⟩
    rw [happroved]
    refine Table.mem_delete.mpr ⟨hother, decide_eq_false ?_⟩
    intro hsame
    refine hunfetched ⟨_, mem_append_right _ (mem_singleton_self _), ?_⟩
    rw [← hbundle', Table.eq_of_key_eq hother hentry (hsame.trans hhash.symm)]
  · intro release hrelease
    rw [hreleases] at hrelease
    rw [hgrants]
    rcases mem_append.mp hrelease with hold | hnow
    · exact h.released release hold
    · rw [mem_singleton.mp hnow]
      exact ⟨taken, htaken, hbundle, htoken.trans hhash⟩

theorem TimedState.Traced.wait (h : timed.Traced env) (elapsed : Nat) :
    (timed.wait elapsed).Traced env :=
  ⟨h.mapped, h.unfetched, h.released⟩

theorem TimedState.Traced.act (h : timed.Traced env) (hdistinct : timed.Distinct)
    (action : EnrollAction) : (timed.act env action).Traced env := by
  have hmove := ledgerMove_act env timed action
  generalize timed.act env action = after at hmove ⊢
  cases hmove with
  | same happroved hgrants hreleases =>
    constructor
    · rw [happroved, hgrants, hreleases]
      exact h.mapped
    · rw [happroved, hgrants, hreleases]
      exact h.unfetched
    · rw [hgrants, hreleases]
      exact h.released
  | grant hother hcall hphase happroved hgrants hreleases =>
    exact traced_grant h hdistinct hcall hphase happroved hgrants hreleases
  | release haction hentry hhash happroved hgrants hreleases =>
    exact traced_release h hdistinct hentry hhash happroved hgrants hreleases

/-- In every interleaving from the first submission on, the records account for the map. -/
theorem traced_run (env : EnrollEnv) (clock : Nat) (store : EnrollStore) (steps : List EnrollStep) :
    (Runs.run (timedStep env) (.first clock store) steps).Distinct ∧
      (Runs.run (timedStep env) (.first clock store) steps).Traced env := by
  induction steps using List.reverseRecOn with
  | nil =>
    refine ⟨⟨?_, ?_, nodup_nil⟩, ⟨?_, ?_, ?_⟩⟩
    · intro grant hgrant
      cases hgrant
    · intro grant hgrant
      cases hgrant
    · intro entry hentry
      cases hentry
    · intro hash grant hlast
      cases hlast
    · intro release hrelease
      cases hrelease
  | append_singleton steps step ih =>
    have hlocated := located_timed_run env clock store steps
    rw [Runs.run_concat]
    exact ⟨(ih.1.wait step.elapsed).act (hlocated.wait step.elapsed) step.action,
      (ih.2.wait step.elapsed).act (ih.1.wait step.elapsed) step.action⟩

end Traced

/-! ## The window -/

/-- The request had not expired when it was approved, and the time is at most ten minutes after
that. -/
def Grant.Timely (grant : Grant) (now : Nat) : Prop :=
  grant.grantedAt < grant.row.expiresAt ∧ now ≤ grant.grantedAt + 600

instance (grant : Grant) (now : Nat) : Decidable (grant.Timely now) :=
  inferInstanceAs (Decidable (_ ∧ _))

/-- Every bundle was released in its time window, under the token that it was approved for. -/
def TimedState.InTime (env : EnrollEnv) (timed : TimedState) : Prop :=
  ∀ release ∈ timed.releases, ∃ grant ∈ timed.grants, grant.bundle = release.bundle ∧
    grant.row.pollingToken = env.hashToken release.token ∧ grant.Timely release.releasedAt

instance (env : EnrollEnv) (timed : TimedState) : Decidable (timed.InTime env) :=
  inferInstanceAs (Decidable (∀ release ∈ timed.releases, ∃ grant ∈ timed.grants, _ ∧ _ ∧ _))

/-- If the step is a poll for a bundle that was approved and that nobody has got yet, it comes in
the time window. -/
def Punctual (env : EnrollEnv) (timed : TimedState) (step : EnrollStep) : Prop :=
  ∀ token grant, step.action = .poll token →
    lastGrant timed.grants (env.hashToken token) = some grant →
      ¬ Fetched timed.releases grant → grant.Timely (timed.state.clock + step.elapsed)

section Window

variable {env : EnrollEnv} {timed : TimedState}

theorem punctual_of_miss (h : timed.Traced env) {step : EnrollStep}
    (hmiss : ∀ token, step.action = .poll token → ∀ entry ∈ timed.state.approved.rows,
      entry.pollingHash ≠ env.hashToken token) : Punctual env timed step := by
  intro token grant haction hlast hunfetched
  obtain ⟨entry, hentry, hhash, -⟩ := h.unfetched _ grant hlast hunfetched
  exact absurd hhash (hmiss token haction entry hentry)

/-- A poll that gets a bundle is punctual exactly if the approval of the bundle is timely. -/
theorem punctual_poll_iff (h : timed.Traced env) {token : String} {entry : ApprovedEntry}
    (hentry : entry ∈ timed.state.approved.rows) (hhash : entry.pollingHash = env.hashToken token)
    (elapsed : Nat) :
    ∃ grant ∈ timed.grants, grant.bundle = entry.bundle ∧
      grant.row.pollingToken = env.hashToken token ∧
      (Punctual env timed ⟨elapsed, .poll token⟩ ↔
        grant.Timely (timed.state.clock + elapsed)) := by
  obtain ⟨grant, hlast, hbundle, hunfetched⟩ := h.mapped entry hentry
  rw [hhash] at hlast
  obtain ⟨hgrant, htoken⟩ := mem_of_lastGrant hlast
  refine ⟨grant, hgrant, hbundle, htoken, ?_⟩
  constructor
  · intro hpunctual
    exact hpunctual token grant rfl hlast hunfetched
  · intro htimely other grant' haction hlast' hunfetched'
    cases haction
    rw [hlast] at hlast'
    cases hlast'
    exact htimely

/-- A new approval changes nothing about the bundles that were released before. -/
theorem inTime_grant_iff {after : TimedState} (h : timed.Traced env) (hdistinct : after.Distinct)
    {grant : Grant} (hgrants : after.grants = timed.grants ++ [grant])
    (hreleases : after.releases = timed.releases) :
    after.InTime env ↔ timed.InTime env := by
  constructor
  · intro hall release hrelease
    obtain ⟨found, hfound, hbundle, htoken, htimely⟩ := hall release (hreleases ▸ hrelease)
    obtain ⟨old, hold, hbundle', -⟩ := h.released release hrelease
    have hmem : old ∈ after.grants := hgrants ▸ mem_append_left _ hold
    cases hdistinct.eq_of_bundle hfound hmem (hbundle.trans hbundle'.symm)
    exact ⟨found, hold, hbundle, htoken, htimely⟩
  · intro hall release hrelease
    obtain ⟨found, hfound, hrest⟩ := hall release (hreleases ▸ hrelease)
    exact ⟨found, hgrants ▸ mem_append_left _ hfound, hrest⟩

theorem inTime_release_iff {after : TimedState} (hdistinct : timed.Distinct) (release : Release)
    {grant : Grant} (hgrant : grant ∈ timed.grants) (hbundle : grant.bundle = release.bundle)
    (htoken : grant.row.pollingToken = env.hashToken release.token)
    (hgrants : after.grants = timed.grants)
    (hreleases : after.releases = timed.releases ++ [release]) :
    after.InTime env ↔ timed.InTime env ∧ grant.Timely release.releasedAt := by
  unfold TimedState.InTime
  rw [hgrants, hreleases, forall_mem_append, forall_mem_singleton]
  refine and_congr_right fun _ => ?_
  constructor
  · rintro ⟨found, hfound, hsame, -, htimely⟩
    cases hdistinct.eq_of_bundle hfound hgrant (hsame.trans hbundle.symm)
    exact htimely
  · intro htimely
    exact ⟨grant, hgrant, hbundle, htoken, htimely⟩

/-- A step keeps to the time window exactly if it is punctual. -/
theorem inTime_step_iff (h : timed.Traced env) (hdistinct : timed.Distinct)
    (hlocated : timed.state.Located) (step : EnrollStep) :
    (timedStep env timed step).InTime env ↔ timed.InTime env ∧ Punctual env timed step := by
  have hdistinct' : (timedStep env timed step).Distinct :=
    (hdistinct.wait step.elapsed).act (hlocated.wait step.elapsed) step.action
  have hmove : LedgerMove env (timed.wait step.elapsed) (timedStep env timed step) step.action :=
    ledgerMove_act env _ _
  generalize timedStep env timed step = after at hmove hdistinct' ⊢
  cases hmove with
  | same happroved hgrants hreleases hmiss =>
    rw [and_iff_left (punctual_of_miss h hmiss)]
    unfold TimedState.InTime
    rw [hgrants, hreleases]
    rfl
  | grant hother hcall hphase happroved hgrants hreleases =>
    rw [and_iff_left (punctual_of_miss h fun token haction => absurd haction (hother token))]
    exact inTime_grant_iff h hdistinct' hgrants hreleases
  | @release token entry haction hentry hhash happroved hgrants hreleases =>
    obtain ⟨elapsed, action⟩ := step
    cases haction
    obtain ⟨grant, hgrant, hbundle, htoken, hiff⟩ := punctual_poll_iff h hentry hhash elapsed
    rw [hiff]
    exact inTime_release_iff hdistinct ⟨token, entry.bundle, timed.state.clock + elapsed⟩ hgrant
      hbundle htoken hgrants hreleases

/-- **When bundles are released in time.** In any interleaving, every bundle that a poll gets is
released within ten minutes after the approval of a request that had not expired, exactly if every
first poll after an approval comes in that window. -/
theorem released_in_time_iff (env : EnrollEnv) (clock : Nat) (store : EnrollStore)
    (steps : List EnrollStep) :
    (Runs.run (timedStep env) (.first clock store) steps).InTime env ↔
      Runs.Meets (timedStep env) (Punctual env) (.first clock store) steps := by
  induction steps using List.reverseRecOn with
  | nil =>
    refine iff_of_true ?_ trivial
    intro release hrelease
    cases hrelease
  | append_singleton steps step ih =>
    obtain ⟨hdistinct, htraced⟩ := traced_run env clock store steps
    have hlocated := located_timed_run env clock store steps
    rw [Runs.run_concat, Runs.meets_concat, inTime_step_iff htraced hdistinct hlocated step, ih]

end Window

/-- The host `web` submits, an admin approves after some time, and the host polls after some
more. -/
def webEnrolsAfter (approval poll : Nat) : List EnrollStep :=
  [⟨0, .submit ⟨"token", "csr", "web", "10.0.0.1"⟩⟩, ⟨0, .submitNext 0 ⟨1⟩ ⟨2⟩⟩,
    ⟨0, .submitNext 0 ⟨1⟩ ⟨2⟩⟩, ⟨0, .submitNext 0 ⟨1⟩ ⟨2⟩⟩, ⟨approval, .approve caAdmin ⟨2⟩⟩,
    ⟨0, .approveNext 0 ⟨⟨4⟩, ⟨5⟩, ⟨6⟩⟩ 900⟩, ⟨0, .approveNext 0 ⟨⟨4⟩, ⟨5⟩, ⟨6⟩⟩ 900⟩,
    ⟨0, .approveNext 0 ⟨⟨4⟩, ⟨5⟩, ⟨6⟩⟩ 900⟩, ⟨0, .approveNext 0 ⟨⟨4⟩, ⟨5⟩, ⟨6⟩⟩ 900⟩,
    ⟨poll, .poll (Uuid.text ⟨1⟩)⟩]

/-- An approval after 25 hours releases the bundle of an expired request, and a poll a day after the
approval still gets its bundle. -/
theorem released_out_of_time :
    ¬ (Runs.run (timedStep plainEnv) (.first 0 oneToken) (webEnrolsAfter 90000 0)).InTime
        plainEnv ∧
      ¬ (Runs.run (timedStep plainEnv) (.first 0 oneToken) (webEnrolsAfter 0 86400)).InTime
        plainEnv := by
  constructor
  · decide +kernel
  · decide +kernel

end FirewallManager
