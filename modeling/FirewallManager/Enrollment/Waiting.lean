import FirewallManager.Enrollment.Bundle

/-!
# Requests that wait for their approval

A request expires 24 hours after it was inserted. A submission for a machine that has a request
already takes that request over: it gets the new polling token, the new CSR and a new creation time,
and keeps its expiry. Polls and the administrators' list skip requests that have expired.

`RequestsMove` says what a step can do to the requests, and `awaits_act` that a request and its
polling token stay as they are until the request is approved, denied or resubmitted.
`accepted_pollable_iff` says when a submission can be polled for 24 hours.
-/

namespace FirewallManager

open List

/-- The machine of a submission. -/
def SubmitEnrollmentRequest.machineId (req : SubmitEnrollmentRequest) : String :=
  req.fqdn ++ "-" ++ req.ipAddress

/-- The request that a submission inserts. -/
def SubmitEnrollmentRequest.row (req : SubmitEnrollmentRequest) (now : Nat) (hash : String)
    (id : Uuid) (ip : String) : PendingEnrollment :=
  ⟨⟨id, req.fqdn, ip, some req.csr⟩, req.machineId, hash, now, now + 24 * 3600⟩

/-- `list_enrollments`. -/
def listEnrollments (now : Nat) (store : EnrollStore) : List PendingEnrollment :=
  (store.requests.select fun row => decide (now < row.expiresAt)).insertionSort
    fun row other => other.createdAt ≤ row.createdAt

theorem mem_listEnrollments {now : Nat} {store : EnrollStore} {row : PendingEnrollment} :
    row ∈ listEnrollments now store ↔ row ∈ store.requests.rows ∧ now < row.expiresAt := by
  rw [listEnrollments, mem_insertionSort, Table.mem_select, decide_eq_true_eq]

section Requests

/-- What an upsert does to the requests when it succeeds. -/
inductive Upserted (now : Nat) (req : SubmitEnrollmentRequest) (hash : String) (id : Uuid)
    (requests : Table fun row : PendingEnrollment => row.id) :
    (Table fun row : PendingEnrollment => row.id) → Prop where
  | resubmitted {old : PendingEnrollment} (hold : old ∈ requests.rows)
      (hmachine : old.machineId = req.machineId) :
      Upserted now req hash id requests
        (requests.update (fun row => decide (row.machineId = req.machineId))
          (PendingEnrollment.resubmit now hash req.csr)
          (PendingEnrollment.id_resubmit now hash req.csr))
  | inserted {ip : String} {requests' : Table fun row : PendingEnrollment => row.id}
      (hnew : ∀ row ∈ requests.rows, row.machineId ≠ req.machineId)
      (hrows : requests'.rows = requests.rows ++ [req.row now hash id ip]) :
      Upserted now req hash id requests requests'

variable {env : EnrollEnv} {now : Nat} {req : SubmitEnrollmentRequest} {polling id : Uuid}
  {requests requests' : Table fun row : PendingEnrollment => row.id}

theorem upserted_of_ok (h : upsertRequest env now req polling id requests = .ok requests') :
    (∀ row ∈ requests.rows, row.pollingToken = env.hashToken polling.text →
      row.machineId = req.machineId) ∧
      Upserted now req (env.hashToken polling.text) id requests requests' := by
  unfold upsertRequest at h
  dsimp only at h
  split at h
  next => cases h
  next ip hip =>
    split at h
    next => cases h
    next hfree =>
      have hown : ∀ row ∈ requests.rows, row.pollingToken = env.hashToken polling.text →
          row.machineId = req.machineId := by
        intro row hrow htoken
        by_contra hother
        exact hfree (any_eq_true.mpr ⟨row, hrow, decide_eq_true ⟨htoken, hother⟩⟩)
      split at h
      next hexists =>
        cases h
        obtain ⟨old, hold, hmachine⟩ := any_eq_true.mp hexists
        exact ⟨hown, .resubmitted hold (of_decide_eq_true hmachine)⟩
      next hnone =>
        split at h
        next => cases h
        next inserted hinsert =>
          cases h
          refine ⟨hown, .inserted ?_ (Table.insert?_eq_some_iff.mp hinsert).2⟩
          intro row hrow hmachine
          exact hnone (any_eq_true.mpr ⟨row, hrow, decide_eq_true hmachine⟩)

theorem Upserted.stored {hash : String} (h : Upserted now req hash id requests requests')
    {row : PendingEnrollment} (hrow : row ∈ requests.rows)
    (hother : row.machineId ≠ req.machineId) : row ∈ requests'.rows := by
  cases h with
  | resubmitted hold hmachine =>
    refine mem_map.mpr ⟨row, hrow, ?_⟩
    rw [if_neg]
    simpa using hother
  | inserted hnew hrows =>
    rw [hrows]
    exact mem_append_left _ hrow

/-- No two requests are of one machine. -/
def MachineUnique (requests : Table fun row : PendingEnrollment => row.id) : Prop :=
  ∀ row ∈ requests.rows, ∀ other ∈ requests.rows, row.machineId = other.machineId → row = other

theorem MachineUnique.of_subset (h : MachineUnique requests)
    (hsubset : ∀ row ∈ requests'.rows, row ∈ requests.rows) : MachineUnique requests' := by
  intro row hrow other hother
  exact h row (hsubset row hrow) other (hsubset other hother)

theorem Upserted.machineUnique {hash : String} (h : Upserted now req hash id requests requests')
    (hunique : MachineUnique requests) : MachineUnique requests' := by
  cases h with
  | resubmitted hold hmachine =>
    intro row hrow other hother hsame
    obtain ⟨before, hbefore, rfl⟩ := mem_map.mp hrow
    obtain ⟨before', hbefore', rfl⟩ := mem_map.mp hother
    -- a resubmission leaves the machine as it is
    have hkeep (row : PendingEnrollment) :
        (if decide (row.machineId = req.machineId) = true then
          PendingEnrollment.resubmit now hash req.csr row else row).machineId =
            row.machineId := by
      split <;> rfl
    rw [hkeep, hkeep] at hsame
    rw [hunique before hbefore before' hbefore' hsame]
  | inserted hnew hrows =>
    intro row hrow other hother hsame
    rw [hrows] at hrow hother
    rcases mem_append.mp hrow with hold | hlast
    · rcases mem_append.mp hother with hold' | hlast'
      · exact hunique row hold other hold' hsame
      · rw [mem_singleton.mp hlast'] at hsame
        exact absurd hsame (hnew row hold)
    · rcases mem_append.mp hother with hold' | hlast'
      · rw [mem_singleton.mp hlast] at hsame
        exact absurd hsame.symm (hnew other hold')
      · rw [mem_singleton.mp hlast, mem_singleton.mp hlast']

/-- What a step does to the requests. -/
inductive RequestsMove (env : EnrollEnv) (state : EnrollState) :
    EnrollAction → (Table fun row : PendingEnrollment => row.id) → Prop where
  | same (action : EnrollAction) : RequestsMove env state action state.store.requests
  | upsert {i : Nat} {polling id : Uuid} {call : SubmitCall}
      {requests : Table fun row : PendingEnrollment => row.id}
      (hcall : state.submits[i]? = some call) (hphase : call.phase = .marked)
      (hok : upsertRequest env state.clock call.request polling id state.store.requests =
        .ok requests) :
      RequestsMove env state (.submitNext i polling id) requests
  | approved {i : Nat} {draws : ApprovalDraws} {interval : Int} {call : ApproveCall} {host : Uuid}
      (hcall : state.approvals[i]? = some call) (hphase : call.phase = .cached host) :
      RequestsMove env state (.approveNext i draws interval)
        (state.store.requests.delete fun row => decide (row.id = call.requestId))
  | denied {user : AuthUser} {id : Uuid} (hadmin : user.role.isAdmin = true) :
      RequestsMove env state (.deny user id)
        (state.store.requests.delete fun row => decide (row.id = id))

theorem requests_approveNext (env : EnrollEnv) (now : Nat) (draws : ApprovalDraws)
    (interval : Int) (call : ApproveCall) (store : EnrollStore)
    (approved : Table ApprovedEntry.pollingHash) :
    (approveNext env now draws interval call store approved).2.1.requests = store.requests ∨
      ∃ host, call.phase = .cached host ∧
        (approveNext env now draws interval call store approved).2.1.requests =
          store.requests.delete fun row => decide (row.id = call.requestId) := by
  unfold approveNext
  split
  · split <;> exact Or.inl rfl
  · split
    · exact Or.inl rfl
    · split <;> exact Or.inl rfl
  · dsimp only
    unfold approveSign
    split
    · exact Or.inl rfl
    · split
      · exact Or.inl rfl
      · split <;> exact Or.inl rfl
  · exact Or.inl rfl
  next host hphase => exact Or.inr ⟨host, hphase, rfl⟩
  · exact Or.inl rfl
  · exact Or.inl rfl

theorem requestsMove_act (env : EnrollEnv) (state : EnrollState) (action : EnrollAction) :
    RequestsMove env state action (state.act env action).store.requests := by
  cases action with
  | createToken user token req =>
    show RequestsMove env state _
      (createToken env user state.clock token req state.store).2.requests
    rw [(createToken_frame env user state.clock token req state.store).1]
    exact .same _
  | revokeToken user hash =>
    show RequestsMove env state _ (revokeToken user state.clock hash state.store).2.requests
    rw [(revokeToken_frame user state.clock hash state.store).1]
    exact .same _
  | submit req => exact .same _
  | submitNext i polling id =>
    unfold EnrollState.act
    dsimp only
    split
    next => exact .same _
    next call hcall =>
      unfold submitNext
      dsimp only
      split
      · exact .same _
      · exact .same _
      next hphase =>
        split
        next requests hok => exact .upsert hcall hphase hok
        next => exact .same _
      · exact .same _
      · exact .same _
  | approve user id => exact .same _
  | approveNext i draws interval =>
    unfold EnrollState.act
    dsimp only
    split
    next => exact .same _
    next call hcall =>
      rcases requests_approveNext env state.clock draws interval call state.store state.approved
        with hsame | ⟨host, hphase, hdeleted⟩
      · show RequestsMove env state _
          (approveNext env state.clock draws interval call state.store
            state.approved).2.1.requests
        rw [hsame]
        exact .same _
      · show RequestsMove env state _
          (approveNext env state.clock draws interval call state.store
            state.approved).2.1.requests
        rw [hdeleted]
        exact .approved hcall hphase
  | deny user id =>
    show RequestsMove env state _ (denyEnrollment user id state.store).2.requests
    unfold denyEnrollment
    cases hadmin : user.role.isAdmin with
    | false => exact .same _
    | true => exact .denied hadmin
  | poll token => exact .same _
  | pollNext i =>
    rw [(state.act_pollNext_frame env i).1]
    exact .same _

theorem RequestsMove.machineUnique {state : EnrollState} {action : EnrollAction}
    (h : RequestsMove env state action requests') (hunique : MachineUnique state.store.requests) :
    MachineUnique requests' := by
  cases h with
  | same => exact hunique
  | upsert hcall hphase hok => exact (upserted_of_ok hok).2.machineUnique hunique
  | approved hcall hphase => exact hunique.of_subset fun row hrow => (Table.mem_delete.mp hrow).1
  | denied hadmin => exact hunique.of_subset fun row hrow => (Table.mem_delete.mp hrow).1

/-- In every interleaving the requests are of different machines. -/
theorem machineUnique_run (clock : Nat) (store : EnrollStore) (steps : List EnrollStep) :
    MachineUnique (Runs.run (enrollStep env) (.first clock store) steps).store.requests := by
  induction steps using List.reverseRecOn with
  | nil =>
    intro row hrow
    cases hrow
  | append_singleton steps step ih =>
    rw [Runs.run_concat]
    exact (requestsMove_act env _ step.action).machineUnique ih

end Requests

section Waiting

/-- The approval is about to hand over the bundle or to delete the request. -/
def ApprovePhase.takesEffect : ApprovePhase → Bool
  | .signed _ _ _ => true
  | .cached _ => true
  | _ => false

/-- The step approves, denies or resubmits the request. -/
def Ends (env : EnrollEnv) (row : PendingEnrollment) (state : EnrollState) : EnrollAction → Prop
  | .approveNext i _ _ => ∃ call, state.approvals[i]? = some call ∧ call.requestId = row.id ∧
      call.phase.takesEffect = true
  | .deny user id => user.role.isAdmin = true ∧ id = row.id
  | .submitNext i polling id => ∃ call requests, state.submits[i]? = some call ∧
      call.phase = .marked ∧ call.request.machineId = row.machineId ∧
      upsertRequest env state.clock call.request polling id state.store.requests = .ok requests
  | _ => False

/-- The request is in the table, its polling token is nobody else's, and nothing has been handed
over for it. -/
structure EnrollState.Awaits (row : PendingEnrollment) (state : EnrollState) : Prop where
  stored : row ∈ state.store.requests.rows
  alone : ∀ other ∈ state.store.requests.rows, other.pollingToken = row.pollingToken →
    other.id = row.id
  reads : ∀ call ∈ state.approvals, ∀ read, call.phase.row? = some read →
    read.pollingToken = row.pollingToken → call.requestId = row.id
  free : ∀ entry ∈ state.approved.rows, entry.pollingHash ≠ row.pollingToken

variable {env : EnrollEnv} {row : PendingEnrollment} {state state' : EnrollState}

theorem EnrollState.Awaits.wait (h : state.Awaits row) (elapsed : Nat) :
    (state.wait elapsed).Awaits row :=
  ⟨h.stored, h.alone, h.reads, h.free⟩

/-- What a step has to say about the places that it touches. -/
theorem EnrollState.Awaits.frame (h : state.Awaits row)
    (hstored : row ∈ state'.store.requests.rows)
    (hrequests : ∀ other ∈ state'.store.requests.rows,
      other ∈ state.store.requests.rows ∨ other.pollingToken ≠ row.pollingToken)
    (happrovals : ∀ call ∈ state'.approvals, call ∈ state.approvals ∨
      ∀ read, call.phase.row? = some read → read.pollingToken = row.pollingToken →
        call.requestId = row.id)
    (happroved : ∀ entry ∈ state'.approved.rows,
      entry ∈ state.approved.rows ∨ entry.pollingHash ≠ row.pollingToken) :
    state'.Awaits row := by
  constructor
  · exact hstored
  · intro other hother htoken
    rcases hrequests other hother with hold | hnew
    · exact h.alone other hold htoken
    · exact absurd htoken hnew
  · intro call hcall
    rcases happrovals call hcall with hold | hnew
    · exact h.reads call hold
    · exact hnew
  · intro entry hentry
    rcases happroved entry hentry with hold | hnew
    · exact h.free entry hold
    · exact hnew

theorem RequestsMove.keeps {action : EnrollAction}
    {requests : Table fun row : PendingEnrollment => row.id}
    (hmove : RequestsMove env state action requests) (h : state.Awaits row)
    (hends : ¬ Ends env row state action) :
    row ∈ requests.rows ∧ ∀ other ∈ requests.rows,
      other ∈ state.store.requests.rows ∨ other.pollingToken ≠ row.pollingToken := by
  -- a request that is deleted is another one
  have hdelete {id : Uuid} (hid : row.id ≠ id) :
      row ∈ (state.store.requests.delete fun row => decide (row.id = id)).rows ∧
        ∀ other ∈ (state.store.requests.delete fun row => decide (row.id = id)).rows,
          other ∈ state.store.requests.rows ∨ other.pollingToken ≠ row.pollingToken :=
    ⟨Table.mem_delete.mpr ⟨h.stored, decide_eq_false hid⟩,
      fun _ hother => Or.inl (Table.mem_delete.mp hother).1⟩
  cases hmove with
  | same => exact ⟨h.stored, fun _ => Or.inl⟩
  | @upsert i polling id call requests hcall hphase hok =>
    obtain ⟨hown, hupserted⟩ := upserted_of_ok hok
    have hmachine : row.machineId ≠ call.request.machineId := by
      intro hsame
      exact hends ⟨call, requests, hcall, hphase, hsame.symm, hok⟩
    refine ⟨hupserted.stored h.stored hmachine, ?_⟩
    intro other hother
    rcases mem_upsertRequest hok hother with hold | ⟨-, htoken⟩
    · exact Or.inl hold
    · right
      intro hsame
      exact hmachine (hown row h.stored (hsame.symm.trans htoken))
  | approved hcall hphase =>
    refine hdelete fun hid => hends ⟨_, hcall, hid.symm, ?_⟩
    rw [hphase]
    rfl
  | denied hadmin => exact hdelete fun hid => hends ⟨hadmin, hid.symm⟩

theorem row?_approveStart {user : AuthUser} {id : Uuid} {store : EnrollStore}
    {read : PendingEnrollment} (h : (approveStart user id store).row? = some read) :
    read ∈ store.requests.rows ∧ read.id = id := by
  unfold approveStart at h
  split at h
  · cases h
  · split at h
    · cases h
    next row hfind =>
      cases h
      exact Table.mem_of_find? hfind

theorem awaits_approveNext (h : state.Awaits row) {i : Nat} {call : ApproveCall}
    (hcall : state.approvals[i]? = some call) {phase : ApprovePhase} {store : EnrollStore}
    {approved : Table ApprovedEntry.pollingHash}
    (hmove : ApproveMove env call state.store state.approved phase store approved)
    (hends : ¬ (call.requestId = row.id ∧ call.phase.takesEffect = true)) :
    (∀ other ∈ state.approvals.set i ⟨call.user, call.requestId, phase⟩,
      other ∈ state.approvals ∨ ∀ read, other.phase.row? = some read →
        read.pollingToken = row.pollingToken → other.requestId = row.id) ∧
      ∀ entry ∈ approved.rows,
        entry ∈ state.approved.rows ∨ entry.pollingHash ≠ row.pollingToken := by
  have hreads := h.reads call (mem_of_getElem? hcall)
  have hset {phase : ApprovePhase} (hphase : ∀ read, phase.row? = some read →
      read.pollingToken = row.pollingToken → call.requestId = row.id) :
      ∀ other ∈ state.approvals.set i ⟨call.user, call.requestId, phase⟩,
        other ∈ state.approvals ∨ ∀ read, other.phase.row? = some read →
          read.pollingToken = row.pollingToken → other.requestId = row.id := by
    intro other hother
    rcases mem_or_eq_of_mem_set hother with hold | rfl
    · exact Or.inl hold
    · exact Or.inr hphase
  cases hmove with
  | carry phase hrow =>
    refine ⟨hset fun read hread => hreads read (hrow ▸ hread), fun _ => Or.inl⟩
  | sign hphase =>
    refine ⟨hset fun read hread => ?_, fun _ => Or.inl⟩
    cases hread
    exact hreads _ hphase
  | @cache read host bundle hphase =>
    refine ⟨hset fun read hread => (by cases hread), ?_⟩
    intro entry hentry
    rcases mem_cacheEntry.mp hentry with ⟨hold, -⟩ | rfl
    · exact Or.inl hold
    · -- the bundle of this request is handed over only at its end
      right
      intro htoken
      refine hends ⟨hreads read ?_ htoken, ?_⟩
      · rw [hphase]
        rfl
      · rw [hphase]
        rfl
  | finish phase hrow =>
    refine ⟨hset fun read hread => ?_, fun _ => Or.inl⟩
    rw [hrow] at hread
    cases hread

/-- A step that does not end the request leaves it waiting. -/
theorem awaits_act (h : state.Awaits row) {action : EnrollAction}
    (hends : ¬ Ends env row state action) : (state.act env action).Awaits row := by
  obtain ⟨hstored, hrequests⟩ := (requestsMove_act env state action).keeps h hends
  cases action with
  | createToken user token req =>
    exact h.frame hstored hrequests (fun _ => Or.inl) fun _ => Or.inl
  | revokeToken user hash => exact h.frame hstored hrequests (fun _ => Or.inl) fun _ => Or.inl
  | submit req => exact h.frame hstored hrequests (fun _ => Or.inl) fun _ => Or.inl
  | submitNext i polling id =>
    obtain ⟨happrovals, happroved, -⟩ := state.act_submitNext_frame env i polling id
    refine h.frame hstored hrequests ?_ ?_
    · rw [happrovals]
      exact fun _ => Or.inl
    · rw [happroved]
      exact fun _ => Or.inl
  | approve user id =>
    refine h.frame hstored hrequests ?_ fun _ => Or.inl
    intro call hcall
    rcases mem_append.mp hcall with hold | hnew
    · exact Or.inl hold
    · right
      cases mem_singleton.mp hnew
      intro read hread htoken
      obtain ⟨hmem, hid⟩ := row?_approveStart hread
      exact hid.symm.trans (h.alone read hmem htoken)
  | approveNext i draws interval =>
    unfold EnrollState.act at hstored hrequests ⊢
    dsimp only at hstored hrequests ⊢
    cases hcall : state.approvals[i]? with
    | none => exact h
    | some call =>
      rw [hcall] at hstored hrequests
      obtain ⟨happrovals, happroved⟩ := awaits_approveNext h hcall
        (approveMove_next env state.clock draws interval call state.store state.approved)
        fun hend => hends ⟨call, hcall, hend⟩
      exact h.frame hstored hrequests happrovals happroved
  | deny user id => exact h.frame hstored hrequests (fun _ => Or.inl) fun _ => Or.inl
  | poll token =>
    refine h.frame hstored hrequests (fun _ => Or.inl) ?_
    intro entry hentry
    have hmove := pollMove_start env token state.approved
    left
    have hentry : entry ∈ (pollStart env token state.approved).2.rows := hentry
    cases hmove' : pollStart env token state.approved with
    | mk phase approved =>
      rw [hmove'] at hmove hentry
      cases hmove with
      | miss => exact hentry
      | take => exact (Table.mem_delete.mp hentry).1
  | pollNext i =>
    obtain ⟨-, -, happrovals, happroved⟩ := state.act_pollNext_frame env i
    refine h.frame hstored hrequests ?_ ?_
    · rw [happrovals]
      exact fun _ => Or.inl
    · rw [happroved]
      exact fun _ => Or.inl

/-- The same over a run in which no step ends the request. -/
theorem awaits_run {start : EnrollState} (h : start.Awaits row) {steps : List EnrollStep}
    (hends : Runs.Meets (enrollStep env)
      (fun state step => ¬ Ends env row (state.wait step.elapsed) step.action) start steps) :
    (Runs.run (enrollStep env) start steps).Awaits row := by
  have hstep (state : EnrollState) (step : EnrollStep) (hawaits : state.Awaits row)
      (hguard : ¬ Ends env row (state.wait step.elapsed) step.action) :
      (enrollStep env state step).Awaits row := by
    exact awaits_act (hawaits.wait step.elapsed) hguard
  exact Runs.run_invariant_end hstep h hends

/-- A poll with the token misses the map and finds the request, and the administrators see it. -/
structure EnrollState.ShowsPending (env : EnrollEnv) (polling : Uuid) (row : PendingEnrollment)
    (state : EnrollState) : Prop where
  missed : pollStart env polling.text state.approved = (.missed, state.approved)
  pending : pollNext env state.clock ⟨polling.text, .missed⟩ state.store = .answered .pending
  listed : row ∈ listEnrollments state.clock state.store

/-- A waiting request is shown as long as it has not expired. -/
theorem showsPending_iff (h : state.Awaits row) {polling : Uuid}
    (hhash : row.pollingToken = env.hashToken polling.text) :
    state.ShowsPending env polling row ↔ state.clock < row.expiresAt := by
  constructor
  · intro hshows
    exact (mem_listEnrollments.mp hshows.listed).2
  · intro hlive
    refine ⟨?_, ?_, mem_listEnrollments.mpr ⟨h.stored, hlive⟩⟩
    · have hmove := pollMove_start env polling.text state.approved
      cases hstart : pollStart env polling.text state.approved with
      | mk phase approved =>
        rw [hstart] at hmove
        cases hmove with
        | miss => rfl
        | take hentry htoken => exact absurd (htoken.trans hhash.symm) (h.free _ hentry)
    · show (if _ then _ else _) = _
      rw [if_pos]
      exact any_eq_true.mpr ⟨row, h.stored, decide_eq_true ⟨hhash, hlive⟩⟩

/-- Until the deadline, and until it is approved, denied or resubmitted, the request is shown at
every moment. -/
def EnrollState.Pollable (env : EnrollEnv) (polling : Uuid) (row : PendingEnrollment)
    (deadline : Nat) (state : EnrollState) : Prop :=
  ∀ steps elapsed,
    Runs.Meets (enrollStep env)
      (fun state step => ¬ Ends env row (state.wait step.elapsed) step.action) state steps →
    ((Runs.run (enrollStep env) state steps).wait elapsed).clock < deadline →
      ((Runs.run (enrollStep env) state steps).wait elapsed).ShowsPending env polling row

/-- A waiting request can be polled until it expires. -/
theorem pollable_iff (h : state.Awaits row) {polling : Uuid}
    (hhash : row.pollingToken = env.hashToken polling.text) {deadline : Nat}
    (hdeadline : state.clock < deadline) :
    state.Pollable env polling row deadline ↔ deadline ≤ row.expiresAt := by
  constructor
  · intro hpollable
    by_contra hearly
    -- a poll at the moment of expiry, or now if that has passed
    have hclock : (state.wait (row.expiresAt - state.clock)).clock < deadline := by
      show state.clock + (row.expiresAt - state.clock) < deadline
      omega
    have hlive := (showsPending_iff (h.wait _) hhash).mp (hpollable [] _ trivial hclock)
    have hpast : row.expiresAt ≤ (state.wait (row.expiresAt - state.clock)).clock := by
      show row.expiresAt ≤ state.clock + (row.expiresAt - state.clock)
      omega
    omega
  · intro hlate steps elapsed hends hclock
    have hawaits := awaits_run h hends
    exact (showsPending_iff (hawaits.wait elapsed) hhash).mpr (Nat.lt_of_lt_of_le hclock hlate)

end Waiting

section Accepted

variable {env : EnrollEnv} {state : EnrollState} {polling : Uuid}

theorem not_returned_of_fresh (hsha : Function.Injective env.sha256)
    (hfresh : ∀ call ∈ state.submits, call.phase ≠ .returned polling) (csr : String) :
    ¬ state.Returned env (env.hashToken polling.text) csr := by
  rintro ⟨i, req, other, hcall, hhash, -⟩
  have htext := EnrollEnv.hashToken_injective hsha hhash
  rw [Uuid.text_injective htext] at hcall
  exact hfresh _ (mem_of_getElem? hcall) rfl

/-- A submission that succeeds leaves a request that waits. The request is new, or takes over the
expiry of the one that was there. -/
theorem awaits_upserted {req : SubmitEnrollmentRequest} {id : Uuid}
    {requests : Table fun row : PendingEnrollment => row.id} (hbound : state.Bound env)
    (hunique : MachineUnique state.store.requests)
    (hunseen : ∀ csr, ¬ state.Returned env (env.hashToken polling.text) csr)
    (hupserted : Upserted state.clock req (env.hashToken polling.text) id state.store.requests
      requests) (submits : List SubmitCall) :
    ∃ row, { state with
        store := { state.store with requests := requests }
        submits := submits : EnrollState }.Awaits row ∧
      row.pollingToken = env.hashToken polling.text ∧
      (state.clock + 24 * 3600 ≤ row.expiresAt ↔ ∀ old ∈ state.store.requests.rows,
        old.machineId = req.machineId → state.clock + 24 * 3600 ≤ old.expiresAt) := by
  have hrequests (row : PendingEnrollment) (hrow : row ∈ state.store.requests.rows) :
      row.pollingToken ≠ env.hashToken polling.text := by
    intro htoken
    obtain ⟨csr, -, hreturned⟩ := hbound.requests row hrow
    exact hunseen csr (htoken ▸ hreturned)
  have hreads (call : ApproveCall) (hcall : call ∈ state.approvals) (read : PendingEnrollment)
      (hread : call.phase.row? = some read) :
      read.pollingToken ≠ env.hashToken polling.text := by
    intro htoken
    obtain ⟨csr, -, hreturned⟩ := hbound.reads call hcall read hread
    exact hunseen csr (htoken ▸ hreturned)
  have hfree (entry : ApprovedEntry) (hentry : entry ∈ state.approved.rows) :
      entry.pollingHash ≠ env.hashToken polling.text := by
    intro htoken
    obtain ⟨csr, hreturned, -⟩ := hbound.approved entry hentry
    exact hunseen csr (htoken ▸ hreturned)
  cases hupserted with
  | @resubmitted old hold hmachine =>
    refine ⟨old.resubmit state.clock (env.hashToken polling.text) req.csr, ⟨?_, ?_, ?_, hfree⟩,
      rfl, ?_⟩
    · exact mem_map.mpr ⟨old, hold, if_pos (decide_eq_true hmachine)⟩
    · intro other hother htoken
      obtain ⟨before, hbefore, rfl⟩ := mem_map.mp hother
      split at htoken
      next hsame =>
        rw [if_pos hsame, hunique before hbefore old hold
          ((of_decide_eq_true hsame).trans hmachine.symm)]
      next => exact absurd htoken (hrequests before hbefore)
    · intro call hcall read hread htoken
      exact absurd htoken (hreads call hcall read hread)
    · constructor
      · intro hlate other hother hsame
        rw [hunique other hother old hold (hsame.trans hmachine.symm)]
        exact hlate
      · intro hall
        exact hall old hold hmachine
  | @inserted ip requests' hnew hrows =>
    refine ⟨req.row state.clock (env.hashToken polling.text) id ip, ⟨?_, ?_, ?_, hfree⟩, rfl, ?_⟩
    · show _ ∈ requests.rows
      rw [hrows]
      exact mem_append_right _ (mem_singleton_self _)
    · intro other hother htoken
      have hother : other ∈ requests.rows := hother
      rw [hrows] at hother
      rcases mem_append.mp hother with hold | hlast
      · exact absurd htoken (hrequests other hold)
      · rw [mem_singleton.mp hlast]
    · intro call hcall read hread htoken
      exact absurd htoken (hreads call hcall read hread)
    · exact iff_of_true (Nat.le_refl _) fun old hold hsame => absurd hsame (hnew old hold)

theorem upsert_of_submitted {i : Nat} {req : SubmitEnrollmentRequest} {id : Uuid}
    (hmarked : state.submits[i]? = some ⟨req, .marked⟩)
    (h : (state.act env (.submitNext i polling id)).Submitted i req polling) :
    ∃ requests, upsertRequest env state.clock req polling id state.store.requests =
        .ok requests ∧
      state.act env (.submitNext i polling id) = { state with
        store := { state.store with requests := requests }
        submits := state.submits.set i ⟨req, .returned polling⟩ } := by
  unfold EnrollState.Submitted EnrollState.act at h
  unfold EnrollState.act
  simp only [hmarked, submitNext] at h ⊢
  cases hok : upsertRequest env state.clock req polling id state.store.requests with
  | error e =>
    simp only [hok, Calls.getElem?_put_self hmarked] at h
    cases h
  | ok requests => exact ⟨requests, rfl, rfl⟩

/-- **When an accepted submission can be polled.** In any interleaving, take the statement with
which a submission succeeds, with a polling token that was not drawn before. Its request can be
polled and is listed for 24 hours, if it is not approved, denied or resubmitted before, exactly when
a request of the same machine that was there has as long to live. -/
theorem accepted_pollable_iff (env : EnrollEnv) (hsha : Function.Injective env.sha256)
    (clock : Nat) (store : EnrollStore) (steps : List EnrollStep) (elapsed i : Nat)
    (req : SubmitEnrollmentRequest) (polling id : Uuid) (before after : EnrollState)
    (hbefore : before = Runs.run (enrollStep env) (.first clock store) steps)
    (hafter : after = enrollStep env before ⟨elapsed, .submitNext i polling id⟩)
    (hfresh : DrawsFresh before ⟨elapsed, .submitNext i polling id⟩)
    (hmarked : before.submits[i]? = some ⟨req, .marked⟩)
    (haccepted : after.Submitted i req polling) :
    ∃ row ∈ after.store.requests.rows, row.pollingToken = env.hashToken polling.text ∧
      (after.Pollable env polling row (after.clock + 24 * 3600) ↔
        ∀ old ∈ before.store.requests.rows, old.machineId = req.machineId →
          after.clock + 24 * 3600 ≤ old.expiresAt) := by
  have hbound : before.Bound env := hbefore ▸ bound_run clock store steps
  have hunique : MachineUnique before.store.requests :=
    hbefore ▸ machineUnique_run clock store steps
  have hunseen (csr : String) : ¬ before.Returned env (env.hashToken polling.text) csr :=
    not_returned_of_fresh hsha hfresh csr
  have hmarked' : (before.wait elapsed).submits[i]? = some ⟨req, .marked⟩ := hmarked
  obtain ⟨requests, hok, hact⟩ := upsert_of_submitted hmarked' (hafter ▸ haccepted)
  obtain ⟨row, hawaits, hhash, hexpiry⟩ := awaits_upserted (hbound.wait elapsed) hunique hunseen
    (upserted_of_ok hok).2 (before.submits.set i ⟨req, .returned polling⟩)
  have hlonger : (before.wait elapsed).clock < (before.wait elapsed).clock + 24 * 3600 :=
    Nat.lt_add_of_pos_right (by decide)
  rw [hafter.trans hact]
  exact ⟨row, hawaits.stored, hhash, (pollable_iff hawaits hhash hlonger).trans hexpiry⟩

end Accepted

/-- A first submission for `web`, up to its last statement. -/
def webSubmits : List EnrollStep :=
  [⟨0, .submit ⟨"token", "csr", "web", "10.0.0.1"⟩⟩, ⟨0, .submitNext 0 ⟨1⟩ ⟨2⟩⟩,
    ⟨0, .submitNext 0 ⟨1⟩ ⟨2⟩⟩]

/-- The submission of `web` can be polled for 24 hours. -/
theorem first_submission_pollable :
    ∃ row ∈ (Runs.run (enrollStep plainEnv) (.first 0 oneToken)
        (webSubmits ++ [⟨5, .submitNext 0 ⟨1⟩ ⟨2⟩⟩])).store.requests.rows,
      (Runs.run (enrollStep plainEnv) (.first 0 oneToken)
        (webSubmits ++ [⟨5, .submitNext 0 ⟨1⟩ ⟨2⟩⟩])).Pollable plainEnv ⟨1⟩ row 86405 := by
  have hfresh : DrawsFresh (Runs.run (enrollStep plainEnv) (.first 0 oneToken) webSubmits)
      ⟨5, .submitNext 0 ⟨1⟩ ⟨2⟩⟩ := by
    show ∀ call ∈ _, _
    decide +kernel
  obtain ⟨row, hrow, -, hiff⟩ := accepted_pollable_iff plainEnv Function.injective_id 0 oneToken
    webSubmits 5 0 ⟨"token", "csr", "web", "10.0.0.1"⟩ ⟨1⟩ ⟨2⟩ _ _ rfl rfl hfresh
    (by decide +kernel) (by unfold EnrollState.Submitted; decide +kernel)
  refine ⟨row, hrow, hiff.mpr ?_⟩
  decide +kernel

/-- `web` submits, nobody approves, and 25 hours later it submits again with a new token. -/
def webReturns : List EnrollStep :=
  webSubmits ++ [⟨0, .submitNext 0 ⟨1⟩ ⟨2⟩⟩,
    ⟨90000, .createToken caAdmin "second" ⟨"web", none, none⟩⟩,
    ⟨0, .submit ⟨"second", "csr", "web", "10.0.0.1"⟩⟩, ⟨0, .submitNext 1 ⟨3⟩ ⟨4⟩⟩,
    ⟨0, .submitNext 1 ⟨3⟩ ⟨4⟩⟩, ⟨0, .submitNext 1 ⟨3⟩ ⟨4⟩⟩]

/-- The second submission succeeds, a poll at once does not find it, and nobody sees it. -/
theorem resubmission_not_found :
    ∃ last, last = Runs.run (enrollStep plainEnv) (.first 0 oneToken) webReturns ∧
      last.Submitted 1 ⟨"second", "csr", "web", "10.0.0.1"⟩ ⟨3⟩ ∧
      (pollStart plainEnv (Uuid.text ⟨3⟩) last.approved).1 = .missed ∧
      pollNext plainEnv last.clock ⟨Uuid.text ⟨3⟩, .missed⟩ last.store =
        .answered (.notFound "Enrollment not found or expired") ∧
      listEnrollments last.clock last.store = [] := by
  refine ⟨_, rfl, ?_⟩
  unfold EnrollState.Submitted
  decide +kernel

end FirewallManager
