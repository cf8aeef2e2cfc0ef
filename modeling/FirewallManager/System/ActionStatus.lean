import FirewallManager.Lib.Calls
import FirewallManager.System.ActionDelivery

/-!
# The status of a pending action

A check-in reads the queued actions in one statement and marks them as delivered in another. The
mark goes by the ids that were read, whatever the status of the rows has become, and a result report
writes its status over any other. Handlers run at the same time, so the statements of several can
come between the two.

`statusStep` interleaves the statements, and `checkIn_eq_steps` puts them together again. Read
`forward_iff` first: it says which statement moves a status forward. `status_forward_iff` carries it
over all interleavings.
-/

namespace FirewallManager

/-- How far a check-in has come: its log entries are written, its actions are read, or it has
answered. -/
inductive CheckInCall where
  | logged (host : Uuid)
  | selected (actions : List PendingAction)
  | answered
  deriving DecidableEq, Repr

/-- The database and the check-ins that were started. -/
structure StatusState where
  db : Database
  calls : List CheckInCall

/-- The statements of the handlers. A check-in has all statements before the pending actions in one
action, since they leave the pending actions alone. -/
inductive StatusAction where
  | checkIn (now : Nat) (host : Uuid) (body : CheckInRequest)
  | select (now : Nat) (call : Nat)
  | mark (now : Nat) (call : Nat)
  | checkInResult (now : Nat) (host : Uuid) (body : CheckInResultRequest)
  deriving DecidableEq, Repr

/-- What a statement does. A call that is not at the statement stays where it is. -/
def statusStep (env : ManagerEnv) (state : StatusState) : StatusAction → StatusState
  | .checkIn now host body =>
    if state.db.hosts.has host then
      ⟨checkInLogged env now host body state.db, state.calls ++ [.logged host]⟩
    else state
  | .select now i =>
    match state.calls[i]? with
    | some (.logged host) =>
      { state with calls := state.calls.set i (.selected (state.db.dueActions now host)) }
    | _ => state
  | .mark now i =>
    match state.calls[i]? with
    | some (.selected actions) =>
      ⟨state.db.markDelivered now actions, state.calls.set i .answered⟩
    | _ => state
  | .checkInResult now host body =>
    { state with db := checkInResult now host body state.db }

/-- One after the other, the statements are those of the handler. -/
theorem checkIn_eq_steps (env : ManagerEnv) (now : Nat) (host : Uuid) (body : CheckInRequest)
    (state : StatusState) (hhost : state.db.hosts.has host = true) :
    Runs.run (statusStep env) state [.checkIn now host body, .select now state.calls.length,
        .mark now state.calls.length] =
      ⟨(checkIn env now host body state.db).2, state.calls ++ [.answered]⟩ := by
  have hlogged := (checkInLogged_frame env now host body state.db).2
  have hdue : (checkInLogged env now host body state.db).dueActions now host =
      state.db.dueActions now host := by
    rw [Database.dueActions, hlogged, Database.dueActions]
  rw [checkIn_of_has hhost]
  simp [Runs.run, statusStep, hhost, hdue]

/-- The moves of a status: from queued to delivered, from delivered to executed or failed. -/
def PendingActionStatus.Forward (old new : PendingActionStatus) : Prop :=
  old = new ∨ old = .queued ∧ new = .delivered ∨
    old = .delivered ∧ (new = .executed ∨ new = .failed)

namespace StatusState

/-- The statement moves every status forward or leaves it. -/
def Forward (env : ManagerEnv) (state : StatusState) (action : StatusAction) : Prop :=
  ∀ id row row', state.db.pendingActions.find? id = some row →
    (statusStep env state action).db.pendingActions.find? id = some row' →
      row.status.Forward row'.status

/-- The statement comes in order: an action that is marked as delivered has no result, and a result
comes for an action that is delivered or already has that result. -/
def InOrder (state : StatusState) : StatusAction → Prop
  | .mark _ i => ∀ actions, state.calls[i]? = some (.selected actions) → ∀ action ∈ actions,
      ∀ row, state.db.pendingActions.find? action.id = some row → ¬ row.HasResult
  | .checkInResult _ _ body => ∀ id row, body.actionId = some id →
      state.db.pendingActions.find? id = some row →
        row.status = .delivered ∨ row.status = if body.success then .executed else .failed
  | _ => True

/-- What a statement makes of a row. -/
def changed (state : StatusState) (action : StatusAction) (row : PendingAction) : PendingAction :=
  match action with
  | .mark now i =>
    match state.calls[i]? with
    | some (.selected actions) =>
      if row.id ∈ actions.map PendingAction.id then
        { row with status := .delivered, deliveredAt := some now }
      else row
    | _ => row
  | .checkInResult now _ body =>
    if body.actionId = some row.id then
      { row with status := if body.success then .executed else .failed, executedAt := some now }
    else row
  | _ => row

variable {env : ManagerEnv} {state : StatusState}

theorem changed_mark {i : Nat} {actions : List PendingAction}
    (hcall : state.calls[i]? = some (.selected actions)) (now : Nat) (row : PendingAction) :
    state.changed (.mark now i) row =
      if row.id ∈ actions.map PendingAction.id then
        { row with status := .delivered, deliveredAt := some now }
      else row := by
  simp only [changed, hcall]

theorem find?_statusStep (action : StatusAction) (id : Uuid) :
    (statusStep env state action).db.pendingActions.find? id =
      (state.db.pendingActions.find? id).map (state.changed action) := by
  have hsame : state.db.pendingActions.find? id =
      (state.db.pendingActions.find? id).map fun row => row := (Option.map_id' ..).symm
  cases action with
  | checkIn now host body =>
    dsimp only [statusStep]
    split
    next =>
      show (checkInLogged env now host body state.db).pendingActions.find? id = _
      rw [(checkInLogged_frame env now host body state.db).2]
      exact hsame
    next => exact hsame
  | select now i =>
    dsimp only [statusStep]
    split
    next => exact hsame
    next => exact hsame
  | mark now i =>
    dsimp only [statusStep]
    split
    next actions hcall =>
      refine (Database.find?_markDelivered now id).trans (Option.map_congr ?_)
      intro row _
      exact (changed_mark hcall now row).symm
    next hcall =>
      refine hsame.trans (Option.map_congr ?_)
      intro row _
      dsimp only [changed]
      split
      next actions hselected => exact absurd hselected (hcall actions)
      next => rfl
  | checkInResult now host body => exact find?_checkInResult body id

theorem status_changed (state : StatusState) (action : StatusAction) (row : PendingAction) :
    (state.changed action row).status = row.status ∨
      (state.changed action row).status = .delivered ∨ (state.changed action row).HasResult := by
  cases action with
  | checkIn now host body => exact Or.inl rfl
  | select now i => exact Or.inl rfl
  | mark now i =>
    dsimp only [changed]
    split
    next =>
      split
      next => exact Or.inr (Or.inl rfl)
      next => exact Or.inl rfl
    next => exact Or.inl rfl
  | checkInResult now host body =>
    unfold changed PendingAction.HasResult
    dsimp only
    split
    next =>
      cases body.success with
      | true => exact Or.inr (Or.inr (Or.inl rfl))
      | false => exact Or.inr (Or.inr (Or.inr rfl))
    next => exact Or.inl rfl

theorem selected_statusStep {action : StatusAction} {i : Nat} {actions : List PendingAction}
    (h : (statusStep env state action).calls[i]? = some (.selected actions)) :
    state.calls[i]? = some (.selected actions) ∨
      ∃ now host, actions = state.db.dueActions now host := by
  cases action with
  | checkIn now host body =>
    dsimp only [statusStep] at h
    split at h
    next =>
      rcases Calls.getElem?_start h with hold | ⟨-, hnew⟩
      · exact Or.inl hold
      · cases hnew
    next => exact Or.inl h
  | select now j =>
    dsimp only [statusStep] at h
    split at h
    next host hcall =>
      rcases Calls.getElem?_put h with ⟨-, hold⟩ | ⟨-, hnew⟩
      · exact Or.inl hold
      · cases hnew
        exact Or.inr ⟨now, host, rfl⟩
    next => exact Or.inl h
  | mark now j =>
    dsimp only [statusStep] at h
    split at h
    next =>
      rcases Calls.getElem?_put h with ⟨-, hold⟩ | ⟨-, hnew⟩
      · exact Or.inl hold
      · cases hnew
    next => exact Or.inl h
  | checkInResult now host body => exact Or.inl h

/-- An action that was read is not being pushed and not marked as expired: nothing writes these two
statuses. -/
def SelectedKnown (state : StatusState) : Prop :=
  ∀ (i : Nat) (actions : List PendingAction), state.calls[i]? = some (.selected actions) →
    ∀ action ∈ actions, ∀ row, state.db.pendingActions.find? action.id = some row →
      row.status ≠ .pushing ∧ row.status ≠ .expired

theorem status_of_mem_dueActions {db : Database} {now : Nat} {host : Uuid}
    {action row : PendingAction} (haction : action ∈ db.dueActions now host)
    (hrow : db.pendingActions.find? action.id = some row) : row.status = .queued := by
  obtain ⟨hmem, -, hqueued, -⟩ := Database.mem_dueActions_iff.mp haction
  obtain ⟨hin, hid⟩ := Table.mem_of_find? hrow
  rw [Table.eq_of_key_eq hin hmem hid]
  exact hqueued

theorem SelectedKnown.statusStep (h : state.SelectedKnown) (action : StatusAction) :
    (statusStep env state action).SelectedKnown := by
  intro i actions hcall read hread row' hrow'
  rw [find?_statusStep] at hrow'
  obtain ⟨row, hrow, rfl⟩ := Option.map_eq_some_iff.mp hrow'
  have hknown : row.status ≠ .pushing ∧ row.status ≠ .expired := by
    rcases selected_statusStep hcall with hbefore | ⟨now, host, rfl⟩
    · exact h i actions hbefore read hread row hrow
    · rw [status_of_mem_dueActions hread hrow]
      decide
  rcases status_changed state action row with hsame | hdelivered | hresult | hresult
  · rw [hsame]
    exact hknown
  · rw [hdelivered]
    decide
  · rw [hresult]
    decide
  · rw [hresult]
    decide

/-- A statement moves every status forward if and only if it comes in order. -/
theorem forward_iff (h : state.SelectedKnown) (action : StatusAction) :
    state.Forward env action ↔ state.InOrder action := by
  have hrows : state.Forward env action ↔ ∀ id row, state.db.pendingActions.find? id = some row →
      row.status.Forward (state.changed action row).status := by
    unfold Forward
    simp only [find?_statusStep]
    constructor
    · intro hforward id row hrow
      exact hforward id row _ hrow (by rw [hrow, Option.map_some])
    · intro hforward id row row' hrow hrow'
      rw [hrow, Option.map_some] at hrow'
      cases hrow'
      exact hforward id row hrow
  rw [hrows]
  cases action with
  | checkIn now host body => exact iff_of_true (fun _ _ _ => Or.inl rfl) trivial
  | select now i => exact iff_of_true (fun _ _ _ => Or.inl rfl) trivial
  | mark now i =>
    constructor
    · intro hforward actions hcall action haction row hrow hresult
      have hmoved := hforward action.id row hrow
      have hid : row.id = action.id := (Table.mem_of_find? hrow).2
      have hdelivered : (state.changed (.mark now i) row).status = .delivered := by
        rw [changed_mark hcall, if_pos (hid ▸ List.mem_map_of_mem haction)]
      rw [hdelivered] at hmoved
      rcases hresult with hresult | hresult <;> rw [hresult] at hmoved <;>
        simp [PendingActionStatus.Forward] at hmoved
    · intro horder id row hrow
      unfold changed
      dsimp only
      split
      next actions hcall =>
        split
        next hmem =>
          obtain ⟨action, haction, hid⟩ := List.mem_map.mp hmem
          have hsame : row.id = id := (Table.mem_of_find? hrow).2
          have hfound : state.db.pendingActions.find? action.id = some row := by
            rw [hid, hsame, hrow]
          have hopen := horder actions hcall action haction row hfound
          obtain ⟨hpushing, hexpired⟩ := h i actions hcall action haction row hfound
          show row.status.Forward .delivered
          cases hstatus : row.status with
          | queued => exact Or.inr (Or.inl ⟨rfl, rfl⟩)
          | delivered => exact Or.inl rfl
          | pushing => exact absurd hstatus hpushing
          | expired => exact absurd hstatus hexpired
          | executed => exact absurd (Or.inl hstatus) hopen
          | failed => exact absurd (Or.inr hstatus) hopen
        next => exact Or.inl rfl
      next => exact Or.inl rfl
  | checkInResult now host body =>
    have hwritten (row : PendingAction) : row.status.Forward
        (if body.success then .executed else .failed) ↔
          row.status = .delivered ∨ row.status = if body.success then .executed else .failed := by
      cases body.success <;> cases row.status <;> simp [PendingActionStatus.Forward]
    constructor
    · intro hforward id row hreported hrow
      have hmoved := hforward id row hrow
      have hid : row.id = id := (Table.mem_of_find? hrow).2
      unfold changed at hmoved
      dsimp only at hmoved
      rw [if_pos (hid ▸ hreported)] at hmoved
      exact (hwritten row).mp hmoved
    · intro horder id row hrow
      unfold changed
      dsimp only
      split
      next hreported =>
        have hid : row.id = id := (Table.mem_of_find? hrow).2
        exact (hwritten row).mpr (horder id row (hid ▸ hreported) hrow)
      next => exact Or.inl rfl

end StatusState

/-- **When a status only moves forward.** In any interleaving of the statements of check-ins and
result reports of any hosts, every step moves every status along queued, delivered, and executed or
failed, if and only if every statement comes in order. -/
theorem status_forward_iff (env : ManagerEnv) (db : Database) (actions : List StatusAction) :
    Runs.Meets (statusStep env) (StatusState.Forward env) ⟨db, []⟩ actions ↔
      Runs.Meets (statusStep env) StatusState.InOrder ⟨db, []⟩ actions := by
  refine Runs.meets_iff_of_invariant (fun state action h => StatusState.forward_iff h action)
    (fun state action h => StatusState.SelectedKnown.statusStep h action) ?_
  intro i calls hcall
  cases hcall

/-- Two check-ins of a host read the same queued rollback. The first marks it and the agent reports
that it was executed. -/
def slowRetry : List StatusAction :=
  [.checkIn 10 ⟨2⟩ plainCheckIn, .checkIn 11 ⟨2⟩ plainCheckIn, .select 12 0, .select 12 1,
    .mark 13 0, .checkInResult 14 ⟨2⟩ ⟨⟨2⟩, some ⟨7⟩, true, none, ""⟩]

/-- The mark of the second check-in takes the executed rollback back to delivered. -/
theorem executed_back_to_delivered :
    ¬ Runs.Meets (statusStep (.scan id)) (StatusState.Forward (.scan id)) ⟨twoHosts, []⟩
        (slowRetry ++ [.mark 15 1]) ∧
      ((Runs.run (statusStep (.scan id)) ⟨twoHosts, []⟩ slowRetry).db.pendingActions.find?
          ⟨7⟩).map PendingAction.status = some .executed ∧
      ((Runs.run (statusStep (.scan id)) ⟨twoHosts, []⟩
          (slowRetry ++ [.mark 15 1])).db.pendingActions.find? ⟨7⟩).map PendingAction.status =
        some .delivered := by
  have hexecuted : ((Runs.run (statusStep (.scan id)) ⟨twoHosts, []⟩
      slowRetry).db.pendingActions.find? ⟨7⟩).map PendingAction.status = some .executed := by
    decide +kernel
  have hdelivered : ((Runs.run (statusStep (.scan id)) ⟨twoHosts, []⟩
      (slowRetry ++ [.mark 15 1])).db.pendingActions.find? ⟨7⟩).map PendingAction.status =
        some .delivered := by
    decide +kernel
  refine ⟨?_, hexecuted, hdelivered⟩
  intro hmeets
  obtain ⟨row, hrow, hstatus⟩ := Option.map_eq_some_iff.mp hexecuted
  obtain ⟨row', hrow', hstatus'⟩ := Option.map_eq_some_iff.mp hdelivered
  rw [Runs.run_concat] at hrow'
  have hmoved := (Runs.meets_concat.mp hmeets).2 ⟨7⟩ row row' hrow hrow'
  rw [hstatus, hstatus'] at hmoved
  simp [PendingActionStatus.Forward] at hmoved

end FirewallManager
