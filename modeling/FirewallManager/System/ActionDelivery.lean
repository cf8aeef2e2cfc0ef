import FirewallManager.Lib.Runs
import FirewallManager.Manager.HostIsolation
import FirewallManager.System.Link

/-!
# Delivery of pending actions

A check-in takes the queued actions of its host into the answer and marks them as delivered, and
only a queued action is ever taken. The mark is set when the answer is built, whether or not the
answer arrives.

`find?_checkIn` and `find?_checkInResult` say what a request does to one action. `Follows` carries
them over the messages of all agents, some of which are lost, and `offered_again_iff` says when a
check-in answers with an action that has no result yet: only if none before it did.
-/

namespace FirewallManager

/-- The manager serves the request, whatever becomes of its answer. -/
def Delivery.reaches : Delivery → Bool
  | .arrives => true
  | .requestLost => false
  | .responseLost => true

/-- A request of an agent and what becomes of it. The time is that of the manager. -/
structure AgentMessage where
  now : Nat
  host : Uuid
  request : AgentRequest
  delivery : Delivery
  deriving DecidableEq, Repr

/-- What a message does to the manager. -/
def receive (env : ManagerEnv) (db : Database) (message : AgentMessage) : Database :=
  (message.delivery.call (fun db =>
    ((serveAgent env message.now message.host message.request db).1.toOption,
      (serveAgent env message.now message.host message.request db).2)) db).2

theorem receive_eq (env : ManagerEnv) (db : Database) (message : AgentMessage) :
    receive env db message =
      if message.delivery.reaches then
        (serveAgent env message.now message.host message.request db).2
      else db := by
  unfold receive
  cases message.delivery <;> rfl

/-- The manager has recorded a result for the action. -/
def PendingAction.HasResult (action : PendingAction) : Prop :=
  action.status = .executed ∨ action.status = .failed

/-- The check-in answers with the action. -/
def Offered (env : ManagerEnv) (now : Nat) (body : CheckInRequest) (action : PendingAction)
    (db : Database) : Prop :=
  ∃ response, (checkIn env now action.hostId body db).1 = .ok response ∧
    action.toDto ∈ response.pendingActions

/-- A check-in of the host reaches the manager before the action expires. -/
def AgentMessage.Fetches (action : PendingAction) (message : AgentMessage) : Prop :=
  message.delivery.reaches = true ∧ message.host = action.hostId ∧
    (∃ body, message.request = .checkIn body) ∧ message.now < action.expiresAt

namespace Database

/-- A check-in of the host takes the action. -/
def Due (now : Nat) (host : Uuid) (action : PendingAction) : Prop :=
  action.hostId = host ∧ action.status = .queued ∧ now < action.expiresAt

instance (now : Nat) (host : Uuid) (action : PendingAction) : Decidable (Due now host action) :=
  inferInstanceAs (Decidable (_ ∧ _))

theorem mem_dueActions_iff {db : Database} {now : Nat} {host : Uuid} {action : PendingAction} :
    action ∈ db.dueActions now host ↔ action ∈ db.pendingActions.rows ∧ Due now host action := by
  simp only [dueActions, List.mem_insertionSort, List.mem_filter, Table.mem_select,
    decide_eq_true_eq, Due, and_assoc]

theorem find?_markDelivered {db : Database} {actions : List PendingAction} (now : Nat) (id : Uuid) :
    (db.markDelivered now actions).pendingActions.find? id =
      (db.pendingActions.find? id).map fun row =>
        if row.id ∈ actions.map PendingAction.id then
          { row with status := .delivered, deliveredAt := some now }
        else row := by
  unfold markDelivered
  by_cases hnil : actions = []
  · subst hnil
    simp
  · rw [if_neg hnil, Table.find?_update]
    simp only [decide_eq_true_eq]

theorem find?_markResult {db : Database} (now : Nat) (reported : Uuid) (success : Bool)
    (id : Uuid) :
    (db.markResult now reported success).pendingActions.find? id =
      (db.pendingActions.find? id).map fun row =>
        if row.id = reported then
          { row with
            status := if success then .executed else .failed, executedAt := some now }
        else row := by
  rw [markResult, Table.find?_update]
  simp only [decide_eq_true_eq]

end Database

open Database

section Requests

variable {env : ManagerEnv} {db : Database} {now : Nat} {host id : Uuid} {action : PendingAction}

theorem find?_checkIn (hhost : db.hosts.has host = true) (body : CheckInRequest) (id : Uuid) :
    (checkIn env now host body db).2.pendingActions.find? id =
      (db.pendingActions.find? id).map fun row =>
        if Due now host row then { row with status := .delivered, deliveredAt := some now }
        else row := by
  have hlogged := (checkInLogged_frame env now host body db).2
  rw [checkIn_of_has hhost]
  rw [find?_markDelivered, hlogged]
  refine Option.map_congr ?_
  intro row hrow
  obtain ⟨hmem, -⟩ := Table.mem_of_find? hrow
  have hids : row.id ∈ (db.dueActions now host).map PendingAction.id ↔ Due now host row := by
    rw [List.mem_map]
    constructor
    · rintro ⟨other, hother, hid⟩
      obtain ⟨hin, hdue⟩ := mem_dueActions_iff.mp hother
      rw [← Table.eq_of_key_eq hin hmem hid]
      exact hdue
    · intro hdue
      exact ⟨row, mem_dueActions_iff.mpr ⟨hmem, hdue⟩, rfl⟩
  simp only [hids]

theorem find?_checkInResult (body : CheckInResultRequest) (id : Uuid) :
    (checkInResult now host body db).pendingActions.find? id =
      (db.pendingActions.find? id).map fun row =>
        if body.actionId = some row.id then
          { row with
            status := if body.success then .executed else .failed, executedAt := some now }
        else row := by
  unfold checkInResult
  cases hreported : body.actionId with
  | none =>
    show db.pendingActions.find? id = _
    simp
  | some reported =>
    show (db.markResult now reported body.success).pendingActions.find? id = _
    rw [find?_markResult]
    simp only [Option.some.injEq, eq_comm]

theorem hosts_checkInResult (body : CheckInResultRequest) :
    (checkInResult now host body db).hosts = db.hosts := by
  unfold checkInResult
  cases body.actionId with
  | none => rfl
  | some reported => rfl

theorem has_checkIn (body : CheckInRequest) (other : Uuid) :
    (checkIn env now host body db).2.hosts.has other = db.hosts.has other := by
  cases hhost : db.hosts.has host with
  | false => rw [checkIn_of_not_has hhost]
  | true =>
    rw [checkIn_of_has hhost]
    show (checkInLogged env now host body db).hosts.has other = _
    have hlogged : (checkInLogged env now host body db).hosts =
        (db.recordCheckIn now host body).hosts := by
      unfold checkInLogged
      split <;> split <;> rfl
    rw [hlogged]
    rw [Database.recordCheckIn]
    rw [Table.has_update]

/-- The check-in of a known host answers with the actions that are due. -/
theorem offered_iff {body : CheckInRequest} (hhost : db.hosts.has action.hostId = true) :
    Offered env now body action db ↔
      ∃ row ∈ db.pendingActions.rows, Due now action.hostId row ∧ row.toDto = action.toDto := by
  have hactions : (checkInAnswer env now action.hostId body db).pendingActions =
      (db.dueActions now action.hostId).map PendingAction.toDto := rfl
  rw [Offered, checkIn_of_has hhost]
  simp only [Except.ok.injEq, exists_eq_left', hactions, List.mem_map, mem_dueActions_iff,
    and_assoc]

end Requests

/-- An action in the queue of the manager: its row, and whether a check-in took it. -/
structure Follows (action : PendingAction) (fetched : Prop) (db : Database) : Prop where
  host : db.hosts.has action.hostId = true
  row : ∃ row, db.pendingActions.find? action.id = some row ∧ row.toDto = action.toDto ∧
    row.hostId = action.hostId ∧ row.expiresAt = action.expiresAt ∧
      (row.HasResult ∨ fetched ∧ row.status = .delivered ∨ ¬ fetched ∧ row.status = .queued)

section Messages

variable {env : ManagerEnv} {db : Database} {action : PendingAction} {fetched : Prop}

theorem Follows.frame {db' : Database} {message : AgentMessage} (h : Follows action fetched db)
    (hhosts : db'.hosts.has action.hostId = db.hosts.has action.hostId)
    (hactions : db'.pendingActions = db.pendingActions) (hmessage : ¬ message.Fetches action) :
    Follows action (fetched ∨ message.Fetches action) db' := by
  have hfetched : (fetched ∨ message.Fetches action) = fetched := by simp [hmessage]
  rw [hfetched]
  refine ⟨hhosts.trans h.host, ?_⟩
  rw [hactions]
  exact h.row

theorem Follows.checkIn {message : AgentMessage} {body : CheckInRequest}
    (h : Follows action fetched db) (hreaches : message.delivery.reaches = true)
    (hrequest : message.request = .checkIn body) :
    Follows action (fetched ∨ message.Fetches action)
      (checkIn env message.now message.host body db).2 := by
  have hfetches : message.Fetches action ↔
      message.host = action.hostId ∧ message.now < action.expiresAt := by
    simp [AgentMessage.Fetches, hreaches, hrequest]
  cases hhost : db.hosts.has message.host with
  | false =>
    -- The host of the action is known, so this check-in is of another host.
    rw [checkIn_of_not_has hhost]
    refine h.frame rfl rfl ?_
    intro hmessage
    rw [(hfetches.mp hmessage).1, h.host] at hhost
    cases hhost
  | true =>
    refine ⟨(has_checkIn body action.hostId).trans h.host, ?_⟩
    obtain ⟨row, hrow, hdto, hrowHost, hexpires, hstatus⟩ := h.row
    rw [find?_checkIn hhost, hrow, Option.map_some]
    by_cases hdue : Due message.now message.host row
    · rw [if_pos hdue]
      obtain ⟨hsame, -, hlive⟩ := hdue
      have hmessage : message.Fetches action :=
        hfetches.mpr ⟨hsame.symm.trans hrowHost, hexpires ▸ hlive⟩
      exact ⟨_, rfl, hdto, hrowHost, hexpires, Or.inr (Or.inl ⟨Or.inr hmessage, rfl⟩)⟩
    · rw [if_neg hdue]
      refine ⟨row, rfl, hdto, hrowHost, hexpires, ?_⟩
      rcases hstatus with hresult | ⟨hfetched, hdelivered⟩ | ⟨hfetched, hqueued⟩
      · exact Or.inl hresult
      · exact Or.inr (Or.inl ⟨Or.inl hfetched, hdelivered⟩)
      · refine Or.inr (Or.inr ⟨?_, hqueued⟩)
        rintro (hbefore | hmessage)
        · exact hfetched hbefore
        · obtain ⟨hsame, hlive⟩ := hfetches.mp hmessage
          exact hdue ⟨hrowHost.trans hsame.symm, hqueued, hexpires.symm ▸ hlive⟩

theorem Follows.checkInResult {message : AgentMessage} {body : CheckInResultRequest}
    (h : Follows action fetched db) (hrequest : message.request = .checkInResult body) :
    Follows action (fetched ∨ message.Fetches action)
      (checkInResult message.now message.host body db) := by
  have hmessage : ¬ message.Fetches action := by simp [AgentMessage.Fetches, hrequest]
  have hfetched : (fetched ∨ message.Fetches action) = fetched := by simp [hmessage]
  obtain ⟨row, hrow, hdto, hrowHost, hexpires, hstatus⟩ := h.row
  rw [hfetched]
  refine ⟨?_, ?_⟩
  · rw [hosts_checkInResult]
    exact h.host
  · rw [find?_checkInResult, hrow, Option.map_some]
    by_cases hreported : body.actionId = some row.id
    · rw [if_pos hreported]
      refine ⟨_, rfl, hdto, hrowHost, hexpires, Or.inl ?_⟩
      cases body.success with
      | true => exact Or.inl rfl
      | false => exact Or.inr rfl
    · rw [if_neg hreported]
      exact ⟨row, rfl, hdto, hrowHost, hexpires, hstatus⟩

/-- What one message does to an action. -/
theorem Follows.receive (h : Follows action fetched db) (message : AgentMessage) :
    Follows action (fetched ∨ message.Fetches action) (receive env db message) := by
  rw [receive_eq]
  by_cases hreaches : message.delivery.reaches = true
  · rw [if_pos hreaches]
    cases hrequest : message.request with
    | checkIn body => exact h.checkIn hreaches hrequest
    | checkInResult body => exact h.checkInResult hrequest
    | policy | events | whoami =>
      refine h.frame rfl rfl ?_
      simp [AgentMessage.Fetches, hrequest]
  · rw [if_neg hreaches]
    exact h.frame rfl rfl fun hmessage => hreaches hmessage.1

/-- What the messages of all agents do to it. -/
theorem Follows.run (h : Follows action False db) (messages : List AgentMessage) :
    Follows action (∃ message ∈ messages, message.Fetches action)
      (Runs.run (FirewallManager.receive env) db messages) := by
  induction messages using List.reverseRecOn with
  | nil => simpa using h
  | append_singleton messages message ih =>
    rw [Runs.run_concat]
    have hnext : Follows action _ (FirewallManager.receive env _ message) := ih.receive message
    simpa only [List.mem_append, List.mem_singleton, or_and_right, exists_or,
      exists_eq_left] using hnext

theorem Follows.offered_iff {now : Nat} {body : CheckInRequest} (h : Follows action fetched db)
    (hlive : now < action.expiresAt)
    (hopen : ∀ row, db.pendingActions.find? action.id = some row → ¬ row.HasResult) :
    Offered env now body action db ↔ ¬ fetched := by
  obtain ⟨row, hrow, hdto, hrowHost, hexpires, hstatus⟩ := h.row
  rw [FirewallManager.offered_iff h.host]
  constructor
  · rintro ⟨other, hmem, ⟨-, hqueued, -⟩, hother⟩ hfetched
    have hid : other.id = action.id := congrArg PendingActionDto.id hother
    have hfound := Table.find?_eq_some_iff.mpr ⟨hmem, hid⟩
    obtain rfl := Option.some.inj (hrow.symm.trans hfound)
    rcases hstatus with hresult | ⟨-, hdelivered⟩ | ⟨hnot, -⟩
    · exact hopen _ hrow hresult
    · rw [hqueued] at hdelivered
      cases hdelivered
    · exact hnot hfetched
  · intro hnot
    obtain ⟨hmem, -⟩ := Table.mem_of_find? hrow
    refine ⟨row, hmem, ⟨hrowHost, ?_, hexpires.symm ▸ hlive⟩, hdto⟩
    rcases hstatus with hresult | ⟨hfetched, -⟩ | ⟨-, hqueued⟩
    · exact absurd hresult (hopen row hrow)
    · exact absurd hfetched hnot
    · exact hqueued

end Messages

/-- **Delivered at most once.** Start with an action in the queue, and let the messages of agents
come in any order, with any of them lost. While the action has no result and has not expired, the
next check-in of its host answers with it if and only if no earlier check-in of the host reached the
manager before the action expired, whether or not the answer to that one was lost. -/
theorem offered_again_iff (env : ManagerEnv) (db : Database) (messages : List AgentMessage)
    (action : PendingAction) (now : Nat) (body : CheckInRequest)
    (hhost : db.hosts.has action.hostId = true)
    (haction : db.pendingActions.find? action.id = some action)
    (hqueued : action.status = .queued) (hlive : now < action.expiresAt)
    (hopen : ∀ row, (Runs.run (receive env) db messages).pendingActions.find? action.id = some row →
      ¬ row.HasResult) :
    Offered env now body action (Runs.run (receive env) db messages) ↔
      ∀ message ∈ messages, ¬ message.Fetches action := by
  have hstart : Follows action False db :=
    ⟨hhost, action, haction, rfl, rfl, rfl, Or.inr (Or.inr ⟨not_false, hqueued⟩)⟩
  rw [(hstart.run messages).offered_iff hlive hopen]
  simp only [not_exists, not_and]

/-- The rollback that is queued for the second host. -/
def queuedRollback : PendingAction :=
  ⟨⟨7⟩, ⟨2⟩, .rollback, "", "", 0, .queued, 0, none, none, 3600⟩

/-- A check-in of a host with nothing to say. -/
def plainCheckIn : CheckInRequest :=
  ⟨⟨2⟩, "empty", "1.0.0", "ufw", "linux", 0, 0, false, none⟩

/-- After a check-in whose request was lost, the next one answers with the rollback. -/
theorem offered_again_after_lost_request :
    Offered (.scan id) 20 plainCheckIn queuedRollback
      (Runs.run (receive (.scan id)) twoHosts
        [⟨10, ⟨2⟩, .checkIn plainCheckIn, .requestLost⟩]) := by
  refine (offered_again_iff (.scan id) twoHosts _ queuedRollback 20 plainCheckIn (by decide)
    (by decide) rfl (by decide) ?_).mpr ?_
  · intro row hrow
    obtain rfl : row = queuedRollback := (Option.some.inj hrow).symm
    simp [PendingAction.HasResult, queuedRollback]
  · simp [AgentMessage.Fetches, Delivery.reaches]

/-- After a check-in whose answer was lost, the rollback has neither expired nor a result, and the
next check-in answers without it. -/
theorem rollback_lost_with_response :
    ∃ row, (Runs.run (receive (.scan id)) twoHosts
          [⟨10, ⟨2⟩, .checkIn plainCheckIn, .responseLost⟩]).pendingActions.find? ⟨7⟩ = some row ∧
      20 < row.expiresAt ∧ ¬ row.HasResult ∧
        ¬ Offered (.scan id) 20 plainCheckIn queuedRollback
          (Runs.run (receive (.scan id)) twoHosts
            [⟨10, ⟨2⟩, .checkIn plainCheckIn, .responseLost⟩]) := by
  have hrows : (Runs.run (receive (.scan id)) twoHosts
      [⟨10, ⟨2⟩, .checkIn plainCheckIn, .responseLost⟩]).pendingActions.rows =
        [{ queuedRollback with status := .delivered, deliveredAt := some 10 }] := by decide +kernel
  refine ⟨{ queuedRollback with status := .delivered, deliveredAt := some 10 }, ?_, by decide, ?_,
    ?_⟩
  · refine Table.find?_eq_some_iff.mpr ⟨?_, rfl⟩
    rw [hrows]
    exact List.mem_singleton_self _
  · simp [PendingAction.HasResult]
  · rw [offered_iff (by decide +kernel), hrows]
    simp [Due]

end FirewallManager
