import FirewallManager.Agent.PullLoop
import FirewallManager.Manager.AgentApi

/-!
# The agent on its manager

`managerLink` connects the pull cycle to the model of the manager over a network that may lose
the request or the answer of every call.

`runPullCycle_linked` says what a cycle does whose check-in arrives, in terms of the answer that
the manager's state determines (`cycleAnswer`) and of the apply it leads to (`cycleApply`).

An agent only ever changes the manager's records about its host. `SamePolicy` says that two
states assign and serve the same policies, and `Undue` that no action of the host is waiting. A
check-in brings the second about, and result reports keep both.
-/

namespace FirewallManager

/-- What becomes of a call to the manager. -/
inductive Delivery where
  | arrives
  | requestLost
  | responseLost
  deriving DecidableEq, Repr

/-- The fate of the calls of one cycle. -/
structure Network where
  checkIn : Delivery
  report : CheckInResultRequest → Delivery

/-- A call whose request and answer may be lost. -/
def Delivery.call {α : Type} (delivery : Delivery) (handler : Database → Option α × Database)
    (db : Database) : Option α × Database :=
  match delivery with
  | .arrives => handler db
  | .requestLost => (none, db)
  | .responseLost => (none, (handler db).2)

/-- The manager as the agent on `host` sees it. An error status is a failed call. -/
def managerLink (env : ManagerEnv) (network : Network) (now : Nat) (host : Uuid) :
    ManagerLink Database where
  checkIn := fun req => network.checkIn.call fun db =>
    ((checkIn env now host req db).1.toOption, (checkIn env now host req db).2)
  reportResult := fun req db =>
    ((network.report req).call (fun db => (some (), checkInResult now host req db)) db).2

theorem managerLink_checkIn {env : ManagerEnv} {network : Network} {now : Nat} {host : Uuid}
    {db : Database} (req : CheckInRequest) (harrives : network.checkIn = .arrives)
    (hknown : db.hosts.has host = true) :
    (managerLink env network now host).checkIn req db =
      (some (checkInAnswer env now host req db),
        (checkInLogged env now host req db).markDelivered now (db.dueActions now host)) := by
  simp only [managerLink, Delivery.call, harrives, checkIn_of_has hknown, Except.toOption]

/-- What a received report keeps, a sent one keeps. -/
theorem managerLink_report {env : ManagerEnv} {network : Network} {now : Nat} {host : Uuid}
    {P : Database → Prop} (hreport : ∀ req db, P db → P (checkInResult now host req db))
    (req : CheckInResultRequest) (db : Database) (hdb : P db) :
    P ((managerLink env network now host).reportResult req db) := by
  show P ((network.report req).call _ db).2
  cases network.report req with
  | arrives => exact hreport req db hdb
  | requestLost => exact hdb
  | responseLost => exact hreport req db hdb

section Cycle

variable {σ : Type} (env : AgentEnv σ) (menv : ManagerEnv) (now : Nat) (input : CycleInput)
  (linked : Linked σ Database) (liveHash : String)

/-- The ruleset that a host should run: its assigned rules, as the agent decodes them. -/
def Database.targetRules (db : Database) (host : Uuid) : List FirewallRule :=
  ((db.assignedRows (db.assignedSet menv host)).map ruleToDto).map dtoToRule

/-- The default policies that a host should run. -/
def Database.targetDefaults (db : Database) (host : Uuid) : LastDefaults :=
  ⟨(db.assignedDefaults (db.assignedSet menv host)).1,
    (db.assignedDefaults (db.assignedSet menv host)).2⟩

/-- The hash that the manager expects from a host. -/
def Database.targetHash (db : Database) (host : Uuid) : String :=
  db.assignedHash menv (db.assignedSet menv host)

/-- The answer to the check-in of a cycle. -/
def cycleAnswer : CheckInResponse :=
  checkInAnswer menv now env.hostId
    (checkInRequest env input linked.agent (localDrift linked.agent.files liveHash)) linked.manager

/-- The agent when the apply of a cycle begins. -/
def cycleAgent : Agent σ :=
  (linked.agent.probed env).settled input.now (cycleAnswer env menv now input linked liveHash)

/-- The apply of a cycle. -/
def cycleApply : Option (Except String String) × Agent σ :=
  applyStep env (localDrift linked.agent.files liveHash)
    (cycleAnswer env menv now input linked liveHash) (cycleAgent env menv now input linked liveHash)

/-- The manager after the check-in of a cycle. -/
def cycleManager : Database :=
  (checkInLogged menv now env.hostId
    (checkInRequest env input linked.agent (localDrift linked.agent.files liveHash))
    linked.manager).markDelivered now (linked.manager.dueActions now env.hostId)

theorem cycleAgent_frame :
    (cycleAgent env menv now input linked liveHash).world = probedWorld env linked.agent.world ∧
      (cycleAgent env menv now input linked liveHash).files = linked.agent.files ∧
      (cycleAgent env menv now input linked liveHash).config.managerAgentUrl =
        linked.agent.config.managerAgentUrl ∧
      (cycleAgent env menv now input linked liveHash).config.protectedCidrs =
        linked.agent.config.protectedCidrs := by
  obtain ⟨hstate, hurl, hcidrs⟩ := (linked.agent.probed env).settled_frame input.now
    (cycleAnswer env menv now input linked liveHash)
  have hworld := congrArg AgentState.world hstate
  have hfiles := congrArg AgentState.files hstate
  exact ⟨hworld, hfiles, hurl, hcidrs⟩

variable {env linked liveHash}

/-- If the answer asks for nothing, the remembered ruleset and defaults stay. -/
theorem cycleApply_cached
    (hquiet : (cycleAnswer env menv now input linked liveHash).rules = [] ∨
      (cycleAnswer env menv now input linked liveHash).rulesChanged = false ∧
        cachedDefaults linked.agent.files =
          (cycleAnswer env menv now input linked liveHash).defaults) :
    (cycleApply env menv now input linked liveHash).2.files.lastGood =
        linked.agent.files.lastGood ∧
      cachedDefaults (cycleApply env menv now input linked liveHash).2.files =
        cachedDefaults linked.agent.files := by
  obtain ⟨-, hsame, -, -⟩ := cycleAgent_frame env menv now input linked liveHash
  rw [← hsame] at hquiet ⊢
  exact applyStep_cached hquiet

theorem runPullCycle_linked {network : Network} (harrives : network.checkIn = .arrives)
    (hknown : linked.manager.hosts.has env.hostId = true)
    (hprobe : (probe env linked.agent.world).1 = .ok liveHash) :
    runPullCycle env (managerLink menv network now env.hostId) input linked =
      (.ok (localDrift linked.agent.files liveHash),
        afterCheckIn env (managerLink menv network now env.hostId) input.now liveHash
          (localDrift linked.agent.files liveHash) (cycleAnswer env menv now input linked liveHash)
          ⟨linked.agent.probed env, cycleManager env menv now input linked liveHash⟩) :=
  runPullCycle_of_response hprobe (managerLink_checkIn _ harrives hknown)

/-- Its state files are those of its apply, up to the replay cache. -/
theorem runPullCycle_files {network : Network} (harrives : network.checkIn = .arrives)
    (hknown : linked.manager.hosts.has env.hostId = true)
    (hprobe : (probe env linked.agent.world).1 = .ok liveHash) :
    ∃ executed,
      (runPullCycle env (managerLink menv network now env.hostId) input linked).2.agent.files =
        { (cycleApply env menv now input linked liveHash).2.files with
          executedActions := executed } := by
  rw [runPullCycle_linked menv now input harrives hknown hprobe]
  exact handleActions_files env _ liveHash _ _

end Cycle

/-- Both states know the same hosts and assign the same policies to them. -/
structure SamePolicy (after before : Database) : Prop where
  hosts : ∀ host, after.hosts.has host = before.hosts.has host
  assignments : after.assignments = before.assignments
  policySets : after.policySets = before.policySets
  setGroups : after.setGroups = before.setGroups
  rules : after.rules = before.rules

theorem SamePolicy.trans {last middle first : Database} (h : SamePolicy last middle)
    (h' : SamePolicy middle first) : SamePolicy last first where
  hosts := fun host => (h.hosts host).trans (h'.hosts host)
  assignments := h.assignments.trans h'.assignments
  policySets := h.policySets.trans h'.policySets
  setGroups := h.setGroups.trans h'.setGroups
  rules := h.rules.trans h'.rules

section Policy

variable {after before : Database} (h : SamePolicy after before) (env : ManagerEnv)
include h

theorem SamePolicy.assignedSet (host : Uuid) :
    after.assignedSet env host = before.assignedSet env host := by
  rw [Database.assignedSet, h.assignments, Database.assignedSet]

theorem SamePolicy.fetchRules (set : Uuid) :
    after.fetchRulesForPolicySet set = before.fetchRulesForPolicySet set := by
  simp only [Database.fetchRulesForPolicySet, Database.compiledRules, h.setGroups, h.rules]

theorem SamePolicy.assignedHash (set : Option Uuid) :
    after.assignedHash env set = before.assignedHash env set := by
  cases set with
  | none => rfl
  | some set => exact congrArg (expectedHash env.sha256) (h.fetchRules set)

theorem SamePolicy.assignedDefaults (set : Option Uuid) :
    after.assignedDefaults set = before.assignedDefaults set := by
  cases set with
  | none => rfl
  | some set => simp only [Database.assignedDefaults, h.policySets]

theorem SamePolicy.target (host : Uuid) :
    after.targetHash env host = before.targetHash env host ∧
      after.targetDefaults env host = before.targetDefaults env host := by
  unfold Database.targetHash Database.targetDefaults
  rw [h.assignedSet, h.assignedHash, h.assignedDefaults]
  exact ⟨rfl, rfl⟩

end Policy

/-- Every queued action of the host has expired. -/
def Undue (host : Uuid) (now : Nat) (db : Database) : Prop :=
  ∀ row ∈ db.pendingActions.rows, row.hostId = host → row.status = .queued → row.expiresAt ≤ now

theorem Undue.dueActions {host : Uuid} {now later : Nat} {db : Database} (h : Undue host now db)
    (hlater : now ≤ later) : db.dueActions later host = [] := by
  have hnone : ((db.pendingActions.select fun row => decide (row.hostId = host)).filter fun row =>
      decide (row.status = .queued ∧ later < row.expiresAt)) = [] := by
    rw [List.filter_eq_nil_iff]
    intro row hrow hdue
    obtain ⟨hmem, hhost⟩ := Table.mem_select.mp hrow
    obtain ⟨hqueued, hexpires⟩ := of_decide_eq_true hdue
    have := h row hmem (of_decide_eq_true hhost) hqueued
    omega
  rw [Database.dueActions, hnone]
  rfl

theorem samePolicy_checkIn (env : ManagerEnv) (now : Nat) (host : Uuid) (req : CheckInRequest)
    (db : Database) (actions : List PendingAction) :
    SamePolicy ((checkInLogged env now host req db).markDelivered now actions) db := by
  have hrecorded : SamePolicy (db.recordCheckIn now host req) db := by
    refine ⟨Table.has_update ?_, rfl, rfl, rfl, rfl⟩
    exact fun _ => rfl
  have hlogged : SamePolicy (checkInLogged env now host req db)
      (db.recordCheckIn now host req) := by
    unfold checkInLogged
    split <;> split <;> exact ⟨fun _ => rfl, rfl, rfl, rfl, rfl⟩
  have hmarked : SamePolicy ((checkInLogged env now host req db).markDelivered now actions)
      (checkInLogged env now host req db) :=
    ⟨fun _ => rfl, rfl, rfl, rfl, rfl⟩
  exact (hmarked.trans hlogged).trans hrecorded

theorem undue_checkIn (env : ManagerEnv) (now : Nat) (host : Uuid) (req : CheckInRequest)
    (db : Database) :
    Undue host now
      ((checkInLogged env now host req db).markDelivered now (db.dueActions now host)) := by
  intro row hrow hhost hqueued
  by_contra hlate
  -- A queued row that is not late was due, and every row that was due has been marked.
  have hdue (old : PendingAction) (hold : old ∈ db.pendingActions.rows)
      (holdHost : old.hostId = host) (holdQueued : old.status = .queued)
      (holdLate : ¬ old.expiresAt ≤ now) : old ∈ db.dueActions now host := by
    rw [Database.dueActions, List.mem_insertionSort]
    simp only [List.mem_filter, Table.mem_select, decide_eq_true_eq]
    exact ⟨⟨hold, holdHost⟩, holdQueued, by omega⟩
  rw [Database.markDelivered, (checkInLogged_frame env now host req db).2] at hrow
  split at hrow
  next hnone =>
    have hmem := hdue row hrow hhost hqueued hlate
    rw [hnone] at hmem
    cases hmem
  next =>
    obtain ⟨old, hold, heq⟩ := List.mem_map.mp hrow
    split at heq
    next =>
      rw [← heq] at hqueued
      cases hqueued
    next hother =>
      subst heq
      exact hother (decide_eq_true (List.mem_map_of_mem (hdue old hold hhost hqueued hlate)))

theorem samePolicy_checkInResult (now : Nat) (host : Uuid) (req : CheckInResultRequest)
    (db : Database) : SamePolicy (checkInResult now host req db) db := by
  unfold checkInResult
  split <;> exact ⟨fun _ => rfl, rfl, rfl, rfl, rfl⟩

theorem Undue.checkInResult {host : Uuid} {now : Nat} {db : Database} (h : Undue host now db)
    (reportedAt : Nat) (reporter : Uuid) (req : CheckInResultRequest) :
    Undue host now (checkInResult reportedAt reporter req db) := by
  unfold FirewallManager.checkInResult
  split
  next id _ =>
    intro row hrow hhost hqueued
    obtain ⟨old, hold, heq⟩ := List.mem_map.mp hrow
    split at heq
    next =>
      subst heq
      cases hsuccess : req.success <;> simp [hsuccess] at hqueued
    next =>
      subst heq
      exact h old hold hhost hqueued
  next => exact h

theorem runPullCycle_database {σ : Type} {env : AgentEnv σ} (menv : ManagerEnv) {network : Network}
    (now : Nat) (input : CycleInput) {linked : Linked σ Database} {liveHash : String}
    (harrives : network.checkIn = .arrives)
    (hknown : linked.manager.hosts.has env.hostId = true)
    (hprobe : (probe env linked.agent.world).1 = .ok liveHash) :
    SamePolicy (runPullCycle env (managerLink menv network now env.hostId) input linked).2.manager
        linked.manager ∧
      Undue env.hostId now
        (runPullCycle env (managerLink menv network now env.hostId) input linked).2.manager := by
  have hreport (req : CheckInResultRequest) (db : Database)
      (hdb : SamePolicy db linked.manager ∧ Undue env.hostId now db) :
      SamePolicy (checkInResult now env.hostId req db) linked.manager ∧
        Undue env.hostId now (checkInResult now env.hostId req db) :=
    ⟨(samePolicy_checkInResult now env.hostId req db).trans hdb.1, hdb.2.checkInResult now _ req⟩
  rw [runPullCycle_linked menv now input harrives hknown hprobe]
  refine afterCheckIn_manager (P := fun db => SamePolicy db linked.manager ∧
    Undue env.hostId now db) (managerLink_report hreport) _ _ _ _ ?_
  exact ⟨samePolicy_checkIn menv now env.hostId _ _ _, undue_checkIn menv now env.hostId _ _⟩

end FirewallManager
