import FirewallManager.Manager.AgentApi
import FirewallManager.Manager.Assignments

/-!
# When an assignment takes effect

A host may have several policy sets assigned, and a check-in serves one of them, whichever row the
database returns first. Assigning a set adds a row and removes none (`assigned_has_iff`), so what
the host had before stays in play. `assignment_takes_effect_iff` says that the new set is what the
next check-in serves, for every choice of the database, exactly when every set that was assigned
before compiles to the same rules and has the same defaults.
-/

namespace FirewallManager

/-- The set is assigned to the host. -/
def Database.HasSet (db : Database) (host set : Uuid) : Prop :=
  db.assignments.has (host, set) = true

/-- The set's compiled rules and default policies, as a check-in sends them. -/
def Database.servedPolicy (db : Database) (set : Uuid) :
    List RuleDto × Option String × Option String :=
  ((db.fetchRulesForPolicySet set).map ruleToDto, db.assignedDefaults (some set))

/-- The set's compiled rules and default policies, as a check-in sends them. -/
def CheckInResponse.servedPolicy (response : CheckInResponse) :
    List RuleDto × Option String × Option String :=
  (response.rules, response.defaultInputPolicy, response.defaultOutputPolicy)

/-- Every check-in of the host is answered with the policy of the set. -/
def Database.Serves (db : Database) (host set : Uuid) : Prop :=
  ∀ env now req, ∃ response, (checkIn env now host req db).1 = .ok response ∧
    response.servedPolicy = db.servedPolicy set

/-- The user assigned the set to the host with success, alone or in a deployment. -/
def AssignedBy (user : AuthUser) (host set : Uuid) (db db' : Database) : Prop :=
  Hosts.assignPolicySet user host set db = (.ok (), db') ∨
    ∃ req answer, Deployment.assignPolicySet user req db = (.ok answer, db') ∧
      req.policySetId = set ∧ host ∈ answer.hostIds

/-- A database that returns the row of a given set if there is one. -/
def ManagerEnv.preferring (set : Uuid) : ManagerEnv where
  sha256 := id
  firstRow := fun ids => if set ∈ ids then some set else ids.head?
  firstRow_mem := by
    intro ids id h
    split at h
    next hmem => exact Option.some.inj h ▸ hmem
    next => exact List.mem_of_mem_head? h
  firstRow_isSome := by
    intro ids h
    split
    next => rfl
    next => exact List.isSome_head?.mpr h

namespace Database

variable {db : Database} {host : Uuid}

theorem mem_assignedIds {set : Uuid} :
    set ∈ (db.assignments.select fun row => decide (row.hostId = host)).map
        Assignment.policySetId ↔ db.HasSet host set := by
  rw [HasSet, Table.has_eq_true_iff]
  simp only [List.mem_map, Table.mem_select, decide_eq_true_eq, Prod.mk.injEq]
  constructor
  · rintro ⟨row, ⟨hrow, hhost⟩, hset⟩
    exact ⟨row, hrow, hhost, hset⟩
  · rintro ⟨row, hrow, hhost, hset⟩
    exact ⟨row, ⟨hrow, hhost⟩, hset⟩

theorem hasSet_of_assignedSet {env : ManagerEnv} {set : Uuid}
    (h : db.assignedSet env host = some set) : db.HasSet host set :=
  mem_assignedIds.mp (env.firstRow_mem _ _ h)

theorem exists_assignedSet (env : ManagerEnv) {set : Uuid} (h : db.HasSet host set) :
    ∃ seen, db.assignedSet env host = some seen :=
  Option.isSome_iff_exists.mp
    (env.firstRow_isSome _ (List.ne_nil_of_mem (mem_assignedIds.mpr h)))

theorem assignedSet_preferring {set : Uuid} (h : db.HasSet host set) :
    db.assignedSet (.preferring set) host = some set :=
  if_pos (mem_assignedIds.mpr h)

theorem hasSet_assign {db' : Database} {set assignedBy : Uuid}
    (h : db.assign host set assignedBy = some db') (host' set' : Uuid) :
    db'.HasSet host' set' ↔ db.HasSet host' set' ∨ host' = host ∧ set' = set := by
  unfold assign at h
  split at h
  next =>
    obtain rfl := Option.some.inj h
    rw [HasSet, Table.has_insertNew_iff, Prod.mk.injEq, HasSet]
    exact or_congr_right (and_congr eq_comm eq_comm)
  next => cases h

end Database

variable {user : AuthUser} {db db' : Database}

theorem Deployment.hasSet_assignHosts {set : Uuid} {hosts : List Uuid} {assigned count : Nat}
    (h : assignHosts user set hosts assigned db = (.ok count, db')) (host' set' : Uuid) :
    db'.HasSet host' set' ↔ db.HasSet host' set' ∨ host' ∈ hosts ∧ set' = set := by
  induction hosts generalizing assigned db with
  | nil =>
    obtain ⟨-, rfl⟩ := Prod.mk.inj h
    simp
  | cons host hosts ih =>
    rw [assignHosts] at h
    split at h
    next =>
      split at h
      next => cases h
      next next hassign =>
        rw [ih h]
        have hstep := Database.hasSet_assign hassign host' set'
        show next.HasSet host' set' ∨ _ ↔ _
        rw [hstep, or_assoc, ← or_and_right, List.mem_cons]
    next => cases h

theorem requireWrite_eq_ok {α : Type} {handler : Database → Except AppError α × Database}
    {answer : α} (h : requireWrite user handler db = (.ok answer, db')) :
    handler db = (.ok answer, db') := by
  unfold requireWrite at h
  split at h
  next => exact h
  next => cases h

theorem Hosts.assignPolicySet_eq_ok {host set : Uuid}
    (h : assignPolicySet user host set db = (.ok (), db')) :
    db.assign host set user.userId = some db' := by
  have hhandler := requireWrite_eq_ok h
  split at hhandler
  next => cases hhandler
  next =>
    split at hhandler
    next => cases hhandler
    next next hassign =>
      obtain rfl := (Prod.mk.inj hhandler).2
      exact hassign

theorem Deployment.assignPolicySet_eq_ok {req : Request} {answer : AssignResponse}
    (h : assignPolicySet user req db = (.ok answer, db')) :
    ∃ count, assignHosts user req.policySetId answer.hostIds 0 db = (.ok count, db') := by
  have hhandler := requireWrite_eq_ok h
  dsimp only at hhandler
  split at hhandler
  next => cases hhandler
  next =>
    split at hhandler
    next => cases hhandler
    next =>
      split at hhandler
      next => cases hhandler
      next heq =>
        obtain ⟨hanswer, rfl⟩ := Prod.mk.inj hhandler
        obtain rfl := Except.ok.inj hanswer
        exact ⟨_, heq⟩

/-- A successful assignment adds the pair of host and set, and takes no set from the host. -/
theorem assigned_has_iff {host set : Uuid} (h : AssignedBy user host set db db') (set' : Uuid) :
    db'.HasSet host set' ↔ db.HasSet host set' ∨ set' = set := by
  rcases h with h | ⟨req, answer, h, rfl, hhost⟩
  · rw [Database.hasSet_assign (Hosts.assignPolicySet_eq_ok h)]
    exact or_congr_right (and_iff_right rfl)
  · obtain ⟨count, hloop⟩ := Deployment.assignPolicySet_eq_ok h
    rw [Deployment.hasSet_assignHosts hloop]
    exact or_congr_right (and_iff_right hhost)

theorem Database.serves_iff {host set : Uuid} (hhost : db.hosts.has host = true)
    (hset : db.HasSet host set) :
    db.Serves host set ↔
      ∀ set', db.HasSet host set' → db.servedPolicy set' = db.servedPolicy set := by
  have hanswer (env : ManagerEnv) (now : Nat) (req : CheckInRequest) (seen : Uuid)
      (hseen : db.assignedSet env host = some seen) :
      (checkInAnswer env now host req db).servedPolicy = db.servedPolicy seen := by
    simp only [CheckInResponse.servedPolicy, checkInAnswer, hseen, assignedRows]
    rfl
  constructor
  · intro hserves set' hset'
    -- The database may return the row of this very set.
    obtain ⟨response, hok, hpolicy⟩ := hserves (.preferring set') 0
      ⟨host, "", "", "", "", 0, 0, false, none⟩
    rw [checkIn_of_has hhost] at hok
    obtain rfl := Except.ok.inj hok
    rw [hanswer _ _ _ set' (assignedSet_preferring hset')] at hpolicy
    exact hpolicy
  · intro hall env now req
    obtain ⟨seen, hseen⟩ := exists_assignedSet env hset
    refine ⟨checkInAnswer env now host req db, by rw [checkIn_of_has hhost], ?_⟩
    rw [hanswer env now req seen hseen]
    exact hall seen (hasSet_of_assignedSet hseen)

/-- After a successful assignment, and while the assignments stay as they are, every check-in of
the host serves the assigned set exactly when every set that the host had before serves the same
policy. -/
theorem assignment_takes_effect_iff {user : AuthUser} {host set : Uuid} {db db' later : Database}
    (hassigned : AssignedBy user host set db db') (hlater : later.assignments = db'.assignments)
    (hhost : later.hosts.has host = true) :
    later.Serves host set ↔
      ∀ set', db.HasSet host set' → later.servedPolicy set' = later.servedPolicy set := by
  have hsets (set' : Uuid) : later.HasSet host set' ↔ db.HasSet host set' ∨ set' = set := by
    rw [Database.HasSet, hlater]
    exact assigned_has_iff hassigned set'
  rw [Database.serves_iff hhost ((hsets set).mpr (Or.inr rfl))]
  constructor
  · intro h set' hset'
    exact h set' ((hsets set').mpr (Or.inl hset'))
  · intro h set' hset'
    rcases (hsets set').mp hset' with hbefore | rfl
    · exact h set' hbefore
    · rfl

/-- Two hosts and two policy sets. The first host has the set that lets everything in. -/
def twoSets : Database :=
  { Database.empty with
    hosts := (Table.singleton ⟨⟨1⟩, none, .healthy, none⟩).insertNew ⟨⟨2⟩, none, .healthy, none⟩
    policySets := {
      rows := [⟨⟨4⟩, "open", "", some .allow, none⟩, ⟨⟨5⟩, "locked", "", some .deny, none⟩]
      nodup := by decide }
    assignments := .singleton ⟨⟨1⟩, ⟨4⟩, none⟩ }

/-- An admin. -/
def fleetAdmin : AuthUser :=
  ⟨⟨8⟩, "admin", .admin⟩

/-- The state after the admin assigned the locked set to a host. -/
def afterLocking (host : Uuid) : Database :=
  (Hosts.assignPolicySet fleetAdmin host ⟨5⟩ twoSets).2

/-- The first host is still told to let everything in. -/
theorem locked_set_not_served :
    AssignedBy fleetAdmin ⟨1⟩ ⟨5⟩ twoSets (afterLocking ⟨1⟩) ∧
      ((checkIn (.scan id) 0 ⟨1⟩ ⟨⟨1⟩, "", "", "", "", 0, 0, false, none⟩
          (afterLocking ⟨1⟩)).1.toOption.map CheckInResponse.servedPolicy) =
        some ([], some "allow", none) ∧
      (afterLocking ⟨1⟩).servedPolicy ⟨5⟩ = ([], some "deny", none) := by
  refine ⟨Or.inl rfl, ?_, ?_⟩
  · decide
  · decide

/-- The second host had no set before, so it is served the new one. -/
theorem assignment_takes_effect_at_fresh : (afterLocking ⟨2⟩).Serves ⟨2⟩ ⟨5⟩ := by
  have hassigned : AssignedBy fleetAdmin ⟨2⟩ ⟨5⟩ twoSets (afterLocking ⟨2⟩) := Or.inl rfl
  refine (assignment_takes_effect_iff hassigned rfl (by decide)).mpr ?_
  intro set' hset'
  obtain ⟨row, hrow, hkey⟩ := Table.has_eq_true_iff.mp hset'
  obtain rfl := List.mem_singleton.mp hrow
  cases hkey

end FirewallManager
