import FirewallManager.Lib.Positions
import FirewallManager.Manager.AssignmentEffect
import FirewallManager.Manager.OperatorScope

/-!
# Bulk assignment, host by host

A bulk assignment goes through the selected hosts in the order of their ids. For each it checks
that the user may access the host and then inserts the assignment, without a transaction around
the loop. A request that is refused at some host has assigned the set to the hosts before it.

`assignHosts_table` says what the loop leaves: the inserts of the hosts before the first one that is
refused. `bulk_assignment_iff` says that a failed request leaves the assignments as they were
exactly if none of these hosts was without the set, and that a successful one adds the set to the
selected hosts and counts those that were without it.
-/

namespace FirewallManager

open List

namespace Deployment

/-- The host is selected by the request: it is listed, or a member of a listed group. -/
def Request.Selects (req : Request) (db : Database) (host : Uuid) : Prop :=
  host ∈ req.hostIds ∨ ∃ row ∈ db.hostGroups.rows, row.groupId ∈ req.groupIds ∧ row.hostId = host

/-- The selected hosts, in the order of the loop. -/
abbrev Request.hosts (req : Request) (db : Database) : List Uuid :=
  resolveHostIds db req.hostIds req.groupIds

/-- The loop gets past a host: the user may access it, and the host and the set exist. -/
def admits (db : Database) (user : AuthUser) (set host : Uuid) : Bool :=
  db.canAccessHost user host && (db.hosts.has host && db.policySets.has set)

/-- The loop is entered: the user may write, and may assign the set. -/
def Enters (user : AuthUser) (req : Request) (db : Database) : Prop :=
  user.role.canWrite = true ∧ flaggedGate user req.policySetId db = .ok ()

/-- If a selected host is refused, every selected host before the refused ones has the set already.
-/
def StopsUnchanged (user : AuthUser) (req : Request) (db : Database) : Prop :=
  Enters user req db →
    (∃ refused, req.Selects db refused ∧ admits db user req.policySetId refused = false) →
      ∀ host, req.Selects db host →
        (∀ other, req.Selects db other → other.value ≤ host.value →
          admits db user req.policySetId other = true) →
        db.HasSet host req.policySetId

/-- What a successful bulk assignment does: exactly the selected hosts have the set added, and the
answer counts those that were without it. -/
structure Assigned (req : Request) (db after : Database) (answer : AssignResponse) : Prop where
  added : ∀ host set, after.HasSet host set ↔
    db.HasSet host set ∨ req.Selects db host ∧ set = req.policySetId
  counted : answer.assignedCount =
    {host | req.Selects db host ∧ ¬ db.HasSet host req.policySetId}.ncard

/-! ## The selected hosts -/

theorem mem_resolveHostIds {req : Request} {db : Database} {host : Uuid} :
    host ∈ req.hosts db ↔ req.Selects db host := by
  unfold Request.hosts resolveHostIds Request.Selects
  rw [mem_dedup, mem_insertionSort, mem_append, mem_map]
  refine or_congr_right (exists_congr fun row => ?_)
  rw [Table.mem_select, decide_eq_true_eq, and_assoc]

theorem resolveHostIds_pairwise (db : Database) (hostIds groupIds : List Uuid) :
    (resolveHostIds db hostIds groupIds).Pairwise fun a b => a.value < b.value := by
  have : Std.Total fun a b : Uuid => a.value ≤ b.value := ⟨fun a b => Nat.le_total _ _⟩
  have : IsTrans Uuid fun a b => a.value ≤ b.value := ⟨fun _ _ _ => Nat.le_trans⟩
  unfold resolveHostIds
  have hsorted := (pairwise_insertionSort (fun a b : Uuid => a.value ≤ b.value)
    (hostIds ++ (db.hostGroups.select fun row => decide (row.groupId ∈ groupIds)).map
      HostGroup.hostId)).sublist (dedup_sublist _)
  refine (hsorted.and (nodup_dedup _)).imp ?_
  intro a b hboth
  obtain ⟨a⟩ := a
  obtain ⟨b⟩ := b
  have hne : a ≠ b := fun hsame => hboth.2 (congrArg Uuid.mk hsame)
  exact Nat.lt_of_le_of_ne hboth.1 fun hsame => hne (BitVec.eq_of_toNat_eq hsame)

theorem nodup_resolveHostIds (db : Database) (hostIds groupIds : List Uuid) :
    (resolveHostIds db hostIds groupIds).Nodup :=
  nodup_dedup _

/-! ## The loop -/

section Loop

variable {user : AuthUser} {set : Uuid}

/-- One turn of the loop at a host that it gets past. -/
theorem assignHosts_cons_of_admits {db : Database} {host : Uuid}
    (h : admits db user set host = true) (rest : List Uuid) (assigned : Nat) :
    ∃ next : Database, next.assignments =
        db.assignments.insertNew ⟨host, set, some user.userId⟩ ∧
      admits next user set = admits db user set ∧
      assignHosts user set (host :: rest) assigned db = assignHosts user set rest
        (if db.assignments.has (host, set) then assigned else assigned + 1) next := by
  obtain ⟨haccess, hexists⟩ := Bool.and_eq_true_iff.mp h
  have hassign : db.assign host set user.userId = some { db with
      assignments := db.assignments.insertNew ⟨host, set, some user.userId⟩ } :=
    if_pos (Bool.and_eq_true_iff.mp hexists)
  refine ⟨{ db with
    assignments := db.assignments.insertNew ⟨host, set, some user.userId⟩ }, rfl, rfl, ?_⟩
  rw [assignHosts, if_pos haccess, hassign]
  cases db.assignments.has (host, set) <;> rfl

theorem assignHosts_cons_of_not_admits {db : Database} {host : Uuid}
    (h : admits db user set host = false) (rest : List Uuid) (assigned : Nat) :
    ∃ e, assignHosts user set (host :: rest) assigned db = (.error e, db) := by
  rw [assignHosts]
  split
  next haccess =>
    have hnone : db.assign host set user.userId = none := by
      refine if_neg fun hexists => ?_
      rw [admits, haccess, hexists.1, hexists.2] at h
      cases h
    rw [hnone]
    exact ⟨_, rfl⟩
  next => exact ⟨_, rfl⟩

theorem assignHosts_table (hosts : List Uuid) (assigned : Nat) (db : Database) :
    (assignHosts user set hosts assigned db).2.assignments = db.assignments.insertAll
      ((hosts.takeWhile (admits db user set)).map fun host =>
        ⟨host, set, some user.userId⟩) := by
  induction hosts generalizing assigned db with
  | nil => rfl
  | cons host rest ih =>
    cases hadmits : admits db user set host with
    | true =>
      obtain ⟨next, hnext, hsame, hloop⟩ := assignHosts_cons_of_admits hadmits rest assigned
      rw [hloop, ih, hnext, hsame, takeWhile_cons_of_pos hadmits]
      rfl
    | false =>
      obtain ⟨e, hloop⟩ := assignHosts_cons_of_not_admits hadmits rest assigned
      rw [hloop, takeWhile_cons_of_neg (by simp [hadmits])]
      rfl

/-- The loop ends well exactly if no host is refused. -/
theorem assignHosts_ok_iff (hosts : List Uuid) (assigned : Nat) (db : Database) :
    (∃ count, (assignHosts user set hosts assigned db).1 = .ok count) ↔
      ∀ host ∈ hosts, admits db user set host = true := by
  induction hosts generalizing assigned db with
  | nil => simp [assignHosts]
  | cons host rest ih =>
    rw [forall_mem_cons]
    cases hadmits : admits db user set host with
    | true =>
      obtain ⟨next, -, hsame, hloop⟩ := assignHosts_cons_of_admits hadmits rest assigned
      rw [hloop, ih, hsame]
      simp
    | false =>
      obtain ⟨e, hloop⟩ := assignHosts_cons_of_not_admits hadmits rest assigned
      rw [hloop]
      simp

theorem assignHosts_count {hosts : List Uuid} (hnodup : hosts.Nodup) {assigned count : Nat}
    {db : Database} (h : (assignHosts user set hosts assigned db).1 = .ok count) :
    count = assigned + hosts.countP fun host => !db.assignments.has (host, set) := by
  induction hosts generalizing assigned db with
  | nil => exact (Except.ok.inj h).symm
  | cons host rest ih =>
    obtain ⟨hfresh, hrest⟩ := nodup_cons.mp hnodup
    cases hadmits : admits db user set host with
    | true =>
      obtain ⟨next, hnext, -, hloop⟩ := assignHosts_cons_of_admits hadmits rest assigned
      rw [hloop] at h
      -- The row of this host is not that of a later one.
      have hlater : (rest.countP fun other => !next.assignments.has (other, set)) =
          rest.countP fun other => !db.assignments.has (other, set) := by
        refine countP_congr fun other hother => ?_
        have hne : (host, set) ≠ (other, set) := by
          rintro ⟨⟩
          exact hfresh hother
        rw [hnext, Bool.not_eq_true', Bool.not_eq_true', ← Bool.not_eq_true,
          ← Bool.not_eq_true, Table.has_insertNew_iff, or_iff_left hne]
      rw [ih hrest h, hlater, countP_cons]
      cases db.assignments.has (host, set) with
      | true => simp
      | false =>
        simp
        omega
    | false =>
      obtain ⟨e, hloop⟩ := assignHosts_cons_of_not_admits hadmits rest assigned
      rw [hloop] at h
      cases h

end Loop

/-! ## The endpoint -/

section Endpoint

variable {user : AuthUser} {req : Request} {db : Database}

theorem assignPolicySet_of_not_enters
    (h : ¬ (Enters user req db ∧ req.hosts db ≠ [])) :
    ∃ e, assignPolicySet user req db = (.error e, db) := by
  rw [assignPolicySet, requireWrite]
  split
  next hwrite =>
    cases hgate : flaggedGate user req.policySetId db with
    | error e => exact ⟨e, rfl⟩
    | ok _ =>
      have hnone : req.hosts db = [] := by
        by_contra hsome
        exact h ⟨⟨hwrite, hgate⟩, hsome⟩
      rw [if_pos hnone]
      exact ⟨_, rfl⟩
  next => exact ⟨_, rfl⟩

theorem assignPolicySet_of_enters (h : Enters user req db) (hhosts : req.hosts db ≠ []) :
    (assignPolicySet user req db).1 =
        (assignHosts user req.policySetId (req.hosts db) 0 db).1.map
          (fun assigned => ⟨req.policySetId, assigned, req.hosts db⟩) ∧
      (assignPolicySet user req db).2 =
        (assignHosts user req.policySetId (req.hosts db) 0 db).2 := by
  rw [assignPolicySet, requireWrite_of_canWrite h.1, h.2]
  rw [if_neg hhosts]
  cases hloop : assignHosts user req.policySetId (req.hosts db) 0 db with
  | mk result after =>
    cases result with
    | error e => exact ⟨rfl, rfl⟩
    | ok assigned => exact ⟨rfl, rfl⟩

/-- The loop of a request fails exactly if a selected host is refused. -/
theorem exists_error_iff :
    (∃ e, (assignHosts user req.policySetId (req.hosts db) 0 db).1 = .error e) ↔
      ∃ refused, req.Selects db refused ∧ admits db user req.policySetId refused = false := by
  have hok : (∃ count, (assignHosts user req.policySetId (req.hosts db) 0 db).1 = .ok count) ↔
      ∀ host ∈ req.hosts db, admits db user req.policySetId host = true :=
    assignHosts_ok_iff _ 0 db
  cases hresult : (assignHosts user req.policySetId (req.hosts db) 0 db).1 with
  | ok count =>
    have hall := hok.mp ⟨count, hresult⟩
    constructor
    · rintro ⟨e, ⟨⟩⟩
    · rintro ⟨refused, hselected, hrefused⟩
      rw [hall refused (mem_resolveHostIds.mpr hselected)] at hrefused
      cases hrefused
  | error e =>
    refine iff_of_true ⟨e, rfl⟩ ?_
    by_contra hnone
    have hall : ∀ host ∈ req.hosts db, admits db user req.policySetId host = true := by
      intro host hhost
      by_contra hrefused
      exact hnone ⟨host, mem_resolveHostIds.mp hhost, Bool.not_eq_true _ ▸ hrefused⟩
    obtain ⟨count, hcount⟩ := hok.mpr hall
    rw [hresult] at hcount
    cases hcount

/-- The loop leaves the assignments exactly if all hosts that it gets past have the set. -/
theorem assignments_eq_iff :
    (assignHosts user req.policySetId (req.hosts db) 0 db).2.assignments = db.assignments ↔
      ∀ host, req.Selects db host →
        (∀ other, req.Selects db other → other.value ≤ host.value →
          admits db user req.policySetId other = true) →
        db.HasSet host req.policySetId := by
  have hup : (req.hosts db).Pairwise fun a b => a.value.toNat < b.value.toNat :=
    resolveHostIds_pairwise db req.hostIds req.groupIds
  rw [assignHosts_table, Table.insertAll_eq_self_iff, forall_mem_map]
  refine forall_congr' fun host => ?_
  rw [mem_takeWhile_iff_of_pairwise hup, and_imp, mem_resolveHostIds]
  refine imp_congr_right fun _ => imp_congr_left (forall_congr' fun other => ?_)
  rw [mem_resolveHostIds]
  rfl

theorem assigned_of_ok {count : Nat}
    (h : (assignHosts user req.policySetId (req.hosts db) 0 db).1 = .ok count) :
    Assigned req db (assignHosts user req.policySetId (req.hosts db) 0 db).2
      ⟨req.policySetId, count, req.hosts db⟩ := by
  have hnodup := nodup_resolveHostIds db req.hostIds req.groupIds
  constructor
  · intro host set
    rw [hasSet_assignHosts (Prod.ext h rfl), mem_resolveHostIds]
  · have hcount := assignHosts_count hnodup h
    have hset : {host | req.Selects db host ∧ ¬ db.HasSet host req.policySetId} =
        ↑((req.hosts db).filter fun host =>
          !db.assignments.has (host, req.policySetId)).toFinset := by
      ext host
      simp [mem_resolveHostIds, Database.HasSet]
    rw [hset, Set.ncard_coe_finset, toFinset_card_of_nodup (hnodup.filter _),
      ← countP_eq_length_filter]
    show count = _
    rw [hcount, Nat.zero_add]

end Endpoint

end Deployment

/-- **What a bulk assignment leaves.** A request that is answered with an error leaves the
assignments as they were exactly if the hosts before the first refused one all had the set. A
successful one adds the set to exactly the selected hosts and counts those that were without it. -/
theorem bulk_assignment_iff (user : AuthUser) (req : Deployment.Request) (db : Database) :
    ((∀ e, (Deployment.assignPolicySet user req db).1 = .error e →
        (Deployment.assignPolicySet user req db).2.assignments = db.assignments) ↔
      Deployment.StopsUnchanged user req db) ∧
      ∀ answer, (Deployment.assignPolicySet user req db).1 = .ok answer →
        Deployment.Assigned req db (Deployment.assignPolicySet user req db).2 answer := by
  by_cases hrun : Deployment.Enters user req db ∧ req.hosts db ≠ []
  · obtain ⟨hanswer, hafter⟩ := Deployment.assignPolicySet_of_enters hrun.1 hrun.2
    have hfails : (∃ e, (Deployment.assignPolicySet user req db).1 = .error e) ↔ ∃ refused,
        req.Selects db refused ∧ Deployment.admits db user req.policySetId refused = false := by
      rw [← Deployment.exists_error_iff, hanswer]
      cases (Deployment.assignHosts user req.policySetId (req.hosts db) 0 db).1 with
      | ok count => simp [Except.map]
      | error e => simp [Except.map]
    constructor
    · rw [← exists_imp, hfails, hafter, Deployment.assignments_eq_iff, Deployment.StopsUnchanged,
        forall_prop_of_true hrun.1]
    · intro answer hok
      rw [hafter]
      rw [hanswer] at hok
      cases hresult : (Deployment.assignHosts user req.policySetId (req.hosts db) 0 db).1 with
      | ok count =>
        rw [hresult] at hok
        obtain rfl := Except.ok.inj hok
        exact Deployment.assigned_of_ok hresult
      | error e =>
        rw [hresult] at hok
        cases hok
  · obtain ⟨e, hanswer⟩ := Deployment.assignPolicySet_of_not_enters hrun
    rw [hanswer]
    refine ⟨iff_of_true (fun _ _ => rfl) ?_, nofun⟩
    rintro henters ⟨refused, hselected, -⟩
    refine absurd ⟨henters, ?_⟩ hrun
    exact ne_nil_of_mem (Deployment.mem_resolveHostIds.mpr hselected)

/-- An operator assigns a set to a host of their group and one outside it. They are told that they
cannot access the second, and the first has the set. -/
theorem refused_assignment_stays :
    (Deployment.assignPolicySet webOperator ⟨⟨5⟩, [⟨1⟩, ⟨2⟩], []⟩ scopedFleet).1 =
        .error (.forbidden
          "Operator web-operator cannot access host 00000000-0000-0000-0000-000000000002") ∧
      ¬ scopedFleet.HasSet ⟨1⟩ ⟨5⟩ ∧
      (Deployment.assignPolicySet webOperator ⟨⟨5⟩, [⟨1⟩, ⟨2⟩], []⟩ scopedFleet).2.HasSet
        ⟨1⟩ ⟨5⟩ := by
  unfold Database.HasSet
  decide

end FirewallManager
