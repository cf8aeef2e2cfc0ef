import FirewallManager.System.StaleInterval

/-!
# Approvals that fail

An approval is a sequence of statements without a transaction, with the signature of the CSR between
them. `approveWithFaults` is the handler with all its ways to fail: the database may refuse any of
the statements, a row may be missing or taken, and the CSR may be absent or unusable. Without
refused statements it is the handler of the interleavings (`approveWithFaults_agrees`).

`approval_atomic_iff` says when a failed approval leaves the tables as they were: the host row is
the first write, so either the call fails before it, or nothing after it fails.
-/

namespace FirewallManager

/-- The statements of an approval. -/
inductive ApprovalStatement where
  | selectRequest
  | countHosts
  | insertHost
  | insertOverrides
  | insertCertificate
  | deleteRequest
  deriving DecidableEq, Repr

/-- The statements that the database refuses during a call, with their errors. -/
def ApprovalFaults : Type :=
  ApprovalStatement → Option String

/-- The database refuses nothing. -/
def ApprovalFaults.none : ApprovalFaults :=
  fun _ => Option.none

section Handler

variable (env : EnrollEnv) (faults : ApprovalFaults)

/-- The part of an approval that writes nothing. -/
def approveCheck (user : AuthUser) (id : Uuid) (store : EnrollStore) :
    Except EnrollmentError PendingEnrollment :=
  if !user.role.isAdmin then .error (.app (.forbidden "Admin role required"))
  else
    match faults .selectRequest with
    | some error => .error (.app (.database error))
    | none =>
      match store.requests.find? id with
      | none => .error (.app (.notFound "Enrollment request not found"))
      | some row =>
        match faults .countHosts with
        | some error => .error (.app (.database error))
        | none =>
          if store.pki.collides row.toEnrollmentRequest then
            .error (.app (.conflict "Host already registered"))
          else .ok row

/-- The insert of the host. -/
def approveInsert (host : Uuid) (row : PendingEnrollment) (store : EnrollStore) :
    Except EnrollmentError EnrollStore :=
  match faults .insertHost with
  | some error => .error (.app (.database error))
  | none =>
    match store.pki.insertHost row.toEnrollmentRequest host with
    | none => .error (.app (.database "hosts_pkey"))
    | some pki => .ok { store with pki := pki }

/-- The insert of the settings of the host. Whether it fails is not looked at. -/
def approveOverride (host : Uuid) (interval : Int) (store : EnrollStore) : EnrollStore :=
  match faults .insertOverrides with
  | some _ => store
  | none => { store with pki := store.pki.insertOverride host interval }

/-- Sign the CSR and record the certificate. -/
def approveIssue (now : Nat) (draws : ApprovalDraws) (interval : Int) (row : PendingEnrollment)
    (store : EnrollStore) : Except EnrollmentError (PkiBundle × EnrollStore) :=
  match row.csr with
  | none => .error (.app (.badRequest "Enrollment request has no CSR"))
  | some csr =>
    match signCsr env store.ca csr draws.host draws.serial with
    | none => .error (.internal "CA sign failed")
    | some cert =>
      match faults .insertCertificate with
      | some error => .error (.app (.database error))
      | none =>
        match store.pki.insertCertificate
            (leafRow store.ca now draws.certId draws.host draws.serial) with
        | none => .error (.app (.database "certificates"))
        | some pki =>
          .ok (⟨cert, interval, true, 1, env.managerAgentUrl⟩, { store with pki := pki })

/-- The last statement deletes the request. -/
def approveFinish (id : Uuid) (store : EnrollStore) : Except EnrollmentError Unit × EnrollStore :=
  match faults .deleteRequest with
  | some error => (.error (.app (.database error)), store)
  | none =>
    (.ok (), { store with requests := store.requests.delete fun row => decide (row.id = id) })

/-- What follows the insert of the host. -/
def approveRegistered (now : Nat) (id : Uuid) (draws : ApprovalDraws)
    (interval : Int) (row : PendingEnrollment) (store : EnrollStore)
    (approved : Table ApprovedEntry.pollingHash) :
    Except EnrollmentError Unit × EnrollStore × Table ApprovedEntry.pollingHash :=
  match approveIssue env faults now draws interval row store with
  | .error e => (.error e, store, approved)
  | .ok (bundle, store) =>
    let (answer, store) := approveFinish faults id store
    (answer, store, cacheEntry ⟨row.pollingToken, bundle, draws.host⟩ approved)

/-- `approve_enrollment`, when no other call comes between its statements. -/
def approveWithFaults (user : AuthUser) (now : Nat) (id : Uuid) (draws : ApprovalDraws)
    (interval : Int) (store : EnrollStore) (approved : Table ApprovedEntry.pollingHash) :
    Except EnrollmentError Unit × EnrollStore × Table ApprovedEntry.pollingHash :=
  match approveCheck faults user id store with
  | .error e => (.error e, store, approved)
  | .ok row =>
    match approveInsert faults draws.host row store with
    | .error e => (.error e, store, approved)
    | .ok store =>
      approveRegistered env faults now id draws interval row
        (approveOverride faults draws.host interval store) approved

end Handler

/-! ## The handler of the interleavings -/

section Agreement

variable {env : EnrollEnv} {user : AuthUser} {now : Nat} {id : Uuid} {draws : ApprovalDraws}
  {interval : Int} {store : EnrollStore} {approved : Table ApprovedEntry.pollingHash}

/-- The statements ended with the answer, the tables and the bundles of the handler. -/
def ApproveEnds (last : ApprovePhase × EnrollStore × Table ApprovedEntry.pollingHash)
    (handler : Except EnrollmentError Unit × EnrollStore × Table ApprovedEntry.pollingHash) :
    Prop :=
  last.1.result = some handler.1 ∧ last.2 = handler.2

theorem approveEnds_failed (n : Nat) (e : EnrollmentError) :
    ApproveEnds (approveSteps env user now id draws interval n (.failed e, store, approved))
      (.error e, store, approved) := by
  rw [approveSteps, Function.iterate_fixed rfl]
  exact ⟨rfl, rfl⟩

theorem approveEnds_registered (row : PendingEnrollment) :
    ApproveEnds
      (approveSteps env user now id draws interval 3
        (.registered row draws.host interval, store, approved))
      (approveRegistered env .none now id draws interval row store approved) := by
  rw [approveSteps_succ, approveNext_registered]
  unfold approveSign approveRegistered approveIssue
  cases row.csr with
  | none => exact approveEnds_failed 2 _
  | some csr =>
    dsimp only
    cases signCsr env store.ca csr draws.host draws.serial with
    | none => exact approveEnds_failed 2 _
    | some cert =>
      simp only [ApprovalFaults.none]
      cases store.pki.insertCertificate
          (leafRow store.ca now draws.certId draws.host draws.serial) with
      | none => exact approveEnds_failed 2 _
      | some pki => exact ⟨rfl, rfl⟩

/-- An approval whose statements meet no other call and are not refused ends as its statements
do. -/
theorem approveWithFaults_agrees (env : EnrollEnv) (user : AuthUser) (now : Nat) (id : Uuid)
    (draws : ApprovalDraws) (interval : Int) (store : EnrollStore)
    (approved : Table ApprovedEntry.pollingHash) :
    ApproveEnds
      (approveSteps env user now id draws interval 5
        (approveStart user id store, store, approved))
      (approveWithFaults env .none user now id draws interval store approved) := by
  unfold approveStart approveWithFaults approveCheck
  cases user.role.isAdmin with
  | false => exact approveEnds_failed 5 _
  | true =>
    simp only [Bool.not_true, Bool.false_eq_true, if_false, ApprovalFaults.none]
    cases store.requests.find? id with
    | none => exact approveEnds_failed 5 _
    | some row =>
      simp only [approveSteps_succ 4, approveNext]
      cases hfree : store.pki.collides row.toEnrollmentRequest with
      | true => exact approveEnds_failed 4 _
      | false =>
        simp only [Bool.false_eq_true, if_false, approveSteps_succ 3, approveNext, hfree,
          approveInsert, registerHost_eq_insert]
        cases store.pki.insertHost row.toEnrollmentRequest draws.host with
        | none => exact approveEnds_failed 3 _
        | some pki => exact approveEnds_registered row

end Agreement

/-! ## What a failed approval leaves -/

/-- The tables of the enrolment and the bundles that wait are the same. -/
structure SameEnrolment (before after : EnrollStore × Table ApprovedEntry.pollingHash) : Prop where
  hosts : after.1.pki.base.hosts = before.1.pki.base.hosts
  hostNames : after.1.pki.hostNames = before.1.pki.hostNames
  overrides : after.1.pki.base.configOverrides = before.1.pki.base.configOverrides
  certificates : after.1.pki.certificates = before.1.pki.certificates
  requests : after.1.requests = before.1.requests
  bundles : after.2 = before.2

section Atomicity

variable (env : EnrollEnv) (faults : ApprovalFaults)

/-- If the approval fails, the tables are as before, and every later call is answered as it would
have been without this one. -/
def ApprovalAtomic (user : AuthUser) (now : Nat) (id : Uuid) (draws : ApprovalDraws)
    (interval : Int) (store : EnrollStore) (approved : Table ApprovedEntry.pollingHash) : Prop :=
  let result := approveWithFaults env faults user now id draws interval store approved
  ∀ e, result.1 = .error e →
    SameEnrolment (store, approved) result.2 ∧
      ∀ env' faults' user' now' id' draws' interval',
        (approveWithFaults env' faults' user' now' id' draws' interval' result.2.1 result.2.2).1 =
          (approveWithFaults env' faults' user' now' id' draws' interval' store approved).1

/-- The approval gets to insert a host for the request. -/
structure Registers (user : AuthUser) (id host : Uuid) (store : EnrollStore)
    (row : PendingEnrollment) : Prop where
  admin : user.role.isAdmin = true
  accepted : faults .selectRequest = none ∧ faults .countHosts = none ∧ faults .insertHost = none
  found : store.requests.find? id = some row
  free : store.pki.collides row.toEnrollmentRequest = false
  host_new : store.pki.base.hosts.has host = false
  name_new : store.pki.hostNames.has host = false

/-- Nothing stops the approval of the request once the host is there. -/
structure Completes (draws : ApprovalDraws) (store : EnrollStore) (row : PendingEnrollment) :
    Prop where
  csr : ∃ csr, row.csr = some csr ∧ (env.csrKey csr).isSome = true
  accepted : faults .insertCertificate = none ∧ faults .deleteRequest = none
  serial_new : Text.hexEncode draws.serial.asBytes ∉
    store.pki.certificates.rows.map Certificate.serialNumber
  cert_new : store.pki.certificates.has draws.certId = false

variable {env faults} {user : AuthUser} {now : Nat} {id : Uuid} {draws : ApprovalDraws}
  {interval : Int} {row : PendingEnrollment} {store : EnrollStore}
  {approved : Table ApprovedEntry.pollingHash}

theorem approveCheck_ok_iff :
    approveCheck faults user id store = .ok row ↔
      user.role.isAdmin = true ∧ faults .selectRequest = none ∧
        store.requests.find? id = some row ∧ faults .countHosts = none ∧
        store.pki.collides row.toEnrollmentRequest = false := by
  unfold approveCheck
  cases user.role.isAdmin with
  | false => simp
  | true =>
    cases faults .selectRequest with
    | some error => simp
    | none =>
      cases store.requests.find? id with
      | none => simp
      | some found =>
        cases faults .countHosts with
        | some error => simp
        | none =>
          dsimp only
          by_cases hrow : found = row
          · rw [hrow]
            cases store.pki.collides row.toEnrollmentRequest <;> simp
          · cases store.pki.collides found.toEnrollmentRequest <;> simp [hrow]

theorem exists_approveInsert_iff (row : PendingEnrollment) (host : Uuid) :
    (∃ after, approveInsert faults host row store = .ok after) ↔
      faults .insertHost = none ∧ store.pki.base.hosts.has host = false ∧
        store.pki.hostNames.has host = false := by
  unfold approveInsert PkiDatabase.insertHost Table.insert?
  cases faults .insertHost with
  | some error => simp
  | none =>
    by_cases hhost : store.pki.base.hosts.has host = false
    · by_cases hname : store.pki.hostNames.has host = false
      · simp [hhost, hname]
      · simp [hhost, hname]
    · simp [hhost]

theorem approveInsert_ok {host : Uuid} {after : EnrollStore}
    (h : approveInsert faults host row store = .ok after) :
    after.pki.base.hosts.has host = true ∧ after.pki.collides row.toEnrollmentRequest = true ∧
      after.pki.certificates = store.pki.certificates := by
  unfold approveInsert PkiDatabase.insertHost at h
  split at h
  next => cases h
  next =>
    split at h
    next => cases h
    next pki hinsert =>
      obtain rfl := Except.ok.inj h
      split at hinsert
      next hosts hostNames hhosts hnames =>
        obtain rfl := Option.some.inj hinsert
        refine ⟨Table.has_eq_true_iff.mpr ⟨⟨host, none, .pending, none⟩, ?_, rfl⟩,
          List.any_eq_true.mpr ⟨⟨host, row.fqdn, row.ipAddress⟩, ?_, decide_eq_true ⟨rfl, rfl⟩⟩,
          rfl⟩
        · rw [(Table.insert?_eq_some_iff.mp hhosts).2]
          exact List.mem_append_right _ List.mem_cons_self
        · show _ ∈ hostNames.rows
          rw [(Table.insert?_eq_some_iff.mp hnames).2]
          exact List.mem_append_right _ List.mem_cons_self
      next => cases hinsert

/-- The hosts and their names are the same. -/
def SameHosts (before after : EnrollStore) : Prop :=
  after.pki.base.hosts = before.pki.base.hosts ∧ after.pki.hostNames = before.pki.hostNames

/-- The settings of a host are in a table of their own. -/
theorem approveOverride_frame (faults : ApprovalFaults) (host : Uuid) (interval : Int)
    (store : EnrollStore) :
    SameHosts store (approveOverride faults host interval store) ∧
      (approveOverride faults host interval store).pki.certificates = store.pki.certificates := by
  unfold approveOverride
  split
  · exact ⟨⟨rfl, rfl⟩, rfl⟩
  · exact ⟨⟨rfl, rfl⟩, rfl⟩

theorem exists_insertCertificate_iff (pki : PkiDatabase) (cert : Certificate) :
    (∃ pki', pki.insertCertificate cert = some pki') ↔
      cert.serialNumber ∉ pki.certificates.rows.map Certificate.serialNumber ∧
        pki.certificates.has cert.id = false := by
  unfold PkiDatabase.insertCertificate
  by_cases hserial : cert.serialNumber ∉ pki.certificates.rows.map Certificate.serialNumber
  · by_cases hid : pki.certificates.has cert.id = false
    · simp only [dif_pos hserial, dif_pos hid]
      exact iff_of_true ⟨_, rfl⟩ ⟨hserial, hid⟩
    · simp only [dif_pos hserial, dif_neg hid]
      exact iff_of_false (by simp) fun h => hid h.2
  · simp only [dif_neg hserial]
    exact iff_of_false (by simp) fun h => hserial h.1

theorem approveFinish_ok_iff :
    (approveFinish faults id store).1 = .ok () ↔ faults .deleteRequest = none := by
  unfold approveFinish
  cases faults .deleteRequest with
  | some error => simp
  | none => simp

theorem hosts_approveFinish (faults : ApprovalFaults) (id : Uuid) (store : EnrollStore) :
    SameHosts store (approveFinish faults id store).2 := by
  unfold approveFinish
  split
  · exact ⟨rfl, rfl⟩
  · exact ⟨rfl, rfl⟩

/-- What follows the insert of the host succeeds exactly if nothing stops it. -/
theorem approveRegistered_ok_iff :
    (approveRegistered env faults now id draws interval row store approved).1 = .ok () ↔
      Completes env faults draws store row := by
  unfold approveRegistered approveIssue
  cases hcsr : row.csr with
  | none =>
    refine iff_of_false (by simp) ?_
    rintro ⟨⟨csr, hsome, -⟩, -⟩
    rw [hcsr] at hsome
    cases hsome
  | some csr =>
    dsimp only
    cases hkey : env.csrKey csr with
    | none =>
      refine iff_of_false (by simp [signCsr, hkey]) ?_
      rintro ⟨⟨csr', hsome, husable⟩, -⟩
      obtain rfl := Option.some.inj (hcsr.symm.trans hsome)
      rw [hkey] at husable
      cases husable
    | some key =>
      have hsign : signCsr env store.ca csr draws.host draws.serial =
          some ⟨draws.host, key, draws.serial, store.ca.issuer⟩ := by
        rw [signCsr, hkey, Option.map_some]
      have husable : ∃ csr, row.csr = some csr ∧ (env.csrKey csr).isSome = true :=
        ⟨csr, hcsr, by rw [hkey]; rfl⟩
      rw [hsign]
      dsimp only
      cases hinsert : faults .insertCertificate with
      | some error =>
        refine iff_of_false (by simp) ?_
        rintro ⟨-, ⟨hnone, -⟩, -⟩
        rw [hinsert] at hnone
        cases hnone
      | none =>
        have hfree := exists_insertCertificate_iff store.pki
          (leafRow store.ca now draws.certId draws.host draws.serial)
        cases hcert : store.pki.insertCertificate
            (leafRow store.ca now draws.certId draws.host draws.serial) with
        | none =>
          refine iff_of_false (by simp) fun h => ?_
          obtain ⟨pki, hsome⟩ := hfree.mpr ⟨h.serial_new, h.cert_new⟩
          rw [hcert] at hsome
          cases hsome
        | some pki =>
          obtain ⟨hserial, hid⟩ := hfree.mp ⟨pki, hcert⟩
          exact approveFinish_ok_iff.trans
            ⟨fun hdelete => ⟨husable, ⟨hinsert, hdelete⟩, hserial, hid⟩, fun h => h.accepted.2⟩

theorem hosts_approveRegistered (env : EnrollEnv) (faults : ApprovalFaults)
    (now : Nat) (id : Uuid) (draws : ApprovalDraws) (interval : Int) (row : PendingEnrollment)
    (store : EnrollStore) (approved : Table ApprovedEntry.pollingHash) :
    SameHosts store
      (approveRegistered env faults now id draws interval row store approved).2.1 := by
  unfold approveRegistered
  split
  next => exact ⟨rfl, rfl⟩
  next bundle after hissue =>
    obtain ⟨hhosts, hnames⟩ : SameHosts store after := by
      unfold approveIssue at hissue
      split at hissue
      next => cases hissue
      next =>
        split at hissue
        next => cases hissue
        next =>
          split at hissue
          next => cases hissue
          next =>
            split at hissue
            next => cases hissue
            next pki hinsert =>
              cases hissue
              obtain ⟨-, hbase, hnames⟩ := PkiDatabase.insertCertificate_tables hinsert
              exact ⟨congrArg Database.hosts hbase, hnames⟩
    obtain ⟨hfinish, hfinishNames⟩ := hosts_approveFinish faults id after
    exact ⟨hfinish.trans hhosts, hfinishNames.trans hnames⟩

theorem approveWithFaults_of_not_registers
    (h : ∀ row, ¬ Registers faults user id draws.host store row) :
    (approveWithFaults env faults user now id draws interval store approved).2 =
      (store, approved) := by
  unfold approveWithFaults
  split
  next => rfl
  next row hcheck =>
    obtain ⟨hadmin, hselect, hfound, hcount, hfree⟩ := approveCheck_ok_iff.mp hcheck
    split
    next => rfl
    next after hinsert =>
      obtain ⟨hinserted, hhost, hname⟩ :=
        (exists_approveInsert_iff row draws.host).mp ⟨after, hinsert⟩
      exact absurd ⟨hadmin, ⟨hselect, hcount, hinserted⟩, hfound, hfree, hhost, hname⟩ (h row)

theorem Registers.outcome (h : Registers faults user id draws.host store row) (env : EnrollEnv)
    (now : Nat) (interval : Int) (approved : Table ApprovedEntry.pollingHash) :
    let result := approveWithFaults env faults user now id draws interval store approved
    result.2.1.pki.base.hosts.has draws.host = true ∧
      result.2.1.pki.collides row.toEnrollmentRequest = true ∧
      (result.1 = .ok () ↔ Completes env faults draws store row) := by
  have hcheck : approveCheck faults user id store = .ok row :=
    approveCheck_ok_iff.mpr ⟨h.admin, h.accepted.1, h.found, h.accepted.2.1, h.free⟩
  obtain ⟨inserted, hinsert⟩ := (exists_approveInsert_iff row draws.host).mpr
    ⟨h.accepted.2.2, h.host_new, h.name_new⟩
  obtain ⟨hhost, hname, hcertificates⟩ := approveInsert_ok hinsert
  have hresult : approveWithFaults env faults user now id draws interval store approved =
      approveRegistered env faults now id draws interval row
        (approveOverride faults draws.host interval inserted) approved := by
    rw [approveWithFaults, hcheck]
    dsimp only
    rw [hinsert]
  obtain ⟨⟨hhosts, hnames⟩, hcerts⟩ := approveOverride_frame faults draws.host interval inserted
  obtain ⟨hhosts', hnames'⟩ := hosts_approveRegistered env faults now id draws interval row
    (approveOverride faults draws.host interval inserted) approved
  dsimp only
  rw [hresult, hhosts', hhosts, PkiDatabase.collides, hnames', hnames, approveRegistered_ok_iff]
  refine ⟨hhost, hname, ?_⟩
  have hsame := hcerts.trans hcertificates
  constructor
  · rintro ⟨hcsr, haccepted, hserial, hcert⟩
    rw [hsame] at hserial hcert
    exact ⟨hcsr, haccepted, hserial, hcert⟩
  · rintro ⟨hcsr, haccepted, hserial, hcert⟩
    rw [← hsame] at hserial hcert
    exact ⟨hcsr, haccepted, hserial, hcert⟩

/-- **When a failed approval leaves no trace.** An approval is all or nothing, whatever statements
the database refuses, if and only if it does not get to insert a host, or nothing can stop it
afterwards: the CSR of the request is there and can be signed, and the certificate is recorded and
the request deleted. -/
theorem approval_atomic_iff (env : EnrollEnv) (faults : ApprovalFaults) (user : AuthUser)
    (now : Nat) (id : Uuid) (draws : ApprovalDraws) (interval : Int) (store : EnrollStore)
    (approved : Table ApprovedEntry.pollingHash) :
    ApprovalAtomic env faults user now id draws interval store approved ↔
      ∀ row, Registers faults user id draws.host store row →
        Completes env faults draws store row := by
  constructor
  · intro hatomic row hregisters
    obtain ⟨hhost, -, hok⟩ := hregisters.outcome env now interval approved
    by_contra hstopped
    cases hanswer : (approveWithFaults env faults user now id draws interval store approved).1 with
    | ok answer => exact hstopped (hok.mp hanswer)
    | error e =>
      have hsame := (hatomic e hanswer).1.hosts
      rw [hsame, hregisters.host_new] at hhost
      cases hhost
  · intro hcompletes e herror
    have hnot : ∀ row, ¬ Registers faults user id draws.host store row := by
      intro row hregisters
      obtain ⟨-, -, hok⟩ := hregisters.outcome env now interval approved
      rw [hok.mpr (hcompletes row hregisters)] at herror
      cases herror
    have hsame : (approveWithFaults env faults user now id draws interval store approved).2 =
        (store, approved) := approveWithFaults_of_not_registers hnot
    rw [hsame]
    exact ⟨⟨rfl, rfl, rfl, rfl, rfl, rfl⟩, fun _ _ _ _ _ _ _ => rfl⟩

end Atomicity

/-- An environment that can sign the CSR `csr` and no other. -/
def strictEnv : EnrollEnv :=
  { plainEnv with csrKey := fun csr => if csr = "csr" then some (Text.utf8 csr) else none }

/-- The request of the host `web`, with a CSR that cannot be read. -/
def unreadableRequest : PendingEnrollment :=
  ⟨⟨⟨2⟩, "web", "10.0.0.1", some "unreadable"⟩, "web-10.0.0.1",
    strictEnv.hashToken (Uuid.text ⟨1⟩), 0, 86400⟩

/-- An approval by the admin of the request. -/
def approveWeb (store : EnrollStore) :
    Except EnrollmentError Unit × EnrollStore × Table ApprovedEntry.pollingHash :=
  approveWithFaults strictEnv .none caAdmin 10 ⟨2⟩ ⟨⟨4⟩, ⟨5⟩, ⟨6⟩⟩ 900 store .empty

/-- The tables with the request. -/
def unreadableStore : EnrollStore :=
  { oneToken with requests := .singleton unreadableRequest }

/-- The host submits again, with a CSR that can be signed. -/
def resubmitted (store : EnrollStore) : EnrollStore :=
  (submitEnrollment strictEnv 20 ⟨"token", "csr", "web", "10.0.0.1"⟩ ⟨7⟩ ⟨8⟩ store).2

/-- The first approval fails at the CSR and leaves a host. When the host has submitted a good CSR,
its approval fails because of that host; without the first approval it succeeds. -/
theorem failed_approval_blocks :
    ¬ ApprovalAtomic strictEnv .none caAdmin 10 ⟨2⟩ ⟨⟨4⟩, ⟨5⟩, ⟨6⟩⟩ 900 unreadableStore .empty ∧
      (approveWeb unreadableStore).1 = .error (.internal "CA sign failed") ∧
      (approveWeb (resubmitted (approveWeb unreadableStore).2.1)).1 =
        .error (.app (.conflict "Host already registered")) ∧
      (approveWeb (resubmitted unreadableStore)).1 = .ok () := by
  have hhosts : (approveWeb unreadableStore).2.1.pki.base.hosts.has ⟨4⟩ = true ∧
      unreadableStore.pki.base.hosts.has ⟨4⟩ = false := by
    decide +kernel
  have herror : (approveWeb unreadableStore).1 = .error (.internal "CA sign failed") := by
    decide +kernel
  refine ⟨fun hatomic => ?_, herror, by decide +kernel, by decide +kernel⟩
  have hsame : (approveWeb unreadableStore).2.1.pki.base.hosts =
      unreadableStore.pki.base.hosts := (hatomic _ herror).1.hosts
  rw [hsame, hhosts.2] at hhosts
  cases hhosts.1

end FirewallManager
