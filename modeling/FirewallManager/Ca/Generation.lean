import FirewallManager.Ca.Operations

/-!
# What becomes of a revocation

A revocation marks the row of its certificate and leaves the rest to the generation of the CRLs.
While there is a marked row that has not expired, every generation fails (`generates_iff`): the
listener keeps the verifier that it has, and a start finds no TLS configuration. So no CRL ever
names a revoked certificate (`revocation_permanent_iff`), and none that its issuer has signed
(`crl_signed_by_issuer_iff`). Only the expiry of the certificate or the removal of its host, which
takes the row away, lets a generation go through again.
-/

namespace FirewallManager

namespace PkiState

/-- A generation at the given time succeeds. -/
def Generates (now : Nat) (state : PkiState) : Prop :=
  ∃ crls, (generateCrls state.ca now state.db).1 = .ok crls

/-- A start at the given time, with a listener whose files can be read, has its TLS configuration.
-/
def StartsListener (now : Nat) (issuing : Option IssuingCa) (state : PkiState) : Prop :=
  (restart now issuing true true state).acceptor.isSome = true

/-- A generation at the given time succeeds, and one of its CRLs names the serial number. -/
def Lists (now : Nat) (serial : Uuid) (state : PkiState) : Prop :=
  ∃ crls, (generateCrls state.ca now state.db).1 = .ok crls ∧
    ∃ crl ∈ crls, crl.lists serial.asBytes = true

/-- A generation at the given time succeeds, exactly one of its CRLs names the certificate, and the
issuer of the certificate has signed it. -/
def SignedByIssuer (now : Nat) (cert : Certificate) (state : PkiState) : Prop :=
  ∃ crls crl, (generateCrls state.ca now state.db).1 = .ok crls ∧
    crls.filter (·.lists cert.serial.asBytes) = [crl] ∧ crl.issuer = cert.issuer

/-- No row is revoked and unexpired at the given time. -/
def NoneListed (now : Nat) (state : PkiState) : Prop :=
  ∀ row ∈ state.db.certificates.rows, ¬ row.Listed now

instance (now : Nat) (state : PkiState) : Decidable (state.NoneListed now) :=
  inferInstanceAs (Decidable (∀ row ∈ state.db.certificates.rows, ¬ row.Listed now))

end PkiState

/-! ## One generation -/

section OneState

variable {now : Nat} {state : PkiState}

theorem generates_iff_noneListed : state.Generates now ↔ state.NoneListed now := by
  simp only [PkiState.Generates, generateCrls_eq_ok_iff, exists_eq_left]
  rfl

theorem startsListener_iff_noneListed {issuing : Option IssuingCa} :
    state.StartsListener now issuing ↔ state.NoneListed now := by
  have hacceptor : (restart now issuing true true state).acceptor =
      (buildAgentTlsConfig ⟨state.ca.root, issuing⟩ now true state.db).1 := rfl
  rw [PkiState.StartsListener, hacceptor, Option.isSome_iff_exists]
  simp only [buildAgentTlsConfig_eq_some_iff, true_and, exists_eq_left]
  rfl

/-- The lists of a generation that succeeds are empty. -/
theorem PkiState.not_lists (now : Nat) (serial : Uuid) (state : PkiState) :
    ¬ state.Lists now serial := by
  rintro ⟨crls, hok, crl, hcrl, -⟩
  rw [(generateCrls_eq_ok_iff.mp hok).1] at hcrl
  cases hcrl

theorem PkiState.not_signedByIssuer (now : Nat) (cert : Certificate) (state : PkiState) :
    ¬ state.SignedByIssuer now cert := by
  rintro ⟨crls, crl, hok, hfilter, -⟩
  rw [(generateCrls_eq_ok_iff.mp hok).1] at hfilter
  cases hfilter

end OneState

/-- **When a generation succeeds.** In every state, and so after every history of approvals,
revocations, deletes and starts, a generation succeeds, and a listener starts, if and only if no row
of the table is revoked and unexpired. -/
theorem generates_iff (state : PkiState) (now : Nat) (issuing : Option IssuingCa) :
    (state.Generates now ↔ state.NoneListed now) ∧
      (state.StartsListener now issuing ↔ state.NoneListed now) :=
  ⟨generates_iff_noneListed, startsListener_iff_noneListed⟩

/-- A host is approved and its certificate revoked, and the row of the root is untouched. The
generation of a second later fails, the listener has the verifier of its start, and the next start
has none. -/
theorem revoked_leaf_stuck :
    let state := Runs.run (pkiStep fun _ => true) oneEnrollment
      [.restart 0 none true true, approveFirst, revokeFirst]
    rootRow oneEnrollment.ca.root 0 ⟨1⟩ ⟨2⟩ ∈ state.db.certificates.rows ∧
      state.acceptor = some [] ∧ ¬ state.Generates 2 ∧ ¬ state.StartsListener 2 none := by
  intro state
  rw [generates_iff_noneListed, startsListener_iff_noneListed]
  decide +kernel

/-- **Who signs the entry of a certificate.** In every state, and so under every sequence of issuing
CAs and every history, all revoked and unexpired leaves are in exactly one CRL that their issuer has
signed if and only if there is no such leaf. -/
theorem crl_signed_by_issuer_iff (state : PkiState) (now : Nat) :
    (∀ cert ∈ state.db.certificates.rows, cert.tier = .leaf → cert.Listed now →
        state.SignedByIssuer now cert) ↔
      ∀ cert ∈ state.db.certificates.rows, cert.tier = .leaf → ¬ cert.Listed now := by
  constructor
  · intro hsigned cert hcert hleaf hlisted
    exact state.not_signedByIssuer now cert (hsigned cert hcert hleaf hlisted)
  · intro hnone cert hcert hleaf hlisted
    exact absurd hlisted (hnone cert hcert hleaf)

/-- An imported sub-CA. -/
def subCa : IssuingCa where
  identity := ⟨"Sub CA", [2]⟩
  serial := [7]
  serial_ne := by decide

/-- A leaf of the sub-CA, revoked. -/
def subLeaf : Certificate :=
  (leafRow ⟨oneEnrollment.ca.root, some subCa⟩ 0 ⟨5⟩ ⟨4⟩ ⟨6⟩).revoke 1

/-- With the sub-CA configured all the time, the generation that should sign the entry of its leaf
fails. -/
theorem sub_ca_leaf_in_no_crl :
    let state := Runs.run (pkiStep fun _ => true) oneEnrollment
      [.restart 0 (some subCa) true true, approveFirst, revokeFirst]
    subLeaf ∈ state.db.certificates.rows ∧ subLeaf.Listed 86400 ∧
      state.ca.issuer = subLeaf.issuer ∧
      (generateCrls state.ca 86400 state.db).1 =
        .error (.database (.ambiguousColumn "last_number")) := by
  decide +kernel

/-! ## Runs after a revocation -/

/-- The operation removes the host of the certificate. -/
def PkiOp.DeletesHostOf (cert : Certificate) : PkiOp → Prop
  | .deleteHost user host => user.role.isAdmin = true ∧ cert.hostId = some host
  | _ => False

/-- The table has a revoked row of the host that is unexpired at the given time. -/
def PkiState.Holds (now : Nat) (hostId : Option Uuid) (state : PkiState) : Prop :=
  ∃ row ∈ state.db.certificates.rows, row.hostId = hostId ∧ row.Listed now

section Steps

variable {validCsr : String → Bool} {now : Nat} {state : PkiState} {cert : Certificate}

theorem PkiState.Holds.not_generates {hostId : Option Uuid} (h : state.Holds now hostId) :
    ¬ state.Generates now := by
  obtain ⟨row, hrow, -, hlisted⟩ := h
  rw [generates_iff_noneListed]
  exact fun hnone => hnone row hrow hlisted

theorem Certificate.Listed.revoke (h : cert.Listed now) (revokedAt : Nat) :
    (cert.revoke revokedAt).Listed now :=
  ⟨rfl, rfl, h.2.2⟩

/-- Of all operations only the removal of the host takes the row away. -/
theorem holds_step {op : PkiOp} (h : state.Holds now cert.hostId)
    (hop : ¬ op.DeletesHostOf cert) : (pkiStep validCsr state op).Holds now cert.hostId := by
  obtain ⟨row, hrow, hhost, hlisted⟩ := h
  cases op with
  | approve user time id draws interval =>
    refine ⟨row, ?_, hhost, hlisted⟩
    show row ∈ (approveEnrollment validCsr user time id draws interval state.ca
      state.db).2.certificates.rows
    rcases certificates_approve validCsr user time id draws interval state.ca state.db with
      hsame | hnew
    · rw [hsame]
      exact hrow
    · rw [hnew]
      exact List.mem_append_left _ hrow
  | revoke user time id filesReadable =>
    -- The row may be the one that is revoked again, at a new time.
    have hmem := List.mem_map_of_mem (f := fun row : Certificate =>
      if user.role.isAdmin = true ∧ row.id = id then row.revoke time else row) hrow
    rw [← certificates_revoke user time id filesReadable] at hmem
    by_cases hid : user.role.isAdmin = true ∧ row.id = id
    · rw [if_pos hid] at hmem
      exact ⟨row.revoke time, hmem, hhost, hlisted.revoke time⟩
    · rw [if_neg hid] at hmem
      exact ⟨row, hmem, hhost, hlisted⟩
  | deleteHost user host =>
    refine ⟨row, ?_, hhost, hlisted⟩
    show row ∈ (deleteHostWithCerts user host state.db).2.certificates.rows
    rw [certificates_deleteHost, List.mem_filter]
    refine ⟨hrow, ?_⟩
    rw [hhost]
    have hkept : user.role.isAdmin = true → ¬ cert.hostId = some host :=
      fun hadmin heq => hop ⟨hadmin, heq⟩
    cases hadmin : user.role.isAdmin with
    | false => rfl
    | true => simp [hkept hadmin]
  | restart time issuing listener filesReadable =>
    refine ⟨row, ?_, hhost, hlisted⟩
    show row ∈ (restart time issuing listener filesReadable state).db.certificates.rows
    rw [certificates_restart]
    exact hrow

/-- A run without a removal of the host keeps the row, and every generation in it fails. -/
theorem stuck_throughout {ops : List PkiOp} (h : state.Holds now cert.hostId)
    (hops : ∀ op ∈ ops, ¬ op.DeletesHostOf cert) :
    Runs.Throughout (pkiStep validCsr) (fun state => ¬ state.Generates now) state ops := by
  induction ops generalizing state with
  | nil => exact Runs.throughout_nil.mpr h.not_generates
  | cons op ops ih =>
    rw [List.forall_mem_cons] at hops
    exact Runs.throughout_cons.mpr ⟨h.not_generates, ih (holds_step h hops.1) hops.2⟩

theorem holds_revoke {user : AuthUser} (hadmin : user.role.isAdmin = true)
    (hcert : cert ∈ state.db.certificates.rows) (hnow : now < cert.expiresAt) (time : Nat)
    (filesReadable : Bool) :
    (pkiStep validCsr state (.revoke user time cert.id filesReadable)).Holds now cert.hostId := by
  refine ⟨cert.revoke time, ?_, rfl, rfl, rfl, hnow⟩
  show cert.revoke time ∈ (revokeCert user time cert.id filesReadable state).2.db.certificates.rows
  rw [certificates_revoke, List.mem_map]
  exact ⟨cert, hcert, if_pos ⟨hadmin, rfl⟩⟩

end Steps

/-- **How long a revocation lasts.** After an admin has revoked a certificate, and through any run
of further operations, every generation from then on until the certificate expires names its serial
number if and only if the certificate had expired already. As long as its host is not removed, none
of these generations succeeds. -/
theorem revocation_permanent_iff (validCsr : String → Bool) {state : PkiState} {cert : Certificate}
    {user : AuthUser} (hadmin : user.role.isAdmin = true)
    (hcert : cert ∈ state.db.certificates.rows) (time : Nat) (filesReadable : Bool)
    (ops : List PkiOp) :
    ((∀ now, time ≤ now → now < cert.expiresAt →
        Runs.Throughout (pkiStep validCsr) (PkiState.Lists now cert.serial)
          (pkiStep validCsr state (.revoke user time cert.id filesReadable)) ops) ↔
      cert.expiresAt ≤ time) ∧
    ((∀ op ∈ ops, ¬ op.DeletesHostOf cert) → ∀ now, now < cert.expiresAt →
      Runs.Throughout (pkiStep validCsr) (fun state => ¬ state.Generates now)
        (pkiStep validCsr state (.revoke user time cert.id filesReadable)) ops) := by
  refine ⟨⟨?_, ?_⟩, ?_⟩
  · intro hlists
    by_contra hexpires
    exact PkiState.not_lists time cert.serial _ (hlists time (le_refl time) (by omega) 0)
  · intro hexpired now htime hnow
    omega
  · intro hops now hnow
    exact stuck_throughout (holds_revoke hadmin hcert hnow time filesReadable) hops

/-- A leaf is revoked a second after its issue. A day later the generation that should list it
fails, long before it expires. -/
theorem revoked_leaf_unlisted :
    let revoked := pkiStep (fun _ => true) oneLeaf revokeFirst
    leafRow oneLeaf.ca 0 ⟨5⟩ ⟨4⟩ ⟨6⟩ ∈ oneLeaf.db.certificates.rows ∧
      (generateCrls revoked.ca 86400 revoked.db).1 =
        .error (.database (.ambiguousColumn "last_number")) ∧
      86400 < (leafRow oneLeaf.ca 0 ⟨5⟩ ⟨4⟩ ⟨6⟩).expiresAt := by
  decide +kernel

/-- A restart with an imported sub-CA does not help. -/
theorem revocation_permanent_at_import :
    Runs.Throughout (pkiStep fun _ => true) (fun state => ¬ state.Generates 86400)
      (pkiStep (fun _ => true) oneLeaf revokeFirst) [.restart 2 (some subCa) true true] := by
  have hcert : leafRow oneLeaf.ca 0 ⟨5⟩ ⟨4⟩ ⟨6⟩ ∈ oneLeaf.db.certificates.rows := by
    decide +kernel
  refine (revocation_permanent_iff (fun _ => true) rfl hcert 1 true _).2 ?_ 86400 (by decide)
  intro op hop
  rw [List.mem_singleton.mp hop]
  exact id

end FirewallManager
