import FirewallManager.Ca.Operations

/-!
# The certificate of the agent listener

At every start the manager loads its root and, if there is one, the imported sub-CA, and makes sure
that the agent listener has a certificate of the CA that issues now. A certificate on disk is kept
if its issuer has the common name of that CA, if it is valid for another thirty days, and if it has
the configured names. Whose key signed it is not looked at.

`kept_cert_chains_iff` says what a run of starts has to keep for kept certificates to chain to what
agents pin: a start that keeps the certificate has the CA of the start before, name and key.
`rekeyed_sub_ca_kept` is a sub-CA with a new key under its old name. `listener_cert_kept_iff` says
when a second call keeps what the first one has issued: issuing puts the DNS names first, and the
check compares the names in their order.
-/

namespace FirewallManager

open List

/-! ## Loading the issuing CA -/

/-- What the key of a certificate may sign. -/
structure KeyUsage where
  keyCertSign : Bool
  crlSign : Bool
  deriving DecidableEq, Repr

/-- A certificate of the chain file, as far as it is looked at. -/
@[ext]
structure CaCert where
  subject : String
  issuer : String
  publicKey : List UInt8
  serial : List UInt8
  serial_ne : serial ≠ []
  notBefore : Nat
  notAfter : Nat
  isCa : Bool
  keyUsage : Option KeyUsage

instance : DecidableEq CaCert := fun _ _ =>
  decidable_of_iff _ CaCert.ext_iff.symm

/-- The name and the key that the certificate is about. -/
def CaCert.identity (cert : CaCert) : CaIdentity :=
  ⟨cert.subject, cert.publicKey⟩

/-- The key file and the chain file. The key stands for its public half, and a block that does not
parse is `none`. -/
structure IssuingFiles where
  key : Option (List UInt8)
  chain : List (Option CaCert)
  deriving DecidableEq

/-- Why an issuing CA is refused. The numbers are places in the chain. -/
inductive IssuingCaError where
  | key
  | noCertificate
  | parse (place : Nat)
  | notYetValid (place : Nat)
  | expired (place : Nat)
  | notCa
  | noKeyUsage
  | noKeyCertSign
  | noCrlSign
  | keyMismatch
  | chainBroken (place : Nat)
  | noSelfSignedRoot
  deriving DecidableEq, Repr

/-- A sub-CA that was loaded, with the certificates above it. -/
structure ImportedCa where
  cert : CaCert
  upstream : List CaCert
  deriving DecidableEq

/-- The certificate is valid now. -/
def checkValidity (now place : Nat) (cert : CaCert) : Except IssuingCaError Unit :=
  if now < cert.notBefore then .error (.notYetValid place)
  else if now > cert.notAfter then .error (.expired place)
  else .ok ()

/-- The certificates above the sub-CA, all of them valid now. -/
def loadUpstream (now : Nat) : Nat → List (Option CaCert) → Except IssuingCaError (List CaCert)
  | _, [] => .ok []
  | place, none :: _ => .error (.parse place)
  | place, some cert :: rest => do
      checkValidity now place cert
      let certs ← loadUpstream now (place + 1) rest
      pure (cert :: certs)

/-- Every issuer is the next subject, and the last one is its own. -/
def checkNames (place : Nat) (cert : CaCert) : List CaCert → Except IssuingCaError Unit
  | [] => if cert.issuer ≠ cert.subject then .error .noSelfSignedRoot else .ok ()
  | next :: rest =>
    if cert.issuer ≠ next.subject then .error (.chainBroken place)
    else checkNames (place + 1) next rest

/-- The sub-CA may sign certificates and CRLs. -/
def checkUsage (cert : CaCert) : Except IssuingCaError Unit :=
  if !cert.isCa then .error .notCa
  else
    match cert.keyUsage with
    | none => .error .noKeyUsage
    | some usage =>
      if !usage.keyCertSign then .error .noKeyCertSign
      else if !usage.crlSign then .error .noCrlSign
      else .ok ()

/-- `with_issuing_ca`. -/
def withIssuingCa (now : Nat) (files : IssuingFiles) : Except IssuingCaError ImportedCa :=
  match files.key with
  | none => .error .key
  | some key =>
    match files.chain with
    | [] => .error .noCertificate
    | none :: _ => .error (.parse 0)
    | some cert :: rest => do
        checkValidity now 0 cert
        checkUsage cert
        if key ≠ cert.publicKey then throw .keyMismatch
        let upstream ← loadUpstream now 1 rest
        checkNames 0 cert upstream
        pure ⟨cert, upstream⟩

/-- What the manager does not compute itself: the first common name of a subject, the canonical text
of an address, and which DNS names fit into a certificate. The subject of the root is fixed. -/
structure X509Env where
  commonName : String → Option String
  rootSubject : String
  rootSubject_cn : commonName rootSubject = some "Firewall Manager Root CA"
  parseIp : String → Option String
  validDns : String → Bool

/-- The CA after a start: the key of the root and the imported sub-CA. -/
structure LoadedCa where
  rootKey : List UInt8
  imported : Option ImportedCa
  deriving DecidableEq

namespace LoadedCa

variable (env : X509Env) (ca : LoadedCa)

/-- The authority that the other handlers work with. -/
def authority : CertAuthority where
  root := ⟨env.rootSubject, ca.rootKey⟩
  issuing := ca.imported.map fun imported =>
    ⟨imported.cert.identity, imported.cert.serial, imported.cert.serial_ne⟩

/-- `issuing_subject_cn`. -/
def issuingSubjectCn : String :=
  match ca.imported with
  | some imported => (env.commonName imported.cert.subject).getD ""
  | none => "Firewall Manager Root CA"

/-- `ca_chain_for_agents`, the names and keys of it. -/
def caChainForAgents : List CaIdentity :=
  match ca.imported with
  | some imported => (imported.cert :: imported.upstream).map CaCert.identity
  | none => [⟨env.rootSubject, ca.rootKey⟩]

theorem issuer_mem_caChainForAgents : (ca.authority env).issuer ∈ ca.caChainForAgents env := by
  unfold authority caChainForAgents CertAuthority.issuer
  cases ca.imported with
  | none => exact mem_cons_self
  | some imported => exact mem_cons_self

end LoadedCa

/-! ## The certificate of the listener -/

/-- The names in a certificate. An address stands for its canonical text. -/
inductive GeneralName where
  | dns (name : String)
  | ip (address : String)
  | other
  deriving DecidableEq, Repr

/-- A server certificate: who signed it, how long it is valid, and its names if there are any. -/
structure ServerCert where
  issuer : CaIdentity
  notBefore : Nat
  notAfter : Nat
  sans : Option (List GeneralName)
  deriving DecidableEq, Repr

/-- The certificate file. -/
inductive CertFile where
  | missing
  | unparsable
  | cert (cert : ServerCert)
  deriving DecidableEq, Repr

/-- The files of the listener. -/
structure ListenerFiles where
  cert : CertFile
  keyExists : Bool
  deriving DecidableEq, Repr

/-- `CertOutcome`. -/
inductive CertOutcome where
  | reused
  | issued
  deriving DecidableEq, Repr

section Ensure

variable (env : X509Env) (ca : LoadedCa) (now : Nat) (sans : List String)

/-- `issue_server_cert`: first the DNS names, then the addresses. -/
def issueServerCert : Option ServerCert :=
  let dns := sans.filter fun san => (env.parseIp san).isNone
  let names := dns.map GeneralName.dns ++ (sans.filterMap env.parseIp).map GeneralName.ip
  if dns.all env.validDns then
    some ⟨(ca.authority env).issuer, now - 24 * 3600, now + 365 * 24 * 3600,
      if names = [] then none else some names⟩
  else none

/-- The text of a name, if it is a DNS name or an address. -/
def GeneralName.text? : GeneralName → Option String
  | .dns name => some name
  | .ip address => some address
  | .other => none

/-- `cert_san_strings`. -/
def certSanStrings (cert : ServerCert) : Option (List String) :=
  cert.sans.bind fun names => names.mapM GeneralName.text?

/-- `canonical_sans`. -/
def canonicalSans : List String :=
  sans.map fun san => (env.parseIp san).getD san

/-- `existing_cert_reusable`. -/
def existingCertReusable (expectedIssuerCn : String) (cert : ServerCert) : Option Bool :=
  match env.commonName cert.issuer.subject with
  | none => none
  | some issuerCn =>
    if issuerCn ≠ expectedIssuerCn then some false
    else if cert.notAfter ≤ now + 30 * 24 * 3600 then some false
    else
      match certSanStrings cert with
      | none => none
      | some certSans => some (decide (certSans = canonicalSans env sans))

/-- The check of the certificate file. -/
def fileReusable : CertFile → Option Bool
  | .cert cert => existingCertReusable env now sans (ca.issuingSubjectCn env) cert
  | _ => none

/-- `ensure_agent_listener_cert`. It fails if a name does not fit into a certificate. -/
def ensureAgentListenerCert (files : ListenerFiles) : Option CertOutcome × ListenerFiles :=
  if fileReusable env ca now sans files.cert = some true ∧ files.keyExists = true then
    (some .reused, files)
  else
    match issueServerCert env ca now sans with
    | some cert => (some .issued, ⟨.cert cert, true⟩)
    | none => (none, files)

end Ensure

/-! ## Starts -/

/-- The configuration of a start: the key of the root, the files of a sub-CA if both are there, and
the names of the listener. -/
structure StartConfig where
  rootKey : List UInt8
  issuing : Option IssuingFiles
  sans : List String
  deriving DecidableEq

/-- A start, or a file of the listener that is lost, and the time that has passed before. -/
inductive ListenerOp where
  | start (elapsed : Nat) (config : StartConfig)
  | loseCert
  | loseKey
  deriving DecidableEq

/-- The files of the listener, the CA of the last start that got to a certificate, and what a start
that has just taken place found. -/
structure ListenerState where
  clock : Nat
  files : ListenerFiles
  last : Option CaIdentity
  started : Option (LoadedCa × CertOutcome)
  deriving DecidableEq

/-- The CA of a start. A sub-CA that is refused ends it. -/
def StartConfig.load (config : StartConfig) (now : Nat) : Option LoadedCa :=
  match config.issuing with
  | none => some ⟨config.rootKey, none⟩
  | some files => (withIssuingCa now files).toOption.map fun imported =>
    ⟨config.rootKey, some imported⟩

namespace ListenerState

variable (env : X509Env)

/-- A manager without a certificate for its listener. -/
def install (clock : Nat) : ListenerState :=
  ⟨clock, ⟨.missing, false⟩, none, none⟩

/-- The listener of a start. Without names there is none. -/
def startListener (state : ListenerState) (config : StartConfig) : ListenerState :=
  match config.load state.clock with
  | none => { state with started := none }
  | some ca =>
    if config.sans = [] then { state with started := none }
    else
      match ensureAgentListenerCert env ca state.clock config.sans state.files with
      | (some outcome, files) =>
        { state with
          files := files
          last := some (ca.authority env).issuer
          started := some (ca, outcome) }
      | (none, files) => { state with files := files, started := none }

/-- The state after an operation. -/
def step (state : ListenerState) : ListenerOp → ListenerState
  | .start elapsed config =>
    { state with clock := state.clock + elapsed }.startListener env config
  | .loseCert => { state with files := { state.files with cert := .missing }, started := none }
  | .loseKey => { state with files := { state.files with keyExists := false }, started := none }

end ListenerState

/-! ## Kept certificates -/

/-- Agents that pin the chain accept the certificate: its issuer is pinned, and it is valid now. -/
def ServerCert.AcceptedBy (cert : ServerCert) (chain : List CaIdentity) (now : Nat) : Prop :=
  cert.issuer ∈ chain ∧ cert.notBefore ≤ now ∧ now ≤ cert.notAfter

instance (cert : ServerCert) (chain : List CaIdentity) (now : Nat) :
    Decidable (cert.AcceptedBy chain now) :=
  inferInstanceAs (Decidable (_ ∧ _))

namespace ListenerState

variable (env : X509Env)

/-- A certificate that a start has kept is signed by the CA that issues, is valid for another thirty
days, and is accepted by agents that pin the current chain. -/
def Chains (state : ListenerState) : Prop :=
  ∀ ca, state.started = some (ca, .reused) →
    ∃ cert, state.files.cert = .cert cert ∧ cert.issuer = (ca.authority env).issuer ∧
      state.clock + 30 * 24 * 3600 < cert.notAfter ∧
      cert.AcceptedBy (ca.caChainForAgents env) state.clock

/-- A start that keeps the certificate has the CA of the last start. -/
def KeepsCa (state : ListenerState) (op : ListenerOp) : Prop :=
  ∀ ca, (state.step env op).started = some (ca, .reused) →
    state.last = some (ca.authority env).issuer

/-- The certificate on disk is of the last start. -/
def OfLastStart (state : ListenerState) : Prop :=
  ∀ cert, state.files.cert = .cert cert →
    state.last = some cert.issuer ∧ cert.notBefore ≤ state.clock

end ListenerState

section Starts

variable {env : X509Env} {ca : LoadedCa} {now : Nat} {sans : List String}

/-- What `ensure_agent_listener_cert` has seen of a certificate that it keeps. -/
theorem notAfter_of_reusable {file : CertFile} (h : fileReusable env ca now sans file = some true) :
    ∃ cert, file = .cert cert ∧ now + 30 * 24 * 3600 < cert.notAfter := by
  cases file with
  | missing => cases h
  | unparsable => cases h
  | cert cert =>
    refine ⟨cert, rfl, ?_⟩
    by_contra hnot
    have hlimit : cert.notAfter ≤ now + 30 * 24 * 3600 := by omega
    unfold fileReusable existingCertReusable at h
    dsimp only at h
    rw [if_pos hlimit] at h
    split at h
    next => cases h
    next => simp at h

theorem issuer_of_issued {cert : ServerCert} (h : issueServerCert env ca now sans = some cert) :
    cert.issuer = (ca.authority env).issuer ∧ cert.notBefore ≤ now := by
  unfold issueServerCert at h
  dsimp only at h
  split at h
  next =>
    cases h
    exact ⟨rfl, Nat.sub_le _ _⟩
  next => cases h

/-- What a start can do: end early, keep the certificate, or write a new one. -/
inductive Started (env : X509Env) (state : ListenerState) : ListenerState → Prop where
  | ended : Started env state { state with started := none }
  | reused (ca : LoadedCa) (cert : ServerCert) (hcert : state.files.cert = .cert cert)
      (hvalid : state.clock + 30 * 24 * 3600 < cert.notAfter) :
      Started env state { state with
        last := some (ca.authority env).issuer
        started := some (ca, .reused) }
  | issued (ca : LoadedCa) (cert : ServerCert) (hissuer : cert.issuer = (ca.authority env).issuer)
      (hbegun : cert.notBefore ≤ state.clock) :
      Started env state { state with
        files := ⟨.cert cert, true⟩
        last := some (ca.authority env).issuer
        started := some (ca, .issued) }

theorem started_startListener (state : ListenerState) (config : StartConfig) :
    Started env state (state.startListener env config) := by
  unfold ListenerState.startListener
  cases config.load state.clock with
  | none => exact .ended
  | some ca =>
    dsimp only
    by_cases hsans : config.sans = []
    · rw [if_pos hsans]
      exact .ended
    · rw [if_neg hsans]
      unfold ensureAgentListenerCert
      by_cases hkeep : fileReusable env ca state.clock config.sans state.files.cert = some true ∧
          state.files.keyExists = true
      · rw [if_pos hkeep]
        obtain ⟨cert, hcert, hvalid⟩ := notAfter_of_reusable hkeep.1
        exact .reused ca cert hcert hvalid
      · rw [if_neg hkeep]
        cases hissue : issueServerCert env ca state.clock config.sans with
        | none => exact .ended
        | some cert =>
          obtain ⟨hissuer, hbegun⟩ := issuer_of_issued hissue
          exact .issued ca cert hissuer hbegun

theorem Started.ofLastStart {state after : ListenerState} (h : Started env state after)
    (hlast : state.OfLastStart) (hchains : after.Chains env) : after.OfLastStart := by
  cases h with
  | ended => exact hlast
  | reused ca cert hcert hvalid =>
    intro kept hkept
    obtain ⟨chained, hchained, hissuer, -, -, hbegun, -⟩ := hchains ca rfl
    cases hkept.symm.trans hchained
    exact ⟨congrArg some hissuer.symm, hbegun⟩
  | issued ca cert hissuer hbegun =>
    intro kept hkept
    cases hkept
    exact ⟨congrArg some hissuer.symm, hbegun⟩

/-- A certificate of the last start chains if and only if that start had the CA of this one. -/
theorem Started.chains_iff {state after : ListenerState} (h : Started env state after)
    (hlast : state.OfLastStart) : after.Chains env ↔
      ∀ ca, after.started = some (ca, .reused) → state.last = some (ca.authority env).issuer := by
  cases h with
  | ended =>
    refine iff_of_true ?_ ?_
    · intro ca hstarted
      cases hstarted
    · intro ca hstarted
      cases hstarted
  | reused ca cert hcert hvalid =>
    obtain ⟨hsigner, hbegun⟩ := hlast cert hcert
    constructor
    · intro hchains other hstarted
      cases hstarted
      obtain ⟨kept, hkept, hissuer, -⟩ := hchains ca rfl
      cases hcert.symm.trans hkept
      rw [hsigner, hissuer]
    · intro hsame other hstarted
      cases hstarted
      have hissuer : cert.issuer = (ca.authority env).issuer :=
        Option.some.inj (hsigner.symm.trans (hsame ca rfl))
      refine ⟨cert, hcert, hissuer, hvalid, ?_, hbegun, Nat.le_of_lt ?_⟩
      · rw [hissuer]
        exact ca.issuer_mem_caChainForAgents env
      · exact Nat.lt_of_le_of_lt (Nat.le_add_right _ _) hvalid
  | issued ca cert hissuer hbegun =>
    refine iff_of_true ?_ ?_
    · intro other hstarted
      cases hstarted
    · intro other hstarted
      cases hstarted

namespace ListenerState

variable {state : ListenerState}

theorem OfLastStart.wait (h : state.OfLastStart) (elapsed : Nat) :
    { state with clock := state.clock + elapsed }.OfLastStart := by
  intro cert hcert
  obtain ⟨hlast, hbegun⟩ := h cert hcert
  exact ⟨hlast, Nat.le_add_right_of_le hbegun⟩

theorem OfLastStart.step (h : state.OfLastStart) (op : ListenerOp)
    (hchains : (state.step env op).Chains env) : (state.step env op).OfLastStart := by
  cases op with
  | start elapsed config =>
    exact (started_startListener _ config).ofLastStart (h.wait elapsed) hchains
  | loseCert =>
    intro cert hcert
    cases hcert
  | loseKey => exact h

theorem OfLastStart.chains_step_iff (h : state.OfLastStart) (op : ListenerOp) :
    (state.step env op).Chains env ↔ state.KeepsCa env op := by
  cases op with
  | start elapsed config => exact (started_startListener _ config).chains_iff (h.wait elapsed)
  | loseCert =>
    refine iff_of_true ?_ ?_
    · intro ca hstarted
      cases hstarted
    · intro ca hstarted
      cases hstarted
  | loseKey =>
    refine iff_of_true ?_ ?_
    · intro ca hstarted
      cases hstarted
    · intro ca hstarted
      cases hstarted

end ListenerState

end Starts

/-- **Kept certificates.** For every sequence of starts with any configurations, and of files that
are lost between them: every certificate that a start keeps is signed by the CA that issues then, is
valid for another thirty days, and is accepted by agents that pin the chain of that start, if and
only if every start that keeps the certificate has the CA, name and key, of the last start. -/
theorem kept_cert_chains_iff (env : X509Env) (clock : Nat) (ops : List ListenerOp) :
    Runs.Throughout (ListenerState.step env) (ListenerState.Chains env) (.install clock) ops ↔
      Runs.Meets (ListenerState.step env) (ListenerState.KeepsCa env) (.install clock) ops := by
  have hinstall : (ListenerState.install clock).Chains env ∧
      (ListenerState.install clock).OfLastStart := by
    refine ⟨?_, ?_⟩
    · intro ca hstarted
      cases hstarted
    · intro cert hcert
      cases hcert
  -- While certificates chain, the one on disk is of the last start.
  have hboth : Runs.Throughout (ListenerState.step env) (ListenerState.Chains env)
      (.install clock) ops ↔ Runs.Throughout (ListenerState.step env)
        (fun state => state.Chains env ∧ state.OfLastStart) (.install clock) ops := by
    constructor
    · exact Runs.throughout_of_step
        (fun _ op hinv hchains => ⟨hchains, hinv.2.step op hchains⟩) hinstall
    · intro h n
      exact (h n).1
  rw [hboth]
  refine Runs.throughout_iff_meets (fun state op hinv _ => ?_) hinstall fun _ _ => trivial
  rw [← hinv.2.chains_step_iff op]
  exact and_iff_left_of_imp (hinv.2.step op)

/-- Names whose text is their common name, and no addresses. -/
def plainNames : X509Env where
  commonName := some
  rootSubject := "Firewall Manager Root CA"
  rootSubject_cn := rfl
  parseIp := fun _ => none
  validDns := fun _ => true

/-- A sub-CA with the given key below an upstream root. -/
def subCaFiles (key : List UInt8) : IssuingFiles where
  key := some key
  chain := [
    some ⟨"Issuing CA", "Upstream Root", key, [1], cons_ne_nil _ _, 0, 4000000000, true,
      some ⟨true, true⟩⟩,
    some ⟨"Upstream Root", "Upstream Root", [9], [2], cons_ne_nil _ _, 0, 4000000000, true,
      some ⟨true, true⟩⟩]

/-- A start with that sub-CA. -/
def startWithSubCa (elapsed : Nat) (key : List UInt8) : ListenerOp :=
  .start elapsed ⟨[0], some (subCaFiles key), ["manager.example"]⟩

/-- A day after the first start the sub-CA has a new key under its old name. The start keeps the
certificate that the old key has signed, and agents that pin the new chain refuse it. -/
theorem rekeyed_sub_ca_kept :
    (Runs.run (ListenerState.step plainNames) (.install 0)
        [startWithSubCa 0 [2], startWithSubCa 86400 [3]]).files.cert =
      .cert ⟨⟨"Issuing CA", [2]⟩, 0, 31536000, some [.dns "manager.example"]⟩ ∧
      ((Runs.run (ListenerState.step plainNames) (.install 0)
        [startWithSubCa 0 [2], startWithSubCa 86400 [3]]).started.map fun started =>
          (started.2, started.1.caChainForAgents plainNames)) =
        some (.reused, [⟨"Issuing CA", [3]⟩, ⟨"Upstream Root", [9]⟩]) ∧
      ¬ (⟨⟨"Issuing CA", [2]⟩, 0, 31536000, some [.dns "manager.example"]⟩ :
        ServerCert).AcceptedBy [⟨"Issuing CA", [3]⟩, ⟨"Upstream Root", [9]⟩] 86400 := by
  decide +kernel

/-! ## A second call -/

/-- Canonical texts of addresses are read as themselves. -/
structure IpText extends X509Env where
  parseIp_canonical : ∀ san ip, parseIp san = some ip → parseIp ip = some ip

/-- No address stands before a DNS name. -/
def NamesFirst (env : X509Env) (sans : List String) : Prop :=
  sans.Pairwise fun a b => env.parseIp b = none → env.parseIp a = none

theorem names_then_addresses_iff (env : IpText) (sans : List String) :
    (sans.filter fun san => (env.parseIp san).isNone) ++ sans.filterMap env.parseIp =
      canonicalSans env.toX509Env sans ↔ NamesFirst env.toX509Env sans := by
  unfold canonicalSans NamesFirst
  induction sans with
  | nil => simp
  | cons san sans ih =>
    cases hsan : env.parseIp san with
    | none => simp [hsan, ih]
    | some ip =>
      rw [pairwise_cons, ← ih]
      cases hnames : sans.filter fun san => (env.parseIp san).isNone with
      | nil =>
        have hall : ∀ other ∈ sans, env.parseIp other ≠ none := by simpa using hnames
        simpa [hsan, hnames] using fun _ => hall
      | cons name names =>
        have hmem : name ∈ sans.filter fun san => (env.parseIp san).isNone := by simp [hnames]
        obtain ⟨hmem, hname⟩ : name ∈ sans ∧ env.parseIp name = none := by simpa using hmem
        refine iff_of_false ?_ ?_
        · have hne : name ≠ ip := by
            rintro rfl
            simp [env.parseIp_canonical san name hsan] at hname
          simp [hsan, hnames, hne]
        · intro hfirst
          simp [hfirst.1 name hmem hname] at hsan

theorem mapM_text_map {wrap : String → GeneralName} (hwrap : ∀ san, (wrap san).text? = some san)
    (sans : List String) : (sans.map wrap).mapM GeneralName.text? = some sans := by
  induction sans with
  | nil => rfl
  | cons san sans ih =>
    rw [map_cons, mapM_cons, hwrap, ih]
    rfl

theorem mapM_text_issued (dns ips : List String) :
    (dns.map GeneralName.dns ++ ips.map GeneralName.ip).mapM GeneralName.text? =
      some (dns ++ ips) := by
  rw [mapM_append, mapM_text_map fun _ => rfl, mapM_text_map fun _ => rfl]
  rfl

theorem reusable_issued_iff (env : IpText) {ca : LoadedCa} {now elapsed : Nat} {sans : List String}
    {cert : ServerCert} (hsans : sans ≠ []) (helapsed : elapsed < 335 * 24 * 3600)
    (h : issueServerCert env.toX509Env ca now sans = some cert) :
    fileReusable env.toX509Env ca (now + elapsed) sans (.cert cert) = some true ↔
      (env.commonName (ca.authority env.toX509Env).issuer.subject).isSome = true ∧
        NamesFirst env.toX509Env sans := by
  have hne : ¬ ((sans.filter fun san => (env.parseIp san).isNone).map GeneralName.dns ++
      (sans.filterMap env.parseIp).map GeneralName.ip = []) := by
    obtain ⟨san, hsan⟩ := exists_mem_of_ne_nil sans hsans
    intro hnil
    simp only [append_eq_nil_iff, map_eq_nil_iff, filter_eq_nil_iff,
      filterMap_eq_nil_iff] at hnil
    have hname := hnil.2 san hsan
    simpa [hname] using hnil.1 san hsan
  rw [← names_then_addresses_iff]
  simp only [issueServerCert, if_neg hne, Option.ite_none_right_eq_some, Option.some.injEq] at h
  obtain ⟨-, rfl⟩ := h
  have hvalid : ¬ now + 365 * 24 * 3600 ≤ now + elapsed + 30 * 24 * 3600 := by omega
  simp only [fileReusable, existingCertReusable, certSanStrings, Option.bind_some, mapM_text_issued,
    if_neg hvalid]
  cases hcn : env.commonName (ca.authority env.toX509Env).issuer.subject with
  | none => simp
  | some cn =>
    have hissuer : cn = ca.issuingSubjectCn env.toX509Env := by
      unfold LoadedCa.issuingSubjectCn
      unfold LoadedCa.authority CertAuthority.issuer at hcn
      cases himported : ca.imported with
      | none =>
        rw [himported] at hcn
        exact Option.some.inj (hcn.symm.trans env.rootSubject_cn)
      | some imported =>
        rw [himported] at hcn
        exact (congrArg (·.getD "") hcn).symm
    simp [hissuer]

/-- A call after one that has issued a certificate keeps it, less than 335 days later, if and only
if the subject of the CA has a common name and no address stands before a DNS name. -/
theorem listener_cert_kept_iff (env : IpText) (ca : LoadedCa) (now elapsed : Nat)
    {sans : List String} (files : ListenerFiles) {issued : ListenerFiles} (hsans : sans ≠ [])
    (helapsed : elapsed < 335 * 24 * 3600)
    (h : ensureAgentListenerCert env.toX509Env ca now sans files = (some .issued, issued)) :
    ensureAgentListenerCert env.toX509Env ca (now + elapsed) sans issued = (some .reused, issued) ↔
      (env.commonName (ca.authority env.toX509Env).issuer.subject).isSome = true ∧
        NamesFirst env.toX509Env sans := by
  obtain ⟨cert, hcert, rfl⟩ : ∃ cert, issueServerCert env.toX509Env ca now sans = some cert ∧
      issued = ⟨.cert cert, true⟩ := by
    unfold ensureAgentListenerCert at h
    split at h
    next => cases h
    next =>
      split at h
      next cert hcert => exact ⟨cert, hcert, (Prod.mk.inj h).2.symm⟩
      next => cases h
  rw [← reusable_issued_iff env hsans helapsed hcert, ensureAgentListenerCert]
  split
  next hkeep => simpa using hkeep.1
  next hkeep =>
    rw [and_iff_left rfl] at hkeep
    refine iff_of_false ?_ hkeep
    split <;> simp

/-- One address, which is its own text. -/
def oneAddress : IpText where
  commonName := some
  rootSubject := "Firewall Manager Root CA"
  rootSubject_cn := rfl
  parseIp := fun san => if san = "10.0.0.1" then some san else none
  validDns := fun _ => true
  parseIp_canonical := by
    intro san ip h
    obtain ⟨rfl, htext⟩ := Option.ite_none_right_eq_some.mp h
    obtain rfl := Option.some.inj htext
    rfl

/-- A manager that is configured by its address and then its name gets a new certificate at every
start. -/
theorem address_first_reissued :
    ∃ issued,
      ensureAgentListenerCert oneAddress.toX509Env ⟨[0], none⟩ 0 ["10.0.0.1", "manager.example"]
          ⟨.missing, false⟩ = (some .issued, issued) ∧
        (ensureAgentListenerCert oneAddress.toX509Env ⟨[0], none⟩ 1
          ["10.0.0.1", "manager.example"] issued).1 = some .issued :=
  ⟨_, rfl, by decide +kernel⟩

theorem name_first_kept :
    ∃ issued,
      ensureAgentListenerCert oneAddress.toX509Env ⟨[0], none⟩ 0 ["manager.example", "10.0.0.1"]
          ⟨.missing, false⟩ = (some .issued, issued) ∧
        ensureAgentListenerCert oneAddress.toX509Env ⟨[0], none⟩ (0 + 1)
          ["manager.example", "10.0.0.1"] issued = (some .reused, issued) := by
  refine ⟨_, rfl, ?_⟩
  refine (listener_cert_kept_iff oneAddress ⟨[0], none⟩ 0 1 ⟨.missing, false⟩ (cons_ne_nil _ _)
    (by decide) rfl).mpr ⟨rfl, ?_⟩
  simp [NamesFirst, oneAddress]

end FirewallManager
