import FirewallManager.Ca.ListenerCert

/-!
# Imported chains

What `with_issuing_ca` looks at when it accepts a chain: the validity of every certificate, the
names from each one to the next, and the usage and the key of the first one. It does not look at
signatures, and not at what the certificates above the first one may do. `issuing_chain_iff` says
that a chain that was accepted is a chain exactly if these two are as they should be.
-/

namespace FirewallManager

open List

/-- The certificates of a chain that was loaded. -/
def ImportedCa.chain (imported : ImportedCa) : List CaCert :=
  imported.cert :: imported.upstream

/-- The last certificate of the chain. -/
def ImportedCa.terminal (imported : ImportedCa) : CaCert :=
  imported.chain.getLast (cons_ne_nil _ _)

/-- The signatures, from each certificate to the next one, and of the last one by itself. -/
def SignedThroughout (verifies : CaCert → List UInt8 → Prop) (imported : ImportedCa) : Prop :=
  imported.chain.IsChain (fun cert next => verifies cert next.publicKey) ∧
    verifies imported.terminal imported.terminal.publicKey

/-- A chain for a key, where `verifies` says which signatures are right. -/
structure ReallyChains (verifies : CaCert → List UInt8 → Prop) (now : Nat)
    (key : Option (List UInt8)) (imported : ImportedCa) : Prop where
  valid : ∀ cert ∈ imported.chain, cert.notBefore ≤ now ∧ now ≤ cert.notAfter
  names : imported.chain.IsChain fun cert next => cert.issuer = next.subject
  root : imported.terminal.issuer = imported.terminal.subject
  signed : SignedThroughout verifies imported
  signers : ∀ cert ∈ imported.chain, cert.isCa = true
  key : key = some imported.cert.publicKey
  usage : ∃ usage, imported.cert.keyUsage = some usage ∧ usage.keyCertSign = true ∧
    usage.crlSign = true

theorem exists_ok_of_bind {ε α β : Type} {x : Except ε α} {f : α → Except ε β} {b : β}
    (h : x >>= f = .ok b) : ∃ a, x = .ok a ∧ f a = .ok b := by
  cases x with
  | error e => cases h
  | ok a => exact ⟨a, rfl, h⟩

section Checks

variable {now place : Nat} {cert : CaCert}

theorem checkValidity_ok (h : checkValidity now place cert = .ok ()) :
    cert.notBefore ≤ now ∧ now ≤ cert.notAfter := by
  unfold checkValidity at h
  split at h
  next => cases h
  next hbegun =>
    split at h
    next => cases h
    next hended => exact ⟨Nat.le_of_not_lt hbegun, Nat.le_of_not_lt hended⟩

theorem loadUpstream_ok {blocks : List (Option CaCert)} {certs : List CaCert}
    (h : loadUpstream now place blocks = .ok certs) :
    ∀ cert ∈ certs, cert.notBefore ≤ now ∧ now ≤ cert.notAfter := by
  induction blocks generalizing place certs with
  | nil =>
    cases h
    simp
  | cons block blocks ih =>
    cases block with
    | none => cases h
    | some cert =>
      rw [loadUpstream] at h
      obtain ⟨_, hvalid, h⟩ := exists_ok_of_bind h
      obtain ⟨rest, hrest, h⟩ := exists_ok_of_bind h
      cases h
      exact forall_mem_cons.mpr ⟨checkValidity_ok hvalid, ih hrest⟩

theorem checkNames_ok {rest : List CaCert} (h : checkNames place cert rest = .ok ()) :
    ((cert :: rest).IsChain fun cert next => cert.issuer = next.subject) ∧
      ((cert :: rest).getLast (cons_ne_nil _ _)).issuer =
        ((cert :: rest).getLast (cons_ne_nil _ _)).subject := by
  induction rest generalizing place cert with
  | nil =>
    unfold checkNames at h
    split at h
    next => cases h
    next hroot => exact ⟨.singleton _, not_not.mp hroot⟩
  | cons next rest ih =>
    unfold checkNames at h
    split at h
    next => cases h
    next hlink =>
      obtain ⟨hchain, hroot⟩ := ih h
      exact ⟨.cons_cons (not_not.mp hlink) hchain, hroot⟩

theorem checkUsage_ok (h : checkUsage cert = .ok ()) :
    cert.isCa = true ∧ ∃ usage, cert.keyUsage = some usage ∧ usage.keyCertSign = true ∧
      usage.crlSign = true := by
  unfold checkUsage at h
  split at h
  next => cases h
  next hca =>
    split at h
    next => cases h
    next usage husage =>
      split at h
      next => cases h
      next hsign =>
        split at h
        next => cases h
        next hcrl =>
          exact ⟨by simpa using hca, usage, husage, by simpa using hsign, by simpa using hcrl⟩

end Checks

/-- The checks that an accepted chain has passed. -/
theorem withIssuingCa_ok {now : Nat} {files : IssuingFiles} {imported : ImportedCa}
    (h : withIssuingCa now files = .ok imported) :
    files.key = some imported.cert.publicKey ∧ checkValidity now 0 imported.cert = .ok () ∧
      checkUsage imported.cert = .ok () ∧
      (∃ blocks, loadUpstream now 1 blocks = .ok imported.upstream) ∧
      checkNames 0 imported.cert imported.upstream = .ok () := by
  unfold withIssuingCa at h
  split at h
  next => cases h
  next key hkey =>
    split at h
    next => cases h
    next => cases h
    next cert blocks hchain =>
      obtain ⟨_, hvalid, h⟩ := exists_ok_of_bind h
      obtain ⟨_, husage, h⟩ := exists_ok_of_bind h
      split at h
      next => cases h
      next hmatch =>
        obtain ⟨upstream, hupstream, h⟩ := exists_ok_of_bind h
        obtain ⟨_, hnames, h⟩ := exists_ok_of_bind h
        cases h
        exact ⟨hkey.trans (congrArg some (not_not.mp hmatch)), hvalid, husage,
          ⟨blocks, hupstream⟩, hnames⟩

/-- A chain that was accepted is a chain exactly if the signatures are right and every certificate
above the first one is one of a CA. -/
theorem issuing_chain_iff (verifies : CaCert → List UInt8 → Prop) {now : Nat}
    {files : IssuingFiles} {imported : ImportedCa} (h : withIssuingCa now files = .ok imported) :
    ReallyChains verifies now files.key imported ↔
      SignedThroughout verifies imported ∧ ∀ cert ∈ imported.upstream, cert.isCa = true := by
  obtain ⟨hkey, hvalid, husage, ⟨_, hupstream⟩, hnames⟩ := withIssuingCa_ok h
  obtain ⟨hca, husage⟩ := checkUsage_ok husage
  obtain ⟨hlinks, hroot⟩ := checkNames_ok hnames
  constructor
  · intro hchain
    exact ⟨hchain.signed, fun cert hcert => hchain.signers cert (mem_cons_of_mem _ hcert)⟩
  · rintro ⟨hsigned, hupstreamCa⟩
    exact {
      valid := forall_mem_cons.mpr ⟨checkValidity_ok hvalid, loadUpstream_ok hupstream⟩
      names := hlinks
      root := hroot
      signed := hsigned
      signers := forall_mem_cons.mpr ⟨hca, hupstreamCa⟩
      key := hkey
      usage := husage }

/-- The chain of the sub-CA `subCaFiles` with a root that may not sign. -/
def lookalikeRoot : IssuingFiles where
  key := some [2]
  chain := (subCaFiles [2]).chain.map (·.map fun cert =>
    if cert.subject = "Upstream Root" then { cert with publicKey := [8], isCa := false } else cert)

/-- The sub-CA was signed by the key `[9]`, and every root by its own key. -/
def signedByUpstream (cert : CaCert) (key : List UInt8) : Prop :=
  key = if cert.subject = "Upstream Root" then cert.publicKey else [9]

/-- The chain is accepted with another root of the same name, which did not sign the sub-CA and is
no CA. -/
theorem lookalike_root_accepted :
    ∃ imported, withIssuingCa 1 lookalikeRoot = .ok imported ∧
      ¬ ReallyChains signedByUpstream 1 lookalikeRoot.key imported ∧
      ¬ SignedThroughout signedByUpstream imported ∧
      ∃ cert ∈ imported.upstream, cert.isCa = false := by
  have hunsigned : ¬ signedByUpstream ⟨"Issuing CA", "Upstream Root", [2], [1],
      cons_ne_nil _ _, 0, 4000000000, true, some ⟨true, true⟩⟩ [8] := by
    simp [signedByUpstream]
  refine ⟨_, rfl, fun hchain => ?_, fun hsigned => ?_, _, mem_cons_self, rfl⟩
  · exact hunsigned hchain.signed.1.rel
  · exact hunsigned hsigned.1.rel

theorem sub_ca_chain_accepted :
    ∃ imported, withIssuingCa 1 (subCaFiles [2]) = .ok imported ∧
      ReallyChains signedByUpstream 1 (subCaFiles [2]).key imported := by
  refine ⟨_, rfl, (issuing_chain_iff signedByUpstream rfl).mpr ⟨⟨?_, rfl⟩, by decide⟩⟩
  exact .cons_cons rfl (.singleton _)

end FirewallManager
