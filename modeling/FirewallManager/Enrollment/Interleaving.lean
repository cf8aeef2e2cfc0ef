import FirewallManager.Enrollment.Handlers
import FirewallManager.Lib.Calls
import Mathlib.Data.List.Induction

/-!
# Enrolment calls at the same time

`EnrollState` has the tables that all calls share and the calls that were made. A step starts a call
or takes one over its next statement, so a run is an interleaving of any number of submissions,
approvals, denials and polls, with tokens issued and revoked in between.

A submission reads whether its token is used, and marks it as used two statements later. The two are
not one transaction, and the mark is not guarded. `tokenSeen_run` says what a submission knows of
its token on its way. `single_use_iff` says that a token serves two submissions exactly when both
were between their check and their mark at one moment.
-/

namespace FirewallManager

open List

/-- The tables, the map of approved bundles, and the calls. -/
structure EnrollState where
  clock : Nat
  store : EnrollStore
  approved : Table ApprovedEntry.pollingHash
  submits : List SubmitCall
  approvals : List ApproveCall
  polls : List PollCall

/-- The steps of the handlers. The ones with `Next` name the call that goes on. -/
inductive EnrollAction where
  | createToken (user : AuthUser) (token : String) (req : CreateTokenRequest)
  | revokeToken (user : AuthUser) (hash : String)
  | submit (req : SubmitEnrollmentRequest)
  | submitNext (call : Nat) (polling id : Uuid)
  | approve (user : AuthUser) (id : Uuid)
  | approveNext (call : Nat) (draws : ApprovalDraws) (interval : Int)
  | deny (user : AuthUser) (id : Uuid)
  | poll (token : String)
  | pollNext (call : Nat)
  deriving DecidableEq, Repr

/-- A step, and the time that has passed since the one before. -/
structure EnrollStep where
  elapsed : Nat
  action : EnrollAction
  deriving DecidableEq, Repr

namespace EnrollState

/-- What a step does at its time. A step of a call that was not made does nothing. -/
def act (env : EnrollEnv) (state : EnrollState) : EnrollAction → EnrollState
  | .createToken user token req =>
    { state with store := (createToken env user state.clock token req state.store).2 }
  | .revokeToken user hash =>
    { state with store := (revokeToken user state.clock hash state.store).2 }
  | .submit req =>
    { state with
      submits := state.submits ++ [⟨req, submitStart env state.clock req state.store⟩] }
  | .submitNext i polling id =>
    match state.submits[i]? with
    | none => state
    | some call =>
      let next := submitNext env state.clock polling id call state.store
      { state with
        store := next.2
        submits := state.submits.set i ⟨call.request, next.1⟩ }
  | .approve user id =>
    { state with
      approvals := state.approvals ++ [⟨user, id, approveStart user id state.store⟩] }
  | .approveNext i draws interval =>
    match state.approvals[i]? with
    | none => state
    | some call =>
      let next := approveNext env state.clock draws interval call state.store state.approved
      { state with
        store := next.2.1
        approved := next.2.2
        approvals := state.approvals.set i ⟨call.user, call.requestId, next.1⟩ }
  | .deny user id => { state with store := (denyEnrollment user id state.store).2 }
  | .poll token =>
    let next := pollStart env token state.approved
    { state with
      approved := next.2
      polls := state.polls ++ [⟨token, next.1⟩] }
  | .pollNext i =>
    match state.polls[i]? with
    | none => state
    | some call =>
      { state with
        polls := state.polls.set i
          ⟨call.token, pollNext env state.clock call state.store⟩ }

/-- Let time pass. -/
def wait (state : EnrollState) (elapsed : Nat) : EnrollState :=
  { state with clock := state.clock + elapsed }

/-- A state in which no call has been made yet. -/
def quiet (clock : Nat) (store : EnrollStore) (approved : Table ApprovedEntry.pollingHash) :
    EnrollState :=
  ⟨clock, store, approved, [], [], []⟩

end EnrollState

section Frame

variable (env : EnrollEnv) (state : EnrollState)

theorem EnrollState.act_submitNext_frame (i : Nat) (polling id : Uuid) :
    (state.act env (.submitNext i polling id)).approvals = state.approvals ∧
      (state.act env (.submitNext i polling id)).approved = state.approved ∧
      (state.act env (.submitNext i polling id)).polls = state.polls := by
  unfold EnrollState.act
  dsimp only
  split <;> exact ⟨rfl, rfl, rfl⟩

/-- The second step of a poll touches the polls alone. -/
theorem EnrollState.act_pollNext_frame (i : Nat) :
    (state.act env (.pollNext i)).store = state.store ∧
      (state.act env (.pollNext i)).submits = state.submits ∧
      (state.act env (.pollNext i)).approvals = state.approvals ∧
      (state.act env (.pollNext i)).approved = state.approved := by
  unfold EnrollState.act
  dsimp only
  split <;> exact ⟨rfl, rfl, rfl, rfl⟩

end Frame

/-- The state after a step. -/
def enrollStep (env : EnrollEnv) (state : EnrollState) (step : EnrollStep) : EnrollState :=
  (state.wait step.elapsed).act env step.action

section Tokens

/-- The token with the hash is marked as used. -/
def EnrollStore.Used (hash : String) (store : EnrollStore) : Prop :=
  ∃ row ∈ store.tokens.rows, row.tokenHash = hash ∧ row.usedAt.isSome = true

/-- What no step undoes: a token stays in the table, and a used one stays used. -/
structure EnrollStore.TokensGrow (store store' : EnrollStore) : Prop where
  has : ∀ hash, store.tokens.has hash = true → store'.tokens.has hash = true
  used : ∀ hash, store.Used hash → store'.Used hash

variable {env : EnrollEnv} {store store' : EnrollStore}

theorem EnrollStore.tokensGrow_of_eq (h : store'.tokens = store.tokens) :
    store.TokensGrow store' := by
  constructor
  · intro hash hhas
    rw [h]
    exact hhas
  · rintro hash ⟨row, hrow, hused⟩
    exact ⟨row, h ▸ hrow, hused⟩

theorem EnrollStore.tokensGrow_update (store : EnrollStore) (cond : EnrollToken → Bool)
    (change : EnrollToken → EnrollToken) (hkey : ∀ row, (change row).tokenHash = row.tokenHash)
    (hused : ∀ row, row.usedAt.isSome = true → (change row).usedAt.isSome = true) :
    store.TokensGrow { store with tokens := store.tokens.update cond change hkey } := by
  constructor
  · intro hash hhas
    rw [Table.has_update]
    exact hhas
  · rintro hash ⟨row, hrow, hhash, hmarked⟩
    refine ⟨_, mem_map_of_mem hrow, ?_⟩
    split
    · exact ⟨(hkey row).trans hhash, hused row hmarked⟩
    · exact ⟨hhash, hmarked⟩

theorem tokensGrow_createToken (user : AuthUser) (now : Nat) (token : String)
    (req : CreateTokenRequest) :
    store.TokensGrow (createToken env user now token req store).2 := by
  unfold createToken
  split
  · exact EnrollStore.tokensGrow_of_eq rfl
  · split
    · exact EnrollStore.tokensGrow_of_eq rfl
    · split
      next => exact EnrollStore.tokensGrow_of_eq rfl
      next tokens hinsert =>
        have hrows := (Table.insert?_eq_some_iff.mp hinsert).2
        constructor
        · intro hash hhas
          obtain ⟨row, hrow, hhash⟩ := Table.has_eq_true_iff.mp hhas
          refine Table.has_eq_true_iff.mpr ⟨row, ?_, hhash⟩
          rw [hrows]
          exact mem_append_left _ hrow
        · rintro hash ⟨row, hrow, hused⟩
          refine ⟨row, ?_, hused⟩
          rw [hrows]
          exact mem_append_left _ hrow

theorem tokensGrow_revokeToken (user : AuthUser) (now : Nat) (hash : String) :
    store.TokensGrow (revokeToken user now hash store).2 := by
  unfold revokeToken
  split
  · exact EnrollStore.tokensGrow_of_eq rfl
  · exact store.tokensGrow_update _ _ _ fun _ h => h

theorem tokensGrow_markUsed (now : Nat) (hash : String) :
    store.TokensGrow (store.markUsed now hash) :=
  store.tokensGrow_update _ _ _ fun _ _ => rfl

theorem used_markUsed {hash : String} (h : store.tokens.has hash = true) (now : Nat) :
    (store.markUsed now hash).Used hash := by
  obtain ⟨row, hrow, hhash⟩ := Table.has_eq_true_iff.mp h
  refine ⟨_, mem_map_of_mem hrow, ?_⟩
  rw [if_pos (by simp [hhash])]
  exact ⟨hhash, rfl⟩

theorem checkToken_ok {now : Nat} {hash : String} (h : checkToken now hash store = .ok ()) :
    store.tokens.has hash = true ∧ ¬ store.Used hash := by
  unfold checkToken at h
  cases hfind : store.tokens.find? hash with
  | none =>
    rw [hfind] at h
    cases h
  | some row =>
    obtain ⟨hrow, hhash⟩ := Table.mem_of_find? hfind
    refine ⟨Table.has_eq_true_iff.mpr ⟨row, hrow, hhash⟩, ?_⟩
    rintro ⟨other, hother, hsame, hused⟩
    rw [Table.eq_of_key_eq hother hrow (hsame.trans hhash.symm)] at hused
    rw [hfind] at h
    simp only [hused, if_true] at h
    cases h

end Tokens

section Phases

/-- The submission has checked its token and not marked it yet. -/
def SubmitPhase.isOpen : SubmitPhase → Bool
  | .checked => true
  | .matched => true
  | _ => false

/-- The submission has marked its token and has not failed. -/
def SubmitPhase.isPast : SubmitPhase → Bool
  | .marked => true
  | .returned _ => true
  | _ => false

variable {env : EnrollEnv} {store : EnrollStore}

/-- What one statement does to a submission and to the tokens. -/
inductive SubmitMove (env : EnrollEnv) (call : SubmitCall) (store : EnrollStore) :
    SubmitPhase → EnrollStore → Prop where
  | ended (phase : SubmitPhase) (hopen : phase.isOpen = false) (hpast : phase.isPast = false) :
      SubmitMove env call store phase store
  | matched (h : call.phase.isOpen = true) : SubmitMove env call store .matched store
  | mark (h : call.phase.isOpen = true) (now : Nat) :
      SubmitMove env call store .marked (store.markUsed now (env.hashToken call.request.token))
  | past (h : call.phase.isPast = true) (phase : SubmitPhase) (hopen : phase.isOpen = false)
      (store' : EnrollStore) (htokens : store'.tokens = store.tokens) :
      SubmitMove env call store phase store'

theorem submitMove_next (env : EnrollEnv) (now : Nat) (polling id : Uuid) (call : SubmitCall)
    (store : EnrollStore) :
    SubmitMove env call store (submitNext env now polling id call store).1
      (submitNext env now polling id call store).2 := by
  unfold submitNext
  dsimp only
  split
  next hphase =>
    cases checkFqdn (env.hashToken call.request.token) call.request.fqdn store with
    | ok => exact .matched (by rw [hphase]; rfl)
    | error e => exact .ended (.failed e) rfl rfl
  next hphase => exact .mark (by rw [hphase]; rfl) now
  next hphase =>
    split
    next requests hupsert =>
      exact .past (by rw [hphase]; rfl) (.returned polling) rfl { store with requests := requests }
        rfl
    next e hupsert => exact .ended (.failed e) rfl rfl
  next polling' hphase =>
    exact .past (by rw [hphase]; rfl) (.returned polling') rfl store rfl
  next e hphase => exact .ended (.failed e) rfl rfl

theorem SubmitMove.tokensGrow {call : SubmitCall} {phase : SubmitPhase} {store' : EnrollStore}
    (h : SubmitMove env call store phase store') : store.TokensGrow store' := by
  cases h with
  | ended => exact EnrollStore.tokensGrow_of_eq rfl
  | matched => exact EnrollStore.tokensGrow_of_eq rfl
  | mark h now => exact tokensGrow_markUsed now _
  | past h phase hopen store' htokens => exact EnrollStore.tokensGrow_of_eq htokens

section Move

variable {call : SubmitCall} {phase : SubmitPhase} {store' : EnrollStore}

theorem SubmitMove.wasOpen (h : SubmitMove env call store phase store')
    (hopen : phase.isOpen = true) : call.phase.isOpen = true := by
  cases h with
  | ended phase hclosed =>
    rw [hclosed] at hopen
    cases hopen
  | matched hbefore => exact hbefore
  | mark => cases hopen
  | past hbefore phase hclosed =>
    rw [hclosed] at hopen
    cases hopen

theorem SubmitMove.wasPast (h : SubmitMove env call store phase store')
    (hpast : phase.isPast = true) :
    call.phase.isPast = true ∨ call.phase.isOpen = true ∧
      (store.tokens.has (env.hashToken call.request.token) = true →
        store'.Used (env.hashToken call.request.token)) := by
  cases h with
  | ended phase hclosed hfailed =>
    rw [hfailed] at hpast
    cases hpast
  | matched => cases hpast
  | mark hbefore now => exact Or.inr ⟨hbefore, fun hhas => used_markUsed hhas now⟩
  | past hbefore => exact Or.inl hbefore

end Move

end Phases

section OneStep

variable {env : EnrollEnv} {state : EnrollState}

theorem tokens_approveNext (env : EnrollEnv) (now : Nat) (draws : ApprovalDraws) (interval : Int)
    (call : ApproveCall) (store : EnrollStore) (approved : Table ApprovedEntry.pollingHash) :
    (approveNext env now draws interval call store approved).2.1.tokens = store.tokens := by
  unfold approveNext
  split
  · split
    · rfl
    · rfl
  · split
    · rfl
    · split
      · rfl
      · rfl
  · dsimp only
    unfold approveSign
    split
    · rfl
    · split
      · rfl
      · split
        · rfl
        · rfl
  · rfl
  · rfl
  · rfl
  · rfl

/-- What a step does to the submissions and to the tokens. -/
inductive SubmitsMove (env : EnrollEnv) (state state' : EnrollState) : Prop where
  | same (hsubmits : state'.submits = state.submits) (hgrow : state.store.TokensGrow state'.store)
  | start (req : SubmitEnrollmentRequest)
      (hsubmits : state'.submits =
        state.submits ++ [⟨req, submitStart env state.clock req state.store⟩])
      (hstore : state'.store = state.store)
  | next (i : Nat) (call : SubmitCall) (phase : SubmitPhase)
      (hcall : state.submits[i]? = some call)
      (hsubmits : state'.submits = state.submits.set i ⟨call.request, phase⟩)
      (hmove : SubmitMove env call state.store phase state'.store)

theorem submitsMove_act (action : EnrollAction) :
    SubmitsMove env state (state.act env action) := by
  cases action with
  | createToken user token req => exact .same rfl (tokensGrow_createToken user _ token req)
  | revokeToken user hash => exact .same rfl (tokensGrow_revokeToken user _ hash)
  | submit req => exact .start req rfl rfl
  | submitNext i polling id =>
    unfold EnrollState.act
    dsimp only
    split
    next => exact .same rfl (EnrollStore.tokensGrow_of_eq rfl)
    next call hcall =>
      exact .next i call _ hcall rfl (submitMove_next env _ polling id call state.store)
  | approve user id => exact .same rfl (EnrollStore.tokensGrow_of_eq rfl)
  | approveNext i draws interval =>
    unfold EnrollState.act
    dsimp only
    split
    next => exact .same rfl (EnrollStore.tokensGrow_of_eq rfl)
    next call hcall =>
      exact .same rfl (EnrollStore.tokensGrow_of_eq (tokens_approveNext env _ draws interval
        call state.store state.approved))
  | deny user id =>
    refine .same rfl (EnrollStore.tokensGrow_of_eq ?_)
    show (denyEnrollment user id state.store).2.tokens = state.store.tokens
    unfold denyEnrollment
    split
    · rfl
    · rfl
  | poll token => exact .same rfl (EnrollStore.tokensGrow_of_eq rfl)
  | pollNext i =>
    obtain ⟨hstore, hsubmits, -⟩ := state.act_pollNext_frame env i
    exact .same hsubmits (EnrollStore.tokensGrow_of_eq (congrArg EnrollStore.tokens hstore))

theorem submitsMove_step (step : EnrollStep) :
    SubmitsMove env (state.wait step.elapsed) (enrollStep env state step) :=
  submitsMove_act step.action

end OneStep

section SingleUse

/-- A submission on its way has its token in the table, and used once it has marked it. -/
def EnrollState.TokenSeen (env : EnrollEnv) (state : EnrollState) : Prop :=
  ∀ call ∈ state.submits,
    (call.phase.isOpen = true →
      state.store.tokens.has (env.hashToken call.request.token) = true) ∧
    (call.phase.isPast = true → state.store.Used (env.hashToken call.request.token))

variable {env : EnrollEnv} {state state' : EnrollState}

theorem tokenSeen_move (h : state.TokenSeen env) (hmove : SubmitsMove env state state') :
    state'.TokenSeen env := by
  cases hmove with
  | same hsubmits hgrow =>
    intro call hcall
    rw [hsubmits] at hcall
    exact ⟨fun hopen => hgrow.has _ ((h call hcall).1 hopen),
      fun hpast => hgrow.used _ ((h call hcall).2 hpast)⟩
  | start req hsubmits hstore =>
    intro call hcall
    rw [hsubmits] at hcall
    rw [hstore]
    rcases mem_append.mp hcall with hold | hnew
    · exact h call hold
    · cases mem_singleton.mp hnew
      unfold submitStart
      cases hcheck : checkToken state.clock (env.hashToken req.token) state.store with
      | error e =>
        constructor
        · intro hopen
          cases hopen
        · intro hpast
          cases hpast
      | ok =>
        constructor
        · intro _
          exact (checkToken_ok hcheck).1
        · intro hpast
          cases hpast
  | next i call phase hcall hsubmits hmove =>
    have hgrow := hmove.tokensGrow
    have hself := h call (mem_of_getElem? hcall)
    intro other hother
    rw [hsubmits] at hother
    rcases mem_or_eq_of_mem_set hother with hold | rfl
    · exact ⟨fun hopen => hgrow.has _ ((h other hold).1 hopen),
        fun hpast => hgrow.used _ ((h other hold).2 hpast)⟩
    · constructor
      · intro hopen
        exact hgrow.has _ (hself.1 (hmove.wasOpen hopen))
      · intro hpast
        rcases hmove.wasPast hpast with hbefore | ⟨hbefore, hmarks⟩
        · exact hgrow.used _ (hself.2 hbefore)
        · exact hmarks (hself.1 hbefore)

/-- In every interleaving a submission on its way knows this of its token. -/
theorem tokenSeen_run {start : EnrollState} (hstart : start.submits = [])
    (steps : List EnrollStep) :
    (Runs.run (enrollStep env) start steps).TokenSeen env := by
  induction steps using List.reverseRecOn with
  | nil =>
    intro call hcall
    rw [Runs.run_nil, hstart] at hcall
    cases hcall
  | append_singleton steps step ih =>
    rw [Runs.run_concat]
    have hwait : ((Runs.run (enrollStep env) start steps).wait step.elapsed).TokenSeen env := ih
    exact tokenSeen_move hwait (submitsMove_step step)

/-- The submission presents the token and is between its check and its mark. -/
def EnrollState.Open (token : String) (i : Nat) (state : EnrollState) : Prop :=
  ∃ call, state.submits[i]? = some call ∧ call.request.token = token ∧ call.phase.isOpen = true

/-- The submission presents the token, has marked it and has not failed. -/
def EnrollState.Past (token : String) (i : Nat) (state : EnrollState) : Prop :=
  ∃ call, state.submits[i]? = some call ∧ call.request.token = token ∧ call.phase.isPast = true

/-- The submission presents the token and succeeded. -/
def EnrollState.Succeeded (token : String) (i : Nat) (state : EnrollState) : Prop :=
  ∃ req polling, state.submits[i]? = some ⟨req, .returned polling⟩ ∧ req.token = token

variable {token : String}

theorem EnrollState.Succeeded.past {i : Nat} (h : state.Succeeded token i) :
    state.Past token i := by
  obtain ⟨req, polling, hcall, htoken⟩ := h
  exact ⟨_, hcall, htoken, rfl⟩

theorem open_move {i : Nat} (hmove : SubmitsMove env state state') (h : state'.Open token i) :
    state.Open token i ∨ ¬ state.store.Used (env.hashToken token) := by
  obtain ⟨call, hcall, htoken, hopen⟩ := h
  cases hmove with
  | same hsubmits hgrow => exact Or.inl ⟨call, hsubmits ▸ hcall, htoken, hopen⟩
  | start req hsubmits hstore =>
    rw [hsubmits] at hcall
    rcases Calls.getElem?_start hcall with hold | ⟨-, rfl⟩
    · exact Or.inl ⟨call, hold, htoken, hopen⟩
    · right
      rw [← htoken]
      unfold submitStart at hopen
      cases hcheck : checkToken state.clock (env.hashToken req.token) state.store with
      | ok => exact (checkToken_ok hcheck).2
      | error e =>
        rw [hcheck] at hopen
        cases hopen
  | next j other phase hother hsubmits hmove =>
    left
    rw [hsubmits] at hcall
    rcases Calls.getElem?_put hcall with ⟨-, hold⟩ | ⟨rfl, rfl⟩
    · exact ⟨call, hold, htoken, hopen⟩
    · exact ⟨other, hother, htoken, hmove.wasOpen hopen⟩

theorem past_move {i : Nat} (hmove : SubmitsMove env state state') (h : state'.Past token i) :
    state.Past token i ∨ state.Open token i ∧
      ∀ j, i ≠ j → state'.submits[j]? = state.submits[j]? := by
  obtain ⟨call, hcall, htoken, hpast⟩ := h
  cases hmove with
  | same hsubmits hgrow => exact Or.inl ⟨call, hsubmits ▸ hcall, htoken, hpast⟩
  | start req hsubmits hstore =>
    left
    rw [hsubmits] at hcall
    rcases Calls.getElem?_start hcall with hold | ⟨-, rfl⟩
    · exact ⟨call, hold, htoken, hpast⟩
    · -- A submission that has only begun has marked nothing.
      unfold submitStart at hpast
      cases hcheck : checkToken state.clock (env.hashToken req.token) state.store with
      | ok =>
        rw [hcheck] at hpast
        cases hpast
      | error e =>
        rw [hcheck] at hpast
        cases hpast
  | next j other phase hother hsubmits hmove =>
    rw [hsubmits] at hcall
    rcases Calls.getElem?_put hcall with ⟨-, hold⟩ | ⟨rfl, rfl⟩
    · exact Or.inl ⟨call, hold, htoken, hpast⟩
    · rcases hmove.wasPast hpast with hbefore | ⟨hbefore, -⟩
      · exact Or.inl ⟨other, hother, htoken, hbefore⟩
      · refine Or.inr ⟨⟨other, hother, htoken, hbefore⟩, ?_⟩
        intro k hk
        rw [hsubmits, getElem?_set_ne hk]

/-- When the first submission has marked the token, the second is neither on its way nor past its
mark. -/
def EnrollState.Excludes (token : String) (i j : Nat) (state : EnrollState) : Prop :=
  state.Past token i → ¬ state.Open token j ∧ ¬ state.Past token j

/-- While two submissions are not both between their check and their mark, one excludes the
other. -/
theorem excludes_move {i j : Nat} (hij : i ≠ j) (hmove : SubmitsMove env state state')
    (hseen : state.TokenSeen env) (hi : state.Excludes token i j) (hj : state.Excludes token j i)
    (hnot : ¬ (state.Open token i ∧ state.Open token j)) : state'.Excludes token i j := by
  intro hpast
  rcases past_move hmove hpast with hbefore | ⟨hopen, hsame⟩
  · obtain ⟨hnotOpen, hnotPast⟩ := hi hbefore
    constructor
    · intro hother
      rcases open_move hmove hother with hold | hunused
      · exact hnotOpen hold
      · -- The second submission cannot have begun now: it would have found the token used.
        obtain ⟨call, hcall, htoken, hmarked⟩ := hbefore
        have hused := (hseen call (mem_of_getElem? hcall)).2 hmarked
        rw [htoken] at hused
        exact hunused hused
    · intro hother
      rcases past_move hmove hother with hold | ⟨hold, -⟩
      · exact hnotPast hold
      · exact hnotOpen hold
  · constructor
    · rintro ⟨call, hcall, hother⟩
      rw [hsame j hij] at hcall
      exact hnot ⟨hopen, call, hcall, hother⟩
    · rintro ⟨call, hcall, hother⟩
      rw [hsame j hij] at hcall
      exact (hj ⟨call, hcall, hother⟩).1 hopen

/-- The same over a whole run. -/
theorem excludes_run {i j : Nat} (hij : i ≠ j) {start : EnrollState} (hseen : start.TokenSeen env)
    (hi : start.Excludes token i j) (hj : start.Excludes token j i) (steps : List EnrollStep)
    (hnot : Runs.Throughout (enrollStep env)
      (fun state => ¬ (state.Open token i ∧ state.Open token j)) start steps) :
    (Runs.run (enrollStep env) start steps).Excludes token i j := by
  induction steps generalizing start with
  | nil => exact hi
  | cons step steps ih =>
    obtain ⟨hfirst, hrest⟩ := Runs.throughout_cons.mp hnot
    have hmove : SubmitsMove env (start.wait step.elapsed) (enrollStep env start step) :=
      submitsMove_step step
    have hwait : (start.wait step.elapsed).TokenSeen env := hseen
    have hnext := tokenSeen_move hwait hmove
    refine ih hnext ?_ ?_ hrest
    · exact excludes_move hij hmove hwait hi hj hfirst
    · exact excludes_move hij.symm hmove hwait hj hi fun h => hfirst h.symm

/-- **When a token is used once.** In any interleaving of submissions with each other and with all
other calls, at most one submission that presents the token succeeds if and only if no two that
succeed are between their check and their mark at the same moment. -/
theorem single_use_iff (env : EnrollEnv) (clock : Nat) (store : EnrollStore)
    (approved : Table ApprovedEntry.pollingHash) (steps : List EnrollStep) (token : String) :
    (∀ i j, (Runs.run (enrollStep env) (.quiet clock store approved) steps).Succeeded token i →
        (Runs.run (enrollStep env) (.quiet clock store approved) steps).Succeeded token j →
          i = j) ↔
      ∀ i j, (Runs.run (enrollStep env) (.quiet clock store approved) steps).Succeeded token i →
        (Runs.run (enrollStep env) (.quiet clock store approved) steps).Succeeded token j →
          i ≠ j → Runs.Throughout (enrollStep env)
            (fun state => ¬ (state.Open token i ∧ state.Open token j))
            (.quiet clock store approved) steps := by
  constructor
  · intro honce i j hi hj hij
    exact absurd (honce i j hi hj) hij
  · intro hapart i j hi hj
    by_contra hij
    have hempty (k : Nat) : ¬ (EnrollState.quiet clock store approved).Past token k := by
      rintro ⟨call, hcall, -⟩
      cases hcall
    have hseen : (EnrollState.quiet clock store approved).TokenSeen env := tokenSeen_run rfl []
    have hexcludes := excludes_run hij hseen (fun h => absurd h (hempty i))
      (fun h => absurd h (hempty j)) steps (hapart i j hi hj hij)
    exact (hexcludes hi.past).2 hj.past

end SingleUse

/-- An environment whose hash is the identity, for a CSR that is its own key. -/
def plainEnv : EnrollEnv where
  sha256 := id
  inetText := some
  csrKey := fun csr => some (Text.utf8 csr)
  managerAgentUrl := "https://manager:8443"

/-- A manager with one token, for the host `web`. -/
def oneToken : EnrollStore where
  tokens := .singleton ⟨plainEnv.hashToken "token", "web", 100, none, none⟩
  requests := .empty
  pki := oneEnrollment.db
  ca := oneEnrollment.ca

/-- Two submissions check the same token before either marks it, and both succeed. -/
theorem token_used_twice :
    ∃ steps i j, i ≠ j ∧
      (Runs.run (enrollStep plainEnv) (.quiet 0 oneToken .empty) steps).Succeeded "token" i ∧
        (Runs.run (enrollStep plainEnv) (.quiet 0 oneToken .empty) steps).Succeeded "token" j := by
  refine ⟨[⟨0, .submit ⟨"token", "first", "web", "10.0.0.1"⟩⟩,
    ⟨0, .submit ⟨"token", "second", "web", "10.0.0.2"⟩⟩, ⟨0, .submitNext 0 ⟨1⟩ ⟨2⟩⟩,
    ⟨0, .submitNext 0 ⟨1⟩ ⟨2⟩⟩, ⟨0, .submitNext 0 ⟨1⟩ ⟨2⟩⟩, ⟨0, .submitNext 1 ⟨3⟩ ⟨4⟩⟩,
    ⟨0, .submitNext 1 ⟨3⟩ ⟨4⟩⟩, ⟨0, .submitNext 1 ⟨3⟩ ⟨4⟩⟩], 0, 1, by decide, ?_, ?_⟩
  · exact ⟨⟨"token", "first", "web", "10.0.0.1"⟩, ⟨1⟩, by decide +kernel, rfl⟩
  · exact ⟨⟨"token", "second", "web", "10.0.0.2"⟩, ⟨3⟩, by decide +kernel, rfl⟩

end FirewallManager
