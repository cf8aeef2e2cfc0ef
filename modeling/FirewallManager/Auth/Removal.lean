import FirewallManager.Auth.Accounts

/-!
# What the removal of a user ends

An admin removes a user by deleting the account or by setting it inactive. The middleware looks at
the row of the access token only. A delete takes that row along, and an inactive account keeps it:
`revoked_iff_deleted` says that an access token of a run is revoked at its end if and only if its
user was deleted after it was issued. `removed_loses_access_iff` says what this means for a removal
in the middle of a run.
-/

namespace FirewallManager

open List

/-- The access token in an answer, if it is one for the user. -/
def issuedTo (user : Uuid) (now : Nat) : Except AuthError LoginResponse → List IssuedToken
  | .ok response => if response.user.id = user then [⟨now, response.accessToken⟩] else []
  | .error _ => []

theorem mem_issuedTo {user : Uuid} {now : Nat} {answer : Except AuthError LoginResponse}
    {issued : IssuedToken} (h : issued ∈ issuedTo user now answer) :
    ∃ response, answer = .ok response ∧ response.user.id = user ∧
      issued = ⟨now, response.accessToken⟩ := by
  cases answer with
  | error refusal => cases h
  | ok response =>
    dsimp only [issuedTo] at h
    split at h
    next huser => exact ⟨response, rfl, huser, mem_singleton.mp h⟩
    next => cases h

/-- The access tokens for a user that a call issues. -/
def AccountCall.issuesTo (env : AccountEnv) (user : Uuid) (store : AuthStore) :
    AccountCall → List IssuedToken
  | .session (.login now draw body) =>
    issuedTo user now (login env.toAuthEnv now draw body store).1
  | .session (.refresh now draw body) =>
    issuedTo user now (refreshToken env.toAuthEnv now draw body store).1
  | _ => []

section Runs

variable (env : AccountEnv) (config : AuthConfig) (user : Uuid)

/-- The access tokens that a run issues to the user. -/
def tokensOf : AuthStore → List AccountCall → List IssuedToken
  | _, [] => []
  | store, call :: calls =>
    call.issuesTo env user store ++ tokensOf (accountStep env config store call) calls

/-- The run deletes the user. -/
def deletedIn : AuthStore → List AccountCall → Bool
  | _, [] => false
  | store, call :: calls =>
    decide (call.deleted env config store = some user) ||
      deletedIn (accountStep env config store call) calls

/-- The access tokens that a run issues to the user without deleting the user later. -/
def standingTokens : AuthStore → List AccountCall → List IssuedToken
  | _, [] => []
  | store, call :: calls =>
    (if deletedIn env config user (accountStep env config store call) calls then []
      else call.issuesTo env user store) ++
      standingTokens (accountStep env config store call) calls

/-- The user has no access after a run: no access token that the run issued to the user is accepted,
and no refresh token is served. -/
structure LosesAccess (now : Nat) (http : HttpRequest) (store : AuthStore)
    (calls : List AccountCall) : Prop where
  access : ∀ issued ∈ tokensOf env config user store calls,
    ¬ Accepts env.toAuthEnv config now (Runs.run (accountStep env config) store calls) http
      issued.accessToken
  refresh : ∀ draw : RefreshDraw,
    (Runs.run (accountStep env config) store calls).Unsalted env.toAuthEnv draw.salt →
      ∀ body response, (refreshToken env.toAuthEnv now draw body
        (Runs.run (accountStep env config) store calls)).1 ≠ .ok response

end Runs

/-- The two ways to remove a user. -/
inductive Removal where
  | delete
  | deactivate (body : UpdateUserRequest) (inactive : body.isActive = some false)

/-- The call of a removal. -/
def Removal.call (now : Nat) (request : HttpRequest) (target : Uuid) : Removal → AccountCall
  | .delete => .deleteUser now request target
  | .deactivate body _ => .updateUser now request target body

/-- The removal is answered without an error. -/
def Removal.Served (env : AccountEnv) (config : AuthConfig) (now : Nat) (request : HttpRequest)
    (target : Uuid) (store : AuthStore) : Removal → Prop
  | .delete => (serve env config now request (deleteUser target) store).1 = .ok ()
  | .deactivate body _ =>
    ∃ user, (serve env config now request (updateUser target body) store).1 = .ok user

/-- The id of an access token is in no row. -/
def AuthStore.Lacks (store : AuthStore) (jti : String) : Prop :=
  ∀ row ∈ store.tokens.rows, row.jti ≠ some jti

section Rows

variable {env : AccountEnv} {config : AuthConfig} {store : AuthStore} {jti : String}
  {row : RefreshToken} {user : Uuid}

theorem AuthStore.Lacks.isJtiRevoked (h : store.Lacks jti) : isJtiRevoked store jti = true := by
  have hnone : (store.tokens.select fun row => decide (row.jti = some jti)) = [] := by
    refine filter_eq_nil_iff.mpr ?_
    intro row hrow hfound
    exact h row hrow (of_decide_eq_true hfound)
  rw [FirewallManager.isJtiRevoked, hnone]
  rfl

theorem mem_tokens_sessionStep {call : SessionCall} (hcall : call.Fresh env.toAuthEnv store)
    (h : row ∈ (sessionStep env.toAuthEnv config store call).tokens.rows) :
    row ∈ store.tokens.rows ∨ ∃ id, call.jti = some id ∧ row.jti = some id.text := by
  cases call with
  | login now draw body =>
    rcases mem_tokens_login h with hold | ⟨userId, rfl⟩
    · exact Or.inl hold
    · exact Or.inr ⟨draw.jti, rfl, rfl⟩
  | refresh now draw body =>
    rw [sessionStep, refreshToken_of_fresh hcall.salt] at h
    exact Or.inl h
  | logout now salt request body => exact Or.inl h

variable {call : AccountCall}

/-- An id that is gone stays gone if no call draws it again. -/
theorem AuthStore.Lacks.accountStep (h : store.Lacks jti) (hcall : call.Fresh env store)
    (hother : ∀ session, call.session? = some session → ∀ id, session.jti = some id →
      id.text ≠ jti) :
    (accountStep env config store call).Lacks jti := by
  intro row hrow
  cases hsession : call.session? with
  | none =>
    rw [tokens_accountStep hsession] at hrow
    exact h row (mem_tokensWithout.mp hrow).1
  | some session =>
    cases call with
    | session other =>
      obtain rfl := Option.some.inj hsession
      rcases mem_tokens_sessionStep (hcall other rfl) hrow with hold | ⟨id, hid, hjti⟩
      · exact h row hold
      · rw [hjti]
        intro hsame
        exact hother other rfl id hid (Option.some.inj hsame)
    | _ => cases hsession

/-- An id that is gone stays gone if no call draws it again. -/
theorem AuthStore.HoldsRow.accountStep (h : store.HoldsRow jti row) (hcall : call.Fresh env store)
    (hdeleted : call.deleted env config store ≠ some row.userId) :
    (accountStep env config store call).HoldsRow jti row := by
  cases hsession : call.session? with
  | none =>
    have htokens : (FirewallManager.accountStep env config store call).tokens =
        store.tokensWithout (call.deleted env config store) := tokens_accountStep hsession
    refine ⟨?_, h.found, h.live, ?_⟩
    · rw [htokens]
      exact mem_tokensWithout.mpr ⟨h.mem, hdeleted⟩
    · intro other hmem hsame
      rw [htokens] at hmem
      exact h.unique other (mem_tokensWithout.mp hmem).1 hsame
  | some session =>
    cases call with
    | session other => exact h.sessionStep (hcall other rfl)
    | _ => cases hsession

theorem AuthStore.HoldsRow.lacks (h : store.HoldsRow jti row)
    (hdeleted : call.deleted env config store = some row.userId) :
    (FirewallManager.accountStep env config store call).Lacks jti := by
  have hsession : call.session? = none := by
    cases call with
    | session other => cases hdeleted
    | _ => rfl
  intro other hmem hsame
  rw [tokens_accountStep hsession] at hmem
  obtain ⟨hold, hkept⟩ := mem_tokensWithout.mp hmem
  rw [h.unique other hold hsame] at hkept
  exact hkept hdeleted

/-- No call of the run draws the id. -/
def NotDrawn (jti : String) (calls : List AccountCall) : Prop :=
  ∀ session ∈ calls.filterMap AccountCall.session?, ∀ id, session.jti = some id → id.text ≠ jti

variable {calls : List AccountCall}

theorem NotDrawn.cons (h : NotDrawn jti (call :: calls)) :
    (∀ session, call.session? = some session → ∀ id, session.jti = some id → id.text ≠ jti) ∧
      NotDrawn jti calls := by
  refine ⟨?_, ?_⟩
  · intro session hsession
    exact h session (mem_filterMap.mpr ⟨call, mem_cons_self, hsession⟩)
  · intro session hsession
    obtain ⟨other, hother, heq⟩ := mem_filterMap.mp hsession
    exact h session (mem_filterMap.mpr ⟨other, mem_cons_of_mem _ hother, heq⟩)

theorem AuthStore.Lacks.run (h : store.Lacks jti) (hfresh : FreshRun env store calls)
    (hdrawn : NotDrawn jti calls) :
    (Runs.run (FirewallManager.accountStep env config) store calls).Lacks jti := by
  induction calls generalizing store with
  | nil => exact h
  | cons call calls ih =>
    obtain ⟨hcall, hrest, -⟩ := hfresh.cons config
    obtain ⟨hother, hlater⟩ := hdrawn.cons
    exact ih (h.accountStep hcall hother) hrest hlater

theorem revoked_iff_deleted (h : store.HoldsRow jti row) (hfresh : FreshRun env store calls)
    (hdrawn : NotDrawn jti calls) :
    isJtiRevoked (Runs.run (FirewallManager.accountStep env config) store calls) jti =
      deletedIn env config row.userId store calls := by
  induction calls generalizing store with
  | nil => exact h.isJtiRevoked
  | cons call calls ih =>
    obtain ⟨hcall, hrest, -⟩ := hfresh.cons config
    obtain ⟨hother, hlater⟩ := hdrawn.cons
    show isJtiRevoked (Runs.run _ (FirewallManager.accountStep env config store call) calls) jti =
      _
    by_cases hdeleted : call.deleted env config store = some row.userId
    · rw [((h.lacks hdeleted).run hrest hlater).isJtiRevoked, deletedIn,
        decide_eq_true hdeleted, Bool.true_or]
    · rw [ih (h.accountStep hcall hdeleted) hrest hlater, deletedIn, decide_eq_false hdeleted,
        Bool.false_or]

theorem accepts_issuesTo {issued : IssuedToken} (hfresh : FreshRun env store (call :: calls))
    (hissued : issued ∈ call.issuesTo env user store) (now : Nat) (http : HttpRequest) :
    Accepts env.toAuthEnv config now
        (Runs.run (FirewallManager.accountStep env config) store (call :: calls)) http
        issued.accessToken ↔
      checkClientIp env.toAuthEnv config http = .ok () ∧
        now ≤ issued.issuedAt + accessTtlSecs + leewaySecs ∧
        deletedIn env config user (FirewallManager.accountStep env config store call) calls =
          false := by
  obtain ⟨hcall, hrest, hdistinct⟩ := hfresh.cons config
  cases call with
  | session session =>
    cases session with
    | login start draw body =>
      obtain ⟨response, hlogin, rfl, rfl⟩ := mem_issuedTo hissued
      obtain ⟨account, -, htoken, -⟩ := login_ok hlogin
      have hholds : (FirewallManager.accountStep env config store
          (.session (.login start draw body))).HoldsRow draw.jti.text
            (draw.row env.toAuthEnv start response.user.id) :=
        holdsRow_login (hcall _ rfl) hlogin
      have hdrawn : NotDrawn draw.jti.text calls := by
        intro later hlater id hid hsame
        exact hdistinct _ rfl draw.jti rfl later hlater
          (Uuid.text_injective hsame ▸ hid)
      have hrevoked : isJtiRevoked (Runs.run (FirewallManager.accountStep env config) store
          (.session (.login start draw body) :: calls)) draw.jti.text =
            deletedIn env config response.user.id _ calls :=
        revoked_iff_deleted hholds hrest hdrawn
      rw [accepts_issued_iff htoken, hrevoked]
    | refresh start draw body =>
      obtain ⟨response, hok, -⟩ := mem_issuedTo hissued
      rw [refreshToken_of_fresh (hcall _ rfl).salt] at hok
      cases hok
    | logout => cases hissued
  | _ => cases hissued

/-- All access tokens of a run are rejected after it if and only if those that stand have expired.
-/
theorem all_rejected_iff (hfresh : FreshRun env store calls) {now : Nat} {http : HttpRequest}
    (hip : checkClientIp env.toAuthEnv config http = .ok ()) :
    (∀ issued ∈ tokensOf env config user store calls,
        ¬ Accepts env.toAuthEnv config now
          (Runs.run (FirewallManager.accountStep env config) store calls) http
          issued.accessToken) ↔
      ∀ issued ∈ standingTokens env config user store calls,
        issued.issuedAt + accessTtlSecs + leewaySecs < now := by
  induction calls generalizing store with
  | nil => simp [tokensOf, standingTokens]
  | cons call calls ih =>
    obtain ⟨-, hrest, -⟩ := hfresh.cons config
    rw [tokensOf, standingTokens, forall_mem_append, forall_mem_append]
    refine and_congr ?_ (ih hrest)
    cases hdeleted : deletedIn env config user
        (FirewallManager.accountStep env config store call) calls with
    | true =>
      rw [if_pos rfl]
      refine iff_of_true ?_ fun issued hissued => absurd hissued not_mem_nil
      intro issued hissued haccepts
      obtain ⟨-, -, hkept⟩ := (accepts_issuesTo hfresh hissued now http).mp haccepts
      rw [hdeleted] at hkept
      cases hkept
    | false =>
      rw [if_neg Bool.false_ne_true]
      refine forall₂_congr fun issued hissued => ?_
      rw [accepts_issuesTo hfresh hissued now http]
      simp [hip, hdeleted]

theorem deletedIn_append (calls more : List AccountCall) :
    deletedIn env config user store (calls ++ more) =
      (deletedIn env config user store calls ||
        deletedIn env config user
          (Runs.run (FirewallManager.accountStep env config) store calls) more) := by
  induction calls generalizing store with
  | nil => rfl
  | cons call calls ih =>
    rw [cons_append, deletedIn, ih, deletedIn, Bool.or_assoc]
    rfl

theorem forall_standing_append {P : IssuedToken → Prop} (calls more : List AccountCall) :
    (∀ issued ∈ standingTokens env config user store (calls ++ more), P issued) ↔
      (deletedIn env config user
            (Runs.run (FirewallManager.accountStep env config) store calls) more = true ∨
          ∀ issued ∈ standingTokens env config user store calls, P issued) ∧
        ∀ issued ∈ standingTokens env config user
          (Runs.run (FirewallManager.accountStep env config) store calls) more, P issued := by
  induction calls generalizing store with
  | nil => simp [standingTokens]
  | cons call calls ih =>
    have hrun : Runs.run (FirewallManager.accountStep env config) store (call :: calls) =
        Runs.run _ (FirewallManager.accountStep env config store call) calls := rfl
    rw [cons_append, standingTokens, forall_mem_append, ih, standingTokens,
      forall_mem_append, deletedIn_append, hrun]
    cases deletedIn env config user (Runs.run (FirewallManager.accountStep env config)
        (FirewallManager.accountStep env config store call) calls) more with
    | true => simp
    | false => simp [and_assoc]

theorem Removal.deleted_iff {removal : Removal} {now : Nat} {request : HttpRequest}
    (hserved : removal.Served env config now request user store) :
    (removal.call now request user).deleted env config store = some user ↔ removal = .delete := by
  cases removal with
  | delete =>
    have hok : (serve env config now request (deleteUser user) store).1 = .ok () := hserved
    simp only [Removal.call, AccountCall.deleted, hok]
  | deactivate body inactive => simp [Removal.call, AccountCall.deleted]

end Rows

/-- **What a removal ends.** Take any run of sign-ins and account administration with new salts and
ids, in which an admin removes a user. At its end the user has no access if and only if the client
is refused for its address, or the following two hold: the user was deleted by then, or the access
tokens from before the removal have expired; and so have those from after it, unless the user was
deleted again. -/
theorem removed_loses_access_iff (env : AccountEnv) (config : AuthConfig) (store : AuthStore)
    (calls later : List AccountCall) (user : Uuid) (removal : Removal) (removed : Nat)
    (request : HttpRequest) (now : Nat) (http : HttpRequest)
    (hfresh : FreshRun env store (calls ++ removal.call removed request user :: later))
    (hserved : removal.Served env config removed request user
      (Runs.run (accountStep env config) store calls)) :
    LosesAccess env config user now http store
        (calls ++ removal.call removed request user :: later) ↔
      checkClientIp env.toAuthEnv config http ≠ .ok () ∨
        ((removal = .delete ∨
            deletedIn env config user (Runs.run (accountStep env config) store
              (calls ++ [removal.call removed request user])) later = true ∨
            ∀ issued ∈ standingTokens env config user store calls,
              issued.issuedAt + accessTtlSecs + leewaySecs < now) ∧
          ∀ issued ∈ standingTokens env config user (Runs.run (accountStep env config) store
              (calls ++ [removal.call removed request user])) later,
            issued.issuedAt + accessTtlSecs + leewaySecs < now) := by
  have hrefresh : ∀ draw : RefreshDraw, (Runs.run (accountStep env config) store
      (calls ++ removal.call removed request user :: later)).Unsalted env.toAuthEnv draw.salt →
      ∀ body response, (refreshToken env.toAuthEnv now draw body (Runs.run (accountStep env config)
        store (calls ++ removal.call removed request user :: later))).1 ≠ .ok response := by
    intro draw hsalt body response hok
    rw [refreshToken_of_fresh hsalt] at hok
    cases hok
  by_cases hip : checkClientIp env.toAuthEnv config http = .ok ()
  · -- What the removal itself issues and deletes.
    have hissues : (removal.call removed request user).issuesTo env user
        (Runs.run (accountStep env config) store calls) = [] := by
      cases removal <;> rfl
    have hstanding : standingTokens env config user (Runs.run (accountStep env config) store calls)
        (removal.call removed request user :: later) =
          standingTokens env config user (Runs.run (accountStep env config) store
            (calls ++ [removal.call removed request user])) later := by
      rw [standingTokens, hissues, ite_self, nil_append, Runs.run_concat]
    have hdeleted : deletedIn env config user (Runs.run (accountStep env config) store calls)
        (removal.call removed request user :: later) = true ↔ removal = .delete ∨
          deletedIn env config user (Runs.run (accountStep env config) store
            (calls ++ [removal.call removed request user])) later = true := by
      rw [deletedIn, Bool.or_eq_true, decide_eq_true_eq, Removal.deleted_iff hserved,
        Runs.run_concat]
    have hall : _ ↔ ∀ issued ∈ standingTokens env config user store
        (calls ++ removal.call removed request user :: later),
          issued.issuedAt + accessTtlSecs + leewaySecs < now := all_rejected_iff hfresh hip
    rw [forall_standing_append, hstanding, hdeleted, or_assoc] at hall
    constructor
    · intro hloses
      exact Or.inr (hall.mp hloses.access)
    · intro hcause
      exact ⟨hall.mpr (hcause.resolve_left fun hrefused => hrefused hip), hrefresh⟩
  · refine iff_of_true ⟨?_, hrefresh⟩ (Or.inl hip)
    rintro issued - ⟨auth, haccepted⟩
    unfold requireAuth at haccepted
    rw [checkClientIp_bearer] at haccepted
    cases hcheck : checkClientIp env.toAuthEnv config http with
    | ok _ => exact hip hcheck
    | error refusal =>
      rw [hcheck] at haccepted
      cases haccepted

/-- The accounts of `plainAuth`, with the character classes of ASCII. -/
def plainAccounts : AccountEnv where
  toAuthEnv := plainAuth
  isUppercase := Char.isUpper
  isLowercase := Char.isLower
  isAlphanumeric := Char.isAlphanum

/-- The account of an operator. -/
def operatorRow : User :=
  { dummyUser with
    id := ⟨2⟩, username := "operator", passwordHash := some "word", isActive := true }

/-- An admin and an operator, and no session. -/
def adminAndOperator : AuthStore where
  users := oneAdmin.users.insertNew operatorRow
  tokens := .empty

/-- What the login of the operator draws. -/
def operatorDraw : LoginDraw := ⟨⟨20⟩, ⟨21⟩, secondSalt⟩

/-- Both sign in. -/
def bothLogins : List AccountCall :=
  [.session adminLogin, .session (.login 110 operatorDraw ⟨"operator", "word", none⟩)]

/-- The request of the admin, with the access token of the login. -/
def adminRequest : HttpRequest :=
  plainRequest.bearer ((adminAnswer.toOption.map LoginResponse.accessToken).getD "")

/-- The operator is set inactive. -/
def deactivation : Removal :=
  .deactivate ⟨none, none, none, some false⟩ rfl

theorem freshRun_removal (removal : Removal) :
    FreshRun plainAccounts adminAndOperator
      (bothLogins ++ [removal.call 120 adminRequest ⟨2⟩]) := by
  have hsessions : (bothLogins ++ [removal.call 120 adminRequest ⟨2⟩]).filterMap
      AccountCall.session? =
        [adminLogin, .login 110 operatorDraw ⟨"operator", "word", none⟩] := by
    cases removal <;> rfl
  have hdistinct : DistinctDraws
      [adminLogin, .login 110 operatorDraw ⟨"operator", "word", none⟩] := by
    refine pairwise_pair.mpr ⟨?_, ?_⟩
    · show firstSalt.text ≠ secondSalt.text
      decide
    · intro jti hadmin hoperator
      have hsame : some adminDraw.jti = some operatorDraw.jti := hadmin.trans hoperator.symm
      exact absurd hsame (by decide)
  unfold FreshRun
  rw [hsessions]
  exact hdistinct.freshDraws adminAndOperator.users

theorem requireAuth_adminRequest : ∃ auth : RequestUser,
    requireAuth plainAccounts.toAuthEnv openConfig 120
        (Runs.run (accountStep plainAccounts openConfig) adminAndOperator bothLogins)
        adminRequest = .ok auth ∧ auth.role = .admin := by
  have hlive : isJtiRevoked (Runs.run (accountStep plainAccounts openConfig) adminAndOperator
      bothLogins) adminDraw.jti.text = false := by
    decide +kernel
  exact ⟨_, requireAuth_issued adminToken_issued rfl (by decide) hlive, rfl⟩

/-- After a delete the operator has no access. -/
theorem deleted_operator_loses_access :
    LosesAccess plainAccounts openConfig ⟨2⟩ 130 plainRequest adminAndOperator
      (bothLogins ++ [Removal.delete.call 120 adminRequest ⟨2⟩]) := by
  have hserved : Removal.delete.Served plainAccounts openConfig 120 adminRequest ⟨2⟩
      (Runs.run (accountStep plainAccounts openConfig) adminAndOperator bothLogins) := by
    obtain ⟨auth, hauth, hrole⟩ := requireAuth_adminRequest
    show (serve _ _ _ _ _ _).1 = .ok ()
    rw [serve, hauth]
    dsimp only
    rw [deleteUser, hrole]
    rfl
  refine (removed_loses_access_iff plainAccounts openConfig adminAndOperator bothLogins [] ⟨2⟩
    .delete 120 adminRequest 130 plainRequest (freshRun_removal .delete) hserved).mpr
      (Or.inr ⟨Or.inl rfl, ?_⟩)
  intro issued hissued
  cases hissued

/-- After the account was set inactive, the access token of the operator is accepted. -/
theorem inactive_operator_keeps_access :
    deactivation.Served plainAccounts openConfig 120 adminRequest ⟨2⟩
        (Runs.run (accountStep plainAccounts openConfig) adminAndOperator bothLogins) ∧
      ∃ issued ∈ tokensOf plainAccounts openConfig ⟨2⟩ adminAndOperator
          (bothLogins ++ [deactivation.call 120 adminRequest ⟨2⟩]),
        Accepts plainAuth openConfig 130 (Runs.run (accountStep plainAccounts openConfig)
          adminAndOperator (bothLogins ++ [deactivation.call 120 adminRequest ⟨2⟩])) plainRequest
          issued.accessToken := by
  refine ⟨⟨{ operatorRow with isActive := false, lastLoginAt := some 110 }, ?_⟩, ?_⟩
  · obtain ⟨auth, hauth, hrole⟩ := requireAuth_adminRequest
    rw [serve, hauth]
    dsimp only
    rw [updateUser, hrole]
    decide +kernel
  · by_contra hnone
    have hexpired : ∀ issued ∈ standingTokens plainAccounts openConfig ⟨2⟩ adminAndOperator
        (bothLogins ++ [deactivation.call 120 adminRequest ⟨2⟩]),
          issued.issuedAt + accessTtlSecs + leewaySecs < 130 := by
      have hip : checkClientIp plainAccounts.toAuthEnv openConfig plainRequest = .ok () := rfl
      refine (all_rejected_iff (freshRun_removal deactivation) hip).mp ?_
      intro issued hissued haccepts
      exact hnone ⟨issued, hissued, haccepts⟩
    have hlive : ∃ issued ∈ standingTokens plainAccounts openConfig ⟨2⟩ adminAndOperator
        (bothLogins ++ [deactivation.call 120 adminRequest ⟨2⟩]),
          ¬ issued.issuedAt + accessTtlSecs + leewaySecs < 130 := by
      decide +kernel
    obtain ⟨issued, hissued, htime⟩ := hlive
    exact htime (hexpired issued hissued)

end FirewallManager
