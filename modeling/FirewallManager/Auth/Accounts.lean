import FirewallManager.Auth.Logout

/-!
# User administration

Admins create, change and delete the accounts of users, and users change their own passwords. All of
these requests pass `require_auth` first (`serve`). A deleted user loses the rows of the refresh
tokens through the foreign key, and no other request touches these rows: `tokens_accountStep` says
so, and the runs of account calls are built on it.
-/

namespace FirewallManager

/-- What the account handlers are built on besides the session handlers: the character classes of
Unicode. -/
structure AccountEnv extends AuthEnv where
  isUppercase : Char → Bool
  isLowercase : Char → Bool
  isAlphanumeric : Char → Bool

/-- Why a request behind the middleware is not answered. -/
inductive RequestError where
  | refused (error : AuthError)
  | failed (error : AppError)
  deriving DecidableEq, Repr

/-- The body of a new account. -/
structure CreateUserRequest where
  username : String
  displayName : String
  email : String
  role : UserRole
  password : String
  deriving DecidableEq, Repr

/-- The changes to an account. An absent field stays as it is. -/
structure UpdateUserRequest where
  displayName : Option String
  email : Option String
  role : Option UserRole
  isActive : Option Bool
  deriving DecidableEq, Repr

/-- The body of a password change. -/
structure ChangePasswordRequest where
  currentPassword : String
  newPassword : String
  deriving DecidableEq, Repr

/-- `validate_password_strength`. The length is in bytes. -/
def validatePasswordStrength (env : AccountEnv) (password : String) : Except String Unit :=
  if password.utf8ByteSize < 8 then .error "must be at least 8 characters"
  else if !password.toList.any env.isUppercase then .error "must contain an uppercase letter"
  else if !password.toList.any env.isLowercase then .error "must contain a lowercase letter"
  else if !password.toList.any Char.isDigit then .error "must contain a digit"
  else if !password.toList.any fun c => !env.isAlphanumeric c && decide (c.toNat < 128) then
    .error "must contain a special character"
  else .ok ()

/-- The row of a new account. -/
def CreateUserRequest.row (body : CreateUserRequest) (id : Uuid) (passwordHash : String) :
    User where
  id := id
  username := body.username
  displayName := body.displayName
  email := body.email
  role := body.role
  authProvider := .local
  passwordHash := some passwordHash
  mfaEnabled := false
  isActive := true
  forcePasswordReset := false
  lastLoginAt := none
  failedLoginAttempts := 0
  lockedUntil := none

/-- The changed row of an account. -/
def UpdateUserRequest.change (body : UpdateUserRequest) (row : User) : User :=
  { row with
    displayName := body.displayName.getD row.displayName
    email := body.email.getD row.email
    role := body.role.getD row.role
    isActive := body.isActive.getD row.isActive }

/-- `DELETE FROM users`. The refresh tokens go with the user. -/
def AuthStore.removeUser (store : AuthStore) (target : Uuid) : AuthStore where
  users := store.users.delete fun row => decide (row.id = target)
  tokens := store.tokens.delete fun row => decide (row.userId = target)

section Handlers

variable (env : AccountEnv) (config : AuthConfig)

/-- `POST /users`, with the id that the database draws. Names and addresses are unique. -/
def createUser (id : Uuid) (salt : Salt) (body : CreateUserRequest) (auth : RequestUser)
    (store : AuthStore) : Except RequestError User × AuthStore :=
  if !auth.role.isAdmin then (.error (.failed (.forbidden "Admin role required")), store)
  else
    match validatePasswordStrength env body.password with
    | .error message => (.error (.failed (.badRequest ("Weak password: " ++ message))), store)
    | .ok () =>
      let user := body.row id (hashPassword env.toAuthEnv salt body.password)
      if store.users.rows.any fun row => decide (row.username = user.username) then
        (.error (.failed (.database "users_username_key")), store)
      else if store.users.rows.any fun row => decide (row.email = user.email) then
        (.error (.failed (.database "users_email_key")), store)
      else
        match store.users.insert? user with
        | none => (.error (.failed (.database "users_pkey")), store)
        | some users => (.ok user, { store with users := users })

/-- `PUT /users/{id}`. -/
def updateUser (target : Uuid) (body : UpdateUserRequest) (auth : RequestUser)
    (store : AuthStore) : Except RequestError User × AuthStore :=
  if !auth.role.isAdmin then (.error (.failed (.forbidden "Admin role required")), store)
  else
    match store.users.find? target with
    | none => (.error (.failed (.notFound "User not found")), store)
    | some row =>
      if store.users.rows.any fun other =>
          decide (other.id ≠ target ∧ body.email = some other.email) then
        (.error (.failed (.database "users_email_key")), store)
      else
        (.ok (body.change row), { store with
          users := store.users.update (fun row => decide (row.id = target)) body.change
            fun _ => rfl })

/-- `DELETE /users/{id}`. A user that is not there is not an error. -/
def deleteUser (target : Uuid) (auth : RequestUser) (store : AuthStore) :
    Except RequestError Unit × AuthStore :=
  if !auth.role.isAdmin then (.error (.failed (.forbidden "Admin role required")), store)
  else (.ok (), store.removeUser target)

/-- `POST /auth/password/change`. An account without a password hash is a decoding error. -/
def changePassword (salt : Salt) (body : ChangePasswordRequest) (auth : RequestUser)
    (store : AuthStore) : Except RequestError Unit × AuthStore :=
  match validatePasswordStrength env body.newPassword with
  | .error message => (.error (.failed (.badRequest ("Weak password: " ++ message))), store)
  | .ok () =>
    match store.users.find? auth.userId with
    | none => (.error (.failed (.notFound "User not found")), store)
    | some row =>
      match row.passwordHash with
      | none => (.error (.failed (.database "unexpected null")), store)
      | some hash =>
        if !env.verify body.currentPassword hash then
          (.error (.refused (.unauthorized "Invalid current password")), store)
        else
          (.ok (), { store with
            users := store.users.update (fun row => decide (row.id = auth.userId))
              (fun row => { row with
                passwordHash := some (hashPassword env.toAuthEnv salt body.newPassword)
                forcePasswordReset := false })
              fun _ => rfl })

/-- Serve a request behind the middleware. -/
def serve {α : Type} (now : Nat) (request : HttpRequest)
    (handler : RequestUser → AuthStore → Except RequestError α × AuthStore) (store : AuthStore) :
    Except RequestError α × AuthStore :=
  match requireAuth env.toAuthEnv config now store request with
  | .error refusal => (.error (.refused refusal), store)
  | .ok auth => handler auth store

/-- The calls of users and of admins. -/
inductive AccountCall where
  | session (call : SessionCall)
  | createUser (now : Nat) (request : HttpRequest) (id : Uuid) (salt : Salt)
      (body : CreateUserRequest)
  | updateUser (now : Nat) (request : HttpRequest) (target : Uuid) (body : UpdateUserRequest)
  | deleteUser (now : Nat) (request : HttpRequest) (target : Uuid)
  | changePassword (now : Nat) (request : HttpRequest) (salt : Salt) (body : ChangePasswordRequest)

/-- What a call does to the tables. -/
def accountStep (store : AuthStore) : AccountCall → AuthStore
  | .session call => sessionStep env.toAuthEnv config store call
  | .createUser now request id salt body =>
    (serve env config now request (createUser env id salt body) store).2
  | .updateUser now request target body =>
    (serve env config now request (updateUser target body) store).2
  | .deleteUser now request target => (serve env config now request (deleteUser target) store).2
  | .changePassword now request salt body =>
    (serve env config now request (changePassword env salt body) store).2

/-- The session call in a call, if it is one. -/
def AccountCall.session? : AccountCall → Option SessionCall
  | .session call => some call
  | _ => none

/-- The user that a call deletes. -/
def AccountCall.deleted (store : AuthStore) : AccountCall → Option Uuid
  | .deleteUser now request target =>
    match (serve env config now request (FirewallManager.deleteUser target) store).1 with
    | .ok () => some target
    | .error _ => none
  | _ => none

/-- The tables without the refresh tokens of the users in question. -/
def AuthStore.tokensWithout (store : AuthStore) : Option Uuid → Table RefreshToken.tokenHash
  | none => store.tokens
  | some target => store.tokens.delete fun row => decide (row.userId = target)

variable {env config} {store : AuthStore}

theorem tokens_serve {α : Type} {now : Nat} {request : HttpRequest}
    {handler : RequestUser → AuthStore → Except RequestError α × AuthStore}
    (h : ∀ auth, (handler auth store).2.tokens = store.tokens) :
    (serve env config now request handler store).2.tokens = store.tokens := by
  unfold serve
  cases requireAuth env.toAuthEnv config now store request with
  | error refusal => rfl
  | ok auth => exact h auth

theorem tokens_createUser (id : Uuid) (salt : Salt) (body : CreateUserRequest)
    (auth : RequestUser) : (createUser env id salt body auth store).2.tokens = store.tokens := by
  unfold createUser
  split
  next => rfl
  next =>
    split
    next => rfl
    next =>
      dsimp only
      split
      next => rfl
      next =>
        split
        next => rfl
        next =>
          split
          next => rfl
          next => rfl

theorem tokens_updateUser (target : Uuid) (body : UpdateUserRequest) (auth : RequestUser) :
    (updateUser target body auth store).2.tokens = store.tokens := by
  unfold updateUser
  split
  next => rfl
  next =>
    split
    next => rfl
    next =>
      split
      next => rfl
      next => rfl

theorem tokens_changePassword (salt : Salt) (body : ChangePasswordRequest) (auth : RequestUser) :
    (changePassword env salt body auth store).2.tokens = store.tokens := by
  unfold changePassword
  split
  next => rfl
  next =>
    split
    next => rfl
    next =>
      split
      next => rfl
      next =>
        split
        next => rfl
        next => rfl

theorem serve_deleteUser_cases (now : Nat) (request : HttpRequest) (target : Uuid) :
    serve env config now request (deleteUser target) store = (.ok (), store.removeUser target) ∨
      ∃ error, serve env config now request (deleteUser target) store = (.error error, store) := by
  unfold serve
  cases requireAuth env.toAuthEnv config now store request with
  | error refusal => exact Or.inr ⟨_, rfl⟩
  | ok auth =>
    show deleteUser target auth store = _ ∨ ∃ error, deleteUser target auth store = _
    unfold deleteUser
    split
    next => exact Or.inr ⟨_, rfl⟩
    next => exact Or.inl rfl

theorem tokens_serve_deleteUser (now : Nat) (request : HttpRequest) (target : Uuid) :
    (serve env config now request (deleteUser target) store).2.tokens =
      store.tokensWithout
        ((AccountCall.deleteUser now request target).deleted env config store) := by
  dsimp only [AccountCall.deleted]
  rcases serve_deleteUser_cases now request target with hserved | ⟨error, hrefused⟩
  · rw [hserved]
    rfl
  · rw [hrefused]
    rfl

/-- What a call that is not one of a session does to the refresh tokens. -/
theorem tokens_accountStep {call : AccountCall} (h : call.session? = none) :
    (accountStep env config store call).tokens =
      store.tokensWithout (call.deleted env config store) := by
  cases call with
  | session call => cases h
  | createUser now request id salt body => exact tokens_serve (tokens_createUser id salt body)
  | updateUser now request target body => exact tokens_serve (tokens_updateUser target body)
  | deleteUser now request target => exact tokens_serve_deleteUser now request target
  | changePassword now request salt body => exact tokens_serve (tokens_changePassword salt body)

theorem mem_tokensWithout {deleted : Option Uuid} {row : RefreshToken} :
    row ∈ (store.tokensWithout deleted).rows ↔
      row ∈ store.tokens.rows ∧ deleted ≠ some row.userId := by
  cases deleted with
  | none => simp [AuthStore.tokensWithout]
  | some target => simp [AuthStore.tokensWithout, Table.mem_delete, eq_comm]

theorem SessionCall.Fresh.mono {call : SessionCall} {later : AuthStore}
    (h : call.Fresh env.toAuthEnv store)
    (hrows : ∀ row ∈ later.tokens.rows, row ∈ store.tokens.rows) :
    call.Fresh env.toAuthEnv later :=
  ⟨fun row hrow => h.salt row (hrows row hrow),
    fun jti hjti row hrow => h.jti jti hjti row (hrows row hrow)⟩

/-- The session calls of a run draw different salts and ids, and none that the tables have. -/
def FreshRun (env : AccountEnv) (store : AuthStore) (calls : List AccountCall) : Prop :=
  FreshDraws env.toAuthEnv store (calls.filterMap AccountCall.session?)

/-- A call of a session draws what the tables do not have. -/
def AccountCall.Fresh (env : AccountEnv) (store : AuthStore) (call : AccountCall) : Prop :=
  ∀ session, call.session? = some session → session.Fresh env.toAuthEnv store

theorem FreshRun.cons {call : AccountCall} {calls : List AccountCall}
    (h : FreshRun env store (call :: calls)) (config : AuthConfig) :
    call.Fresh env store ∧ FreshRun env (accountStep env config store call) calls ∧
      ∀ session, call.session? = some session → ∀ jti, session.jti = some jti →
        ∀ later ∈ calls.filterMap AccountCall.session?, later.jti ≠ some jti := by
  unfold FreshRun at h ⊢
  cases hsession : call.session? with
  | none =>
    rw [List.filterMap_cons_none hsession] at h
    refine ⟨?_, ⟨h.distinct, ?_⟩, ?_⟩
    · intro session hsome
      rw [hsession] at hsome
      cases hsome
    · intro later hlater
      refine (h.unused later hlater).mono ?_
      intro row hrow
      rw [tokens_accountStep hsession] at hrow
      exact (mem_tokensWithout.mp hrow).1
    · intro session hsome
      cases hsome
  | some session =>
    obtain rfl : call = .session session := by
      cases call with
      | session other => exact congrArg AccountCall.session (Option.some.inj hsession)
      | _ => cases hsession
    rw [List.filterMap_cons_some hsession] at h
    obtain ⟨hfirst, hrest⟩ := List.pairwise_cons.mp h.distinct
    have hcall := h.unused session List.mem_cons_self
    refine ⟨?_, ⟨hrest, ?_⟩, ?_⟩
    · intro other hsome
      obtain rfl := Option.some.inj (hsession.symm.trans hsome)
      exact hcall
    · intro later hlater
      obtain ⟨hsalt, hjti⟩ := hfirst later hlater
      exact (h.unused later (List.mem_cons_of_mem _ hlater)).sessionStep hcall hsalt hjti
    · intro other hsome jti hjti later hlater
      obtain rfl := Option.some.inj hsome
      exact (hfirst later hlater).2 jti hjti

end Handlers

end FirewallManager
