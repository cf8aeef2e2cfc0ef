import FirewallManager.Auth.Access
import FirewallManager.Lib.Runs

/-!
# Sessions

Login, refresh and logout. A refresh token is stored as its Argon2 hash, and the handlers look for a
row by hashing the token that they are given once more. Every hash has its own random salt, so the
second hash is not the stored one: `refreshToken_of_fresh` and `logout_of_fresh` say that neither
handler finds a row. Logout asks for a signed-in user, but its route is not under the middleware
that would sign one in (`serveLogout_eq`).

`login_ok` says what a successful login answers and stores.
-/

namespace FirewallManager

/-- A salt of Argon2. It is a base64 text, which has no dollar sign. -/
structure Salt where
  text : String
  plain : '$' ∉ text.toList
  deriving DecidableEq

/-- The algorithm, the version and the costs that stand in front of every hash. -/
def argon2Params : String := "$argon2id$v=19$m=65536,t=3,p=1$"

/-- `hash_password`, with the salt that it draws. -/
def hashPassword (env : AuthEnv) (salt : Salt) (password : String) : String :=
  argon2Params ++ (salt.text ++ String.ofList ('$' :: (env.digest salt.text password).toList))

theorem salt_eq_of_hashPassword_eq {env : AuthEnv} {salt salt' : Salt} {password password' : String}
    (h : hashPassword env salt password = hashPassword env salt' password') :
    salt.text = salt'.text := by
  have hchars := congrArg String.toList h
  simp only [hashPassword, String.toList_append, String.toList_ofList] at hchars
  have hfields := List.append_cancel_left hchars
  exact String.toList_inj.mp
    (Text.cancel_field salt.plain salt'.plain (Or.inr rfl) (Or.inr rfl) hfields).1

/-- The body of a login. The second factor is not looked at. -/
structure LoginRequest where
  username : String
  password : String
  mfaCode : Option String
  deriving DecidableEq, Repr

/-- The body of a refresh. -/
structure RefreshRequest where
  refreshToken : String
  deriving DecidableEq, Repr

/-- The body of a logout. -/
structure LogoutRequest where
  refreshToken : String
  deriving DecidableEq, Repr

/-- The user in an answer. -/
structure UserInfo where
  id : Uuid
  username : String
  displayName : String
  email : String
  role : String
  authProvider : String
  mfaEnabled : Bool
  isActive : Bool
  forcePasswordReset : Bool
  lastLoginAt : Option String
  deriving DecidableEq, Repr

/-- The answer to a login and to a refresh. -/
structure LoginResponse where
  accessToken : String
  refreshToken : String
  user : UserInfo
  deriving DecidableEq, Repr

/-- What a login draws at random. -/
structure LoginDraw where
  jti : Uuid
  refreshToken : Uuid
  salt : Salt
  deriving DecidableEq

/-- What a refresh draws at random. -/
structure RefreshDraw where
  jti : Uuid
  salt : Salt
  deriving DecidableEq

/-- The user that stands in for an unknown name. It is not active. -/
def dummyUser : User where
  id := ⟨0⟩
  username := ""
  displayName := ""
  email := ""
  role := .operator
  authProvider := .local
  passwordHash := some "$argon2id$v=19$m=65536,t=3,p=1$AAAAAAAAAAAAAAAA$dummy"
  mfaEnabled := false
  isActive := false
  forcePasswordReset := false
  lastLoginAt := none
  failedLoginAttempts := 0
  lockedUntil := none

/-- After this many failures in a row an account is locked. -/
def lockoutAttempts : Int := 5

/-- How long an account is locked, in seconds. -/
def lockoutSecs : Nat := 1800

/-- How long a refresh token is valid, in seconds. -/
def refreshTtlSecs : Nat := 3600

namespace AuthStore

/-- The local account with a name. -/
def localUser (store : AuthStore) (username : String) : Option User :=
  (store.users.select fun row =>
    decide (row.username = username) && decide (row.authProvider = .local)).head?

/-- A failed login is counted. -/
def countFailure (store : AuthStore) (userId : Uuid) : AuthStore :=
  { store with
    users := store.users.update (fun row => decide (row.id = userId))
      (fun row => { row with failedLoginAttempts := row.failedLoginAttempts + 1 }) fun _ => rfl }

/-- The account is locked for a while. -/
def lockAccount (store : AuthStore) (now : Nat) (userId : Uuid) : AuthStore :=
  { store with
    users := store.users.update (fun row => decide (row.id = userId))
      (fun row => { row with lockedUntil := some (now + lockoutSecs) }) fun _ => rfl }

/-- What follows a wrong password. The lock goes by the count that was read before. -/
def recordFailure (store : AuthStore) (now : Nat) (user : User) : AuthStore :=
  let store := store.countFailure user.id
  if user.failedLoginAttempts + 1 ≥ lockoutAttempts then store.lockAccount now user.id else store

/-- What follows a right password. -/
def recordLogin (store : AuthStore) (now : Nat) (userId : Uuid) : AuthStore :=
  { store with
    users := store.users.update (fun row => decide (row.id = userId))
      (fun row => { row with
        failedLoginAttempts := 0, lockedUntil := none, lastLoginAt := some now })
      fun _ => rfl }

/-- Insert the row of a refresh token. The user has to exist, and a failed insert is ignored. -/
def storeToken (store : AuthStore) (row : RefreshToken) : AuthStore :=
  { store with
    tokens := if store.users.has row.userId then store.tokens.insertNew row else store.tokens }

/-- The user of a refresh token that is neither revoked nor expired, by its hash. -/
def liveSession (store : AuthStore) (now : Nat) (hash : String) : Option (User × Bool) :=
  (store.tokens.select fun row =>
    decide (row.tokenHash = hash ∧ row.revoked = false ∧ now < row.expiresAt)).head?.bind fun row =>
      (store.users.find? row.userId).map fun user => (user, row.revoked)

/-- Put the id of a new access token into the row of the hash. -/
def rotate (store : AuthStore) (now : Nat) (hash jti : String) : AuthStore :=
  { store with
    tokens := store.tokens.update (fun row => decide (row.tokenHash = hash))
      (fun row => { row with jti := some jti, lastUsedAt := now }) fun _ => rfl }

/-- Revoke the row of the hash. -/
def revokeHash (store : AuthStore) (now : Nat) (hash : String) : AuthStore :=
  { store with
    tokens := store.tokens.update (fun row => decide (row.tokenHash = hash))
      (fun row => { row with revoked := true, revokedAt := some now }) fun _ => rfl }

end AuthStore

/-- The user in the answer to a login. -/
def User.info (env : AuthEnv) (user : User) : UserInfo where
  id := user.id
  username := user.username
  displayName := user.displayName
  email := user.email
  role := user.role.asStr
  authProvider := user.authProvider.label
  mfaEnabled := user.mfaEnabled
  isActive := user.isActive
  forcePasswordReset := user.forcePasswordReset
  lastLoginAt := user.lastLoginAt.map env.rfc3339

/-- The user in the answer to a refresh, which reads less. -/
def User.refreshInfo (user : User) : UserInfo where
  id := user.id
  username := user.username
  displayName := ""
  email := ""
  role := user.role.asStr
  authProvider := "local"
  mfaEnabled := false
  isActive := true
  forcePasswordReset := false
  lastLoginAt := none

/-- The row that a login stores. -/
def LoginDraw.row (draw : LoginDraw) (env : AuthEnv) (now : Nat) (userId : Uuid) :
    RefreshToken where
  userId := userId
  tokenHash := hashPassword env draw.salt draw.refreshToken.text
  jti := some draw.jti.text
  issuedAt := now
  lastUsedAt := now
  expiresAt := now + refreshTtlSecs
  revoked := false
  revokedAt := none

/-- `POST /auth/login`. -/
def login (env : AuthEnv) (now : Nat) (draw : LoginDraw) (body : LoginRequest)
    (store : AuthStore) : Except AuthError LoginResponse × AuthStore :=
  let user := (store.localUser body.username).getD dummyUser
  if !user.isActive then (.error (.unauthorized "Invalid credentials"), store)
  else if user.lockedUntil.any fun lock => decide (now < lock) then
    (.error (.unauthorized "Account locked"), store)
  else if !env.verify body.password (user.passwordHash.getD "") then
    (.error (.unauthorized "Invalid credentials"), store.recordFailure now user)
  else
    let store := store.recordLogin now user.id
    match issueAccessToken env now draw.jti user.id user.role.asStr user.username with
    | .error message => (.error (.internal message), store)
    | .ok (accessToken, _) =>
      (.ok ⟨accessToken, draw.refreshToken.text, user.info env⟩,
        store.storeToken (draw.row env now user.id))

/-- `POST /auth/refresh`. -/
def refreshToken (env : AuthEnv) (now : Nat) (draw : RefreshDraw) (body : RefreshRequest)
    (store : AuthStore) : Except AuthError LoginResponse × AuthStore :=
  let hash := hashPassword env draw.salt body.refreshToken
  match store.liveSession now hash with
  | none => (.error (.unauthorized "Invalid refresh token"), store)
  | some (user, revoked) =>
    if revoked then (.error (.unauthorized "Token revoked"), store)
    else
      match issueAccessToken env now draw.jti user.id user.role.asStr user.username with
      | .error message => (.error (.internal message), store)
      | .ok (accessToken, jti) =>
        (.ok ⟨accessToken, body.refreshToken, user.refreshInfo⟩, store.rotate now hash jti)

/-- `POST /auth/logout`, for a signed-in user. Whether a row was found is not looked at. -/
def logout (env : AuthEnv) (now : Nat) (salt : Salt) (_auth : RequestUser) (body : LogoutRequest)
    (store : AuthStore) : AuthStore :=
  store.revokeHash now (hashPassword env salt body.refreshToken)

/-- The routes of the session handlers. -/
inductive AuthRoute where
  | login
  | refresh
  | logout
  | me
  | mfaSetup
  | mfaVerify
  | passwordChange
  deriving DecidableEq, Repr

/-- The route is under `require_auth`. The first three are in the public router. -/
def AuthRoute.guarded : AuthRoute → Bool
  | .login => false
  | .refresh => false
  | .logout => false
  | .me => true
  | .mfaSetup => true
  | .mfaVerify => true
  | .passwordChange => true

/-- The user that the middleware in front of a route has put into the request. -/
def AuthRoute.extension (route : AuthRoute) (env : AuthEnv) (config : AuthConfig) (now : Nat)
    (store : AuthStore) (request : HttpRequest) : Except AuthError (Option RequestUser) :=
  if route.guarded then (requireAuth env config now store request).map some else .ok none

/-- The user that a handler asks for. -/
def extractAuthUser : Option RequestUser → Except AuthError RequestUser
  | some user => .ok user
  | none => .error (.unauthorized "Authentication required")

/-- Serve a logout: the middleware of its route, the user, and the handler. -/
def serveLogout (env : AuthEnv) (config : AuthConfig) (now : Nat) (salt : Salt)
    (request : HttpRequest) (body : LogoutRequest) (store : AuthStore) :
    Except AuthError Unit × AuthStore :=
  match (AuthRoute.logout.extension env config now store request).bind extractAuthUser with
  | .error refusal => (.error refusal, store)
  | .ok auth => (.ok (), logout env now salt auth body store)

/-- The calls of a session. -/
inductive SessionCall where
  | login (now : Nat) (draw : LoginDraw) (body : LoginRequest)
  | refresh (now : Nat) (draw : RefreshDraw) (body : RefreshRequest)
  | logout (now : Nat) (salt : Salt) (request : HttpRequest) (body : LogoutRequest)

/-- What a call does to the tables. -/
def sessionStep (env : AuthEnv) (config : AuthConfig) (store : AuthStore) : SessionCall → AuthStore
  | .login now draw body => (login env now draw body store).2
  | .refresh now draw body => (refreshToken env now draw body store).2
  | .logout now salt request body => (serveLogout env config now salt request body store).2

/-- No stored hash has the salt. -/
def AuthStore.Unsalted (store : AuthStore) (env : AuthEnv) (salt : Salt) : Prop :=
  ∀ row ∈ store.tokens.rows, ∀ password, row.tokenHash ≠ hashPassword env salt password

/-- The salt that a call draws. -/
def SessionCall.salt : SessionCall → Salt
  | .login _ draw _ => draw.salt
  | .refresh _ draw _ => draw.salt
  | .logout _ salt _ _ => salt

/-- The id of an access token that a call draws. -/
def SessionCall.jti : SessionCall → Option Uuid
  | .login _ draw _ => some draw.jti
  | .refresh _ draw _ => some draw.jti
  | .logout .. => none

/-- What a call draws is new: no stored hash has its salt, and no row has the id of its access
token. -/
structure SessionCall.Fresh (env : AuthEnv) (store : AuthStore) (call : SessionCall) : Prop where
  salt : store.Unsalted env call.salt
  jti : ∀ jti, call.jti = some jti → ∀ row ∈ store.tokens.rows, row.jti ≠ some jti.text

/-- The calls draw different salts and different ids. -/
def DistinctDraws (calls : List SessionCall) : Prop :=
  calls.Pairwise fun call other => call.salt.text ≠ other.salt.text ∧
    ∀ jti, call.jti = some jti → other.jti ≠ some jti

/-- The calls draw different salts and ids, and none that the tables have. -/
structure FreshDraws (env : AuthEnv) (store : AuthStore) (calls : List SessionCall) : Prop where
  distinct : DistinctDraws calls
  unused : ∀ call ∈ calls, call.Fresh env store

section Handlers

variable {env : AuthEnv} {config : AuthConfig} {store : AuthStore} {now : Nat}

theorem AuthStore.Unsalted.liveSession {salt : Salt} (h : store.Unsalted env salt)
    (password : String) : store.liveSession now (hashPassword env salt password) = none := by
  have hnone : (store.tokens.select fun row => decide (row.tokenHash =
      hashPassword env salt password ∧ row.revoked = false ∧ now < row.expiresAt)) = [] := by
    refine List.filter_eq_nil_iff.mpr ?_
    intro row hrow hfound
    exact h row hrow password (of_decide_eq_true hfound).1
  rw [AuthStore.liveSession, hnone]
  rfl

theorem refreshToken_of_fresh {draw : RefreshDraw} (h : store.Unsalted env draw.salt)
    (body : RefreshRequest) :
    refreshToken env now draw body store =
      (.error (.unauthorized "Invalid refresh token"), store) := by
  rw [refreshToken, h.liveSession]

theorem login_ok {draw : LoginDraw} {body : LoginRequest} {response : LoginResponse}
    (h : (login env now draw body store).1 = .ok response) :
    ∃ user ∈ store.users.rows,
      issueAccessToken env now draw.jti user.id user.role.asStr user.username =
          .ok (response.accessToken, draw.jti.text) ∧
        response.refreshToken = draw.refreshToken.text ∧ response.user = user.info env ∧
        (login env now draw body store).2 =
          (store.recordLogin now user.id).storeToken (draw.row env now user.id) := by
  have huser : (store.localUser body.username).getD dummyUser ∈ store.users.rows ∨
      (store.localUser body.username).getD dummyUser = dummyUser := by
    cases hfound : store.localUser body.username with
    | none => exact Or.inr rfl
    | some user => exact Or.inl (Table.mem_select.mp (List.mem_of_mem_head? hfound)).1
  unfold login at h ⊢
  generalize (store.localUser body.username).getD dummyUser = user at h huser ⊢
  dsimp only at h ⊢
  by_cases hactive : (!user.isActive) = true
  · rw [if_pos hactive] at h
    cases h
  · rw [if_neg hactive] at h ⊢
    by_cases hlocked : (user.lockedUntil.any fun lock => decide (now < lock)) = true
    · rw [if_pos hlocked] at h
      cases h
    · rw [if_neg hlocked] at h ⊢
      by_cases hwrong : (!env.verify body.password (user.passwordHash.getD "")) = true
      · rw [if_pos hwrong] at h
        cases h
      · rw [if_neg hwrong] at h ⊢
        have hknown : user ∈ store.users.rows := by
          rcases huser with hmem | rfl
          · exact hmem
          · exact absurd rfl hactive
        refine ⟨user, hknown, ?_⟩
        unfold issueAccessToken at h ⊢
        cases hencode : env.encode
            (issuedClaims now draw.jti user.id user.role.asStr user.username) with
        | error message =>
          rw [hencode] at h
          cases h
        | ok token =>
          rw [hencode] at h
          cases h
          exact ⟨rfl, rfl, rfl, rfl⟩

theorem tokens_login (draw : LoginDraw) (body : LoginRequest) :
    (login env now draw body store).2.tokens = store.tokens ∨
      ∃ userId, (login env now draw body store).2.tokens =
        store.tokens.insertNew (draw.row env now userId) := by
  unfold login
  dsimp only
  split
  next => exact Or.inl rfl
  next =>
    split
    next => exact Or.inl rfl
    next =>
      split
      next =>
        unfold AuthStore.recordFailure
        dsimp only
        split
        next => exact Or.inl rfl
        next => exact Or.inl rfl
      next =>
        split
        next => exact Or.inl rfl
        next =>
          unfold AuthStore.storeToken
          dsimp only
          split
          next => exact Or.inr ⟨_, rfl⟩
          next => exact Or.inl rfl

theorem mem_tokens_login {draw : LoginDraw} {body : LoginRequest} {row : RefreshToken}
    (h : row ∈ (login env now draw body store).2.tokens.rows) :
    row ∈ store.tokens.rows ∨ ∃ userId, row = draw.row env now userId := by
  rcases tokens_login draw body with hsame | ⟨userId, hnew⟩
  · rw [hsame] at h
    exact Or.inl h
  · rw [hnew] at h
    rcases Table.mem_insertNew.mp h with hold | ⟨-, hrow⟩
    · exact Or.inl hold
    · exact Or.inr ⟨userId, hrow⟩

theorem tokens_login_ok {draw : LoginDraw} {body : LoginRequest} {response : LoginResponse}
    (hsalt : store.Unsalted env draw.salt)
    (h : (login env now draw body store).1 = .ok response) :
    draw.row env now response.user.id ∈ (login env now draw body store).2.tokens.rows := by
  obtain ⟨user, huser, -, -, hinfo, hstore⟩ := login_ok h
  have hid : response.user.id = user.id := by
    rw [hinfo]
    rfl
  have hhas :
      (store.recordLogin now user.id).users.has (draw.row env now user.id).userId = true := by
    dsimp only [AuthStore.recordLogin, LoginDraw.row]
    rw [Table.has_update]
    exact Table.has_eq_true_iff.mpr ⟨user, huser, rfl⟩
  have hfree : store.tokens.has (draw.row env now user.id).tokenHash = false := by
    rw [← Bool.not_eq_true, Table.has_eq_true_iff]
    rintro ⟨row, hrow, hhash⟩
    exact hsalt row hrow _ hhash
  rw [hid, hstore, AuthStore.storeToken, if_pos hhas]
  exact Table.mem_insertNew.mpr (Or.inr ⟨hfree, rfl⟩)

theorem mem_sessionStep {call : SessionCall} {row : RefreshToken} (h : row ∈ store.tokens.rows)
    (hcall : call.Fresh env store) : row ∈ (sessionStep env config store call).tokens.rows := by
  cases call with
  | login now draw body =>
    show row ∈ (login env now draw body store).2.tokens.rows
    rcases tokens_login draw body with hsame | ⟨userId, hnew⟩
    · rw [hsame]
      exact h
    · rw [hnew]
      exact Table.mem_insertNew.mpr (Or.inl h)
  | refresh now draw body =>
    rw [sessionStep, refreshToken_of_fresh hcall.salt]
    exact h
  | logout now salt request body => exact h

theorem SessionCall.Fresh.sessionStep {call other : SessionCall} (h : other.Fresh env store)
    (hcall : call.Fresh env store) (hsalt : call.salt.text ≠ other.salt.text)
    (hjti : ∀ jti, call.jti = some jti → other.jti ≠ some jti) :
    other.Fresh env (sessionStep env config store call) := by
  cases call with
  | login now draw body =>
    refine ⟨?_, ?_⟩
    · intro row hrow
      rcases mem_tokens_login hrow with hold | ⟨userId, rfl⟩
      · exact h.salt row hold
      · intro password heq
        exact hsalt (salt_eq_of_hashPassword_eq heq)
    · intro jti hother row hrow
      rcases mem_tokens_login hrow with hold | ⟨userId, rfl⟩
      · exact h.jti jti hother row hold
      · intro heq
        have hsame : draw.jti = jti := Uuid.text_injective (Option.some.inj heq)
        exact hjti draw.jti rfl (hsame ▸ hother)
  | refresh now draw body =>
    rw [FirewallManager.sessionStep, refreshToken_of_fresh hcall.salt]
    exact h
  | logout now salt request body => exact h

theorem DistinctDraws.freshDraws {calls : List SessionCall} (h : DistinctDraws calls)
    (users : Table User.id) : FreshDraws env ⟨users, .empty⟩ calls := by
  refine ⟨h, ?_⟩
  intro call _
  refine ⟨?_, ?_⟩
  · intro row hrow
    cases hrow
  · intro jti _ row hrow
    cases hrow

theorem FreshDraws.meets {calls : List SessionCall} (h : FreshDraws env store calls) :
    Runs.Meets (sessionStep env config) (fun store call => call.Fresh env store) store calls := by
  induction calls generalizing store with
  | nil => trivial
  | cons call calls ih =>
    obtain ⟨hfirst, hrest⟩ := List.pairwise_cons.mp h.distinct
    have hcall := h.unused call List.mem_cons_self
    refine ⟨hcall, ih ⟨hrest, ?_⟩⟩
    intro other hother
    obtain ⟨hsalt, hjti⟩ := hfirst other hother
    exact (h.unused other (List.mem_cons_of_mem _ hother)).sessionStep hcall hsalt hjti

end Handlers

end FirewallManager
