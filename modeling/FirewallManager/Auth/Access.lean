import FirewallManager.Manager.Policy
import FirewallManager.Net.Address

/-!
# Access tokens

A user signs in for an access token that is valid for fifteen minutes and for a refresh token that
should give new access tokens. The row of the refresh token holds the id of the access token, and
`require_auth` accepts an access token only if it finds a row with its id that is not revoked.

`requireAuth` is the middleware with all its refusals. `accepts_issued_iff` says when it lets an
access token pass that the manager has issued: the address of the client is allowed, the token has
not expired, and its row is there and not revoked.
-/

namespace FirewallManager

/-- The claims of an access token. Times are in seconds. -/
structure AccessClaims where
  sub : String
  iat : Nat
  exp : Nat
  jti : String
  role : String
  username : String
  deriving DecidableEq, Repr

/-- What the session handlers are built on: address texts, the output of Argon2id and the check of a
password against a hash, the signature of access tokens and its check, the parser of UUIDs, and the
text of a time. -/
structure AuthEnv where
  text : AddressText
  digest : String → String → String
  verify : String → String → Bool
  encode : AccessClaims → Except String String
  decode : String → Option AccessClaims
  decode_encode : ∀ claims token, encode claims = .ok token → decode token = some claims
  parseUuid : String → Option Uuid
  rfc3339 : Nat → String

/-- The errors of the session handlers and of the middleware. -/
inductive AuthError where
  | unauthorized (message : String)
  | forbiddenIp (message : String)
  | internal (message : String)
  deriving DecidableEq, Repr

/-- What the middleware reads of a request: the address of the peer and two headers. -/
structure HttpRequest where
  peer : Option IpAddr
  authorization : Option String
  forwardedFor : Option String
  deriving DecidableEq

/-- The request with an access token. -/
def HttpRequest.bearer (request : HttpRequest) (token : String) : HttpRequest :=
  { request with authorization := some ("Bearer " ++ token) }

/-- The address rules of the middleware. -/
structure AuthConfig where
  ipWhitelist : List IpNet
  trustedProxies : List IpNet
  deriving DecidableEq

/-- The sources of user accounts. -/
inductive AuthProvider where
  | local
  | azureSso
  | keycloak
  | oidc
  deriving DecidableEq, Repr

/-- The name of a provider: its Rust name in lower case. -/
def AuthProvider.label : AuthProvider → String
  | .local => "local"
  | .azureSso => "azuresso"
  | .keycloak => "keycloak"
  | .oidc => "oidc"

/-- A row of `users`. -/
structure User where
  id : Uuid
  username : String
  displayName : String
  email : String
  role : UserRole
  authProvider : AuthProvider
  passwordHash : Option String
  mfaEnabled : Bool
  isActive : Bool
  forcePasswordReset : Bool
  lastLoginAt : Option Nat
  failedLoginAttempts : Int
  lockedUntil : Option Nat
  deriving DecidableEq, Repr

/-- A row of `refresh_tokens`. -/
structure RefreshToken where
  userId : Uuid
  tokenHash : String
  jti : Option String
  issuedAt : Nat
  lastUsedAt : Nat
  expiresAt : Nat
  revoked : Bool
  revokedAt : Option Nat
  deriving DecidableEq, Repr

/-- The tables of the session handlers. A token hash is in one row at most. -/
structure AuthStore where
  users : Table User.id
  tokens : Table RefreshToken.tokenHash

/-- The label of a role. -/
def UserRole.asStr : UserRole → String
  | .admin => "admin"
  | .operator => "operator"
  | .reporter => "reporter"
  | .breakGlassOperator => "break_glass_operator"

/-- Read a role. -/
def UserRole.parseRole : String → Option UserRole
  | "admin" => some .admin
  | "operator" => some .operator
  | "reporter" => some .reporter
  | "break_glass_operator" => some .breakGlassOperator
  | _ => none

theorem UserRole.parseRole_asStr (role : UserRole) : parseRole role.asStr = some role := by
  cases role <;> rfl

/-- The user of a request, with the claims of the access token and the address of the peer. -/
structure RequestUser extends AuthUser where
  claims : AccessClaims
  ip : Option IpAddr
  deriving DecidableEq

section Middleware

variable (env : AuthEnv) (config : AuthConfig)

/-- The access token of a request. -/
def extractBearerToken (request : HttpRequest) : Option String :=
  request.authorization.bind (Text.afterStart "Bearer ")

/-- The address of the client. Behind a trusted proxy it is the first one of the forwarding header.
-/
def resolveClientIp (request : HttpRequest) (trustedProxies : List IpNet) : Option IpAddr :=
  request.peer.map fun peer =>
    if !trustedProxies.isEmpty && trustedProxies.any fun net => decide (net.Contains peer) then
      let forwarded := request.forwardedFor.bind fun header =>
        (Text.cut ',' header.toList).head?.bind fun first =>
          env.text.parseAddr (Text.trim (String.ofList first))
      forwarded.getD peer
    else peer

/-- The list admits the address. An empty list admits all. -/
def AuthConfig.isIpAllowed (ip : IpAddr) : Bool :=
  config.ipWhitelist.isEmpty || config.ipWhitelist.any fun net => decide (net.Contains ip)

/-- The address check of the middleware. -/
def checkClientIp (request : HttpRequest) : Except AuthError Unit :=
  if config.ipWhitelist.isEmpty then .ok ()
  else
    match resolveClientIp env request config.trustedProxies with
    | none => .error (.forbiddenIp "Client IP could not be determined")
    | some ip =>
      if config.isIpAllowed ip then .ok () else .error (.forbiddenIp "Access denied")

/-- How long an access token is valid, in seconds. -/
def accessTtlSecs : Nat := 900

/-- How long an expired access token is still accepted, in seconds. -/
def leewaySecs : Nat := 5

/-- The claims of a new access token. -/
def issuedClaims (now : Nat) (jti userId : Uuid) (role username : String) : AccessClaims where
  sub := userId.text
  iat := now
  exp := now + accessTtlSecs
  jti := jti.text
  role := role
  username := username

/-- Sign a new access token. The answer is the token and its id. -/
def issueAccessToken (now : Nat) (jti userId : Uuid) (role username : String) :
    Except String (String × String) :=
  match env.encode (issuedClaims now jti userId role username) with
  | .error message => .error message
  | .ok token => .ok (token, jti.text)

/-- Why an access token is refused. -/
inductive JwtError where
  | expired
  | decode
  deriving DecidableEq, Repr

/-- Check the signature of an access token and then its time. -/
def validateAccessToken (now : Nat) (token : String) : Except JwtError AccessClaims :=
  match env.decode token with
  | none => .error .decode
  | some claims => if claims.exp + leewaySecs < now then .error .expired else .ok claims

/-- An id that is in no row counts as revoked. -/
def isJtiRevoked (store : AuthStore) (jti : String) : Bool :=
  match (store.tokens.select fun row => decide (row.jti = some jti)).head? with
  | none => true
  | some row => row.revoked

/-- `require_auth`. -/
def requireAuth (now : Nat) (store : AuthStore) (request : HttpRequest) :
    Except AuthError RequestUser :=
  match checkClientIp env config request with
  | .error refusal => .error refusal
  | .ok () =>
    match extractBearerToken request with
    | none => .error (.unauthorized "Missing authorization token")
    | some token =>
      match validateAccessToken env now token with
      | .error _ => .error (.unauthorized "Invalid token")
      | .ok claims =>
        if isJtiRevoked store claims.jti then .error (.unauthorized "Token revoked")
        else
          match UserRole.parseRole claims.role with
          | none => .error (.unauthorized "Invalid role in token")
          | some role => .ok {
              userId := (env.parseUuid claims.sub).getD ⟨0⟩
              username := claims.username
              role := role
              claims := claims
              ip := request.peer }

/-- The middleware lets a request with the access token pass. -/
def Accepts (now : Nat) (store : AuthStore) (request : HttpRequest) (token : String) : Prop :=
  ∃ user, requireAuth env config now store (request.bearer token) = .ok user

variable {env config}

theorem checkClientIp_bearer (request : HttpRequest) (token : String) :
    checkClientIp env config (request.bearer token) = checkClientIp env config request := rfl

theorem extractBearerToken_bearer (request : HttpRequest) (token : String) :
    extractBearerToken (request.bearer token) = some token :=
  Text.afterStart_append "Bearer " token

section Issued

variable {now issued : Nat} {store : AuthStore} {request : HttpRequest} {jti userId : Uuid}
  {role : UserRole} {username token : String}

theorem decode_issued
    (htoken : issueAccessToken env issued jti userId role.asStr username = .ok (token, jti.text)) :
    env.decode token = some (issuedClaims issued jti userId role.asStr username) := by
  refine env.decode_encode _ _ ?_
  unfold issueAccessToken at htoken
  cases hencode : env.encode (issuedClaims issued jti userId role.asStr username) with
  | error message =>
    rw [hencode] at htoken
    cases htoken
  | ok signed =>
    rw [hencode] at htoken
    cases htoken
    rfl

theorem validateAccessToken_issued
    (htoken : issueAccessToken env issued jti userId role.asStr username = .ok (token, jti.text)) :
    validateAccessToken env now token =
      if issued + accessTtlSecs + leewaySecs < now then .error .expired
      else .ok (issuedClaims issued jti userId role.asStr username) := by
  rw [validateAccessToken, decode_issued htoken]
  rfl

theorem requireAuth_issued
    (htoken : issueAccessToken env issued jti userId role.asStr username = .ok (token, jti.text))
    (hip : checkClientIp env config request = .ok ())
    (htime : now ≤ issued + accessTtlSecs + leewaySecs)
    (hlive : isJtiRevoked store jti.text = false) :
    requireAuth env config now store (request.bearer token) = .ok {
      userId := (env.parseUuid userId.text).getD ⟨0⟩
      username := username
      role := role
      claims := issuedClaims issued jti userId role.asStr username
      ip := request.peer } := by
  have hvalidate := (validateAccessToken_issued htoken).trans (if_neg (Nat.not_lt.mpr htime))
  have hjti : (issuedClaims issued jti userId role.asStr username).jti = jti.text := rfl
  have hrole : UserRole.parseRole (issuedClaims issued jti userId role.asStr username).role =
      some role := role.parseRole_asStr
  unfold requireAuth
  rw [checkClientIp_bearer, extractBearerToken_bearer, hip]
  simp only [hvalidate, hjti, hlive, hrole]
  rfl

theorem accepts_issued_iff
    (htoken : issueAccessToken env issued jti userId role.asStr username = .ok (token, jti.text)) :
    Accepts env config now store request token ↔
      checkClientIp env config request = .ok () ∧ now ≤ issued + accessTtlSecs + leewaySecs ∧
        isJtiRevoked store jti.text = false := by
  constructor
  · rintro ⟨user, huser⟩
    have hvalidate : validateAccessToken env now token = _ := validateAccessToken_issued htoken
    have hjti : (issuedClaims issued jti userId role.asStr username).jti = jti.text := rfl
    unfold requireAuth at huser
    rw [checkClientIp_bearer, extractBearerToken_bearer] at huser
    cases hip : checkClientIp env config request with
    | error refusal =>
      rw [hip] at huser
      cases huser
    | ok _ =>
      by_cases hexpired : issued + accessTtlSecs + leewaySecs < now
      · rw [if_pos hexpired] at hvalidate
        simp only [hip, hvalidate] at huser
        cases huser
      · rw [if_neg hexpired] at hvalidate
        cases hrevoked : isJtiRevoked store jti.text with
        | true =>
          simp only [hip, hvalidate, hjti, hrevoked, if_true] at huser
          cases huser
        | false => exact ⟨rfl, Nat.le_of_not_lt hexpired, rfl⟩
  · rintro ⟨hip, htime, hlive⟩
    exact ⟨_, requireAuth_issued htoken hip htime hlive⟩

end Issued

end Middleware

end FirewallManager
