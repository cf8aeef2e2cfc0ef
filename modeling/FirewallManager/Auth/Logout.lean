import FirewallManager.Auth.Sessions
import FirewallManager.Net.Dotted

/-!
# What a logout ends

Neither a refresh nor a logout finds the row of a session, so the row of a login stays as it was
stored (`Holds`), and the access token with its id is accepted until it expires
(`accepts_of_issued`). `logout_ends_session_iff` says what this means for a logout: the access
tokens of the session are rejected after it if they have expired by then, or if the client is
refused anyway.
-/

namespace FirewallManager

open List

/-- An access token and the time of its issue. -/
structure IssuedToken where
  issuedAt : Nat
  accessToken : String
  deriving DecidableEq, Repr

/-- The access token in an answer, if it is one of the session with the refresh token. -/
def issuedBy (refresh : String) (now : Nat) : Except AuthError LoginResponse → List IssuedToken
  | .ok response => if response.refreshToken = refresh then [⟨now, response.accessToken⟩] else []
  | .error _ => []

theorem mem_issuedBy {refresh : String} {now : Nat} {answer : Except AuthError LoginResponse}
    {issued : IssuedToken} (h : issued ∈ issuedBy refresh now answer) :
    ∃ response, answer = .ok response ∧ issued = ⟨now, response.accessToken⟩ := by
  cases answer with
  | error refusal => cases h
  | ok response =>
    refine ⟨response, rfl, ?_⟩
    dsimp only [issuedBy] at h
    split at h
    next => exact mem_singleton.mp h
    next => cases h

/-- The access tokens of a session that a call issues. -/
def SessionCall.issues (env : AuthEnv) (refresh : String) (store : AuthStore) :
    SessionCall → List IssuedToken
  | .login now draw body => issuedBy refresh now (FirewallManager.login env now draw body store).1
  | .refresh now draw body => issuedBy refresh now (refreshToken env now draw body store).1
  | .logout .. => []

/-- The access tokens of a session that a run issues. -/
def issuedTokens (env : AuthEnv) (config : AuthConfig) (refresh : String) :
    AuthStore → List SessionCall → List IssuedToken
  | _, [] => []
  | store, call :: calls =>
    call.issues env refresh store ++
      issuedTokens env config refresh (sessionStep env config store call) calls

/-- The row is the only one with the id, and it is not revoked. -/
structure AuthStore.HoldsRow (store : AuthStore) (jti : String) (row : RefreshToken) : Prop where
  mem : row ∈ store.tokens.rows
  found : row.jti = some jti
  live : row.revoked = false
  unique : ∀ other ∈ store.tokens.rows, other.jti = some jti → other = row

/-- Some row is so. -/
def AuthStore.Holds (store : AuthStore) (jti : String) : Prop :=
  ∃ row, store.HoldsRow jti row

section Rows

variable {env : AuthEnv} {config : AuthConfig} {store : AuthStore} {now : Nat} {jti : String}
  {row : RefreshToken}

theorem AuthStore.HoldsRow.isJtiRevoked (h : store.HoldsRow jti row) :
    isJtiRevoked store jti = false := by
  have hmem : row ∈ store.tokens.select fun row => decide (row.jti = some jti) :=
    Table.mem_select.mpr ⟨h.mem, decide_eq_true h.found⟩
  cases hfound : (store.tokens.select fun row => decide (row.jti = some jti)).head? with
  | none =>
    rw [head?_eq_none_iff.mp hfound] at hmem
    cases hmem
  | some first =>
    obtain ⟨hin, hfirst⟩ := Table.mem_select.mp (mem_of_mem_head? hfound)
    rw [FirewallManager.isJtiRevoked, hfound, h.unique first hin (of_decide_eq_true hfirst)]
    exact h.live

theorem holdsRow_login {draw : LoginDraw} {body : LoginRequest} {response : LoginResponse}
    (hfresh : (SessionCall.login now draw body).Fresh env store)
    (h : (login env now draw body store).1 = .ok response) :
    (login env now draw body store).2.HoldsRow draw.jti.text
      (draw.row env now response.user.id) := by
  have hrow := tokens_login_ok hfresh.salt h
  refine ⟨hrow, rfl, rfl, ?_⟩
  intro other hother hjti
  rcases mem_tokens_login hother with hold | ⟨otherId, rfl⟩
  · exact absurd hjti (hfresh.jti draw.jti rfl other hold)
  · exact Table.eq_of_key_eq hother hrow rfl

/-- No call revokes the row of an id, and none stores the id a second time. -/
theorem AuthStore.HoldsRow.sessionStep {call : SessionCall} (h : store.HoldsRow jti row)
    (hcall : call.Fresh env store) : (sessionStep env config store call).HoldsRow jti row := by
  cases call with
  | login now draw body =>
    refine ⟨mem_sessionStep h.mem hcall, h.found, h.live, ?_⟩
    intro other hother hsame
    rcases mem_tokens_login hother with hold | ⟨userId, rfl⟩
    · exact h.unique other hold hsame
    · exact absurd (h.found.trans hsame.symm) (hcall.jti draw.jti rfl row h.mem)
  | refresh now draw body =>
    rw [FirewallManager.sessionStep, refreshToken_of_fresh hcall.salt]
    exact h
  | logout now salt request body => exact h

theorem AuthStore.Holds.sessionStep {call : SessionCall} (h : store.Holds jti)
    (hcall : call.Fresh env store) : (sessionStep env config store call).Holds jti := by
  obtain ⟨row, hrow⟩ := h
  exact ⟨row, hrow.sessionStep hcall⟩

theorem AuthStore.Holds.run {calls : List SessionCall} (h : store.Holds jti)
    (hmeets : Runs.Meets (FirewallManager.sessionStep env config)
      (fun store call => call.Fresh env store) store calls) :
    (Runs.run (FirewallManager.sessionStep env config) store calls).Holds jti := by
  have hstep (before : AuthStore) (call : SessionCall) (hbefore : before.Holds jti)
      (hcall : call.Fresh env before) :
      (FirewallManager.sessionStep env config before call).Holds jti := hbefore.sessionStep hcall
  exact Runs.run_invariant_end hstep h hmeets

theorem accepts_of_issued {refresh : String} {calls : List SessionCall} {issued : IssuedToken}
    (hmeets : Runs.Meets (FirewallManager.sessionStep env config)
      (fun store call => call.Fresh env store) store calls)
    (hissued : issued ∈ issuedTokens env config refresh store calls) (now : Nat)
    (request : HttpRequest) :
    Accepts env config now (Runs.run (FirewallManager.sessionStep env config) store calls) request
        issued.accessToken ↔
      checkClientIp env config request = .ok () ∧
        now ≤ issued.issuedAt + accessTtlSecs + leewaySecs := by
  induction calls generalizing store with
  | nil => cases hissued
  | cons call calls ih =>
    obtain ⟨hcall, hrest⟩ := hmeets
    rcases mem_append.mp hissued with hfirst | hlater
    · cases call with
      | login start draw body =>
        obtain ⟨response, hlogin, rfl⟩ := mem_issuedBy hfirst
        obtain ⟨user, -, htoken, -, -⟩ := login_ok hlogin
        have hholds : AuthStore.Holds _ _ := ⟨_, holdsRow_login hcall hlogin⟩
        obtain ⟨row, hrow⟩ := hholds.run hrest
        have hlive : isJtiRevoked (Runs.run (FirewallManager.sessionStep env config) store
            (.login start draw body :: calls)) draw.jti.text = false := hrow.isJtiRevoked
        rw [accepts_issued_iff htoken, hlive]
        simp only [and_true]
      | refresh start draw body =>
        obtain ⟨response, hok, -⟩ := mem_issuedBy hfirst
        rw [refreshToken_of_fresh hcall.salt] at hok
        cases hok
      | logout => cases hfirst
    · exact ih hrest hlater

end Rows

/-- **What a logout ends.** Take any run of logins, refreshes and logouts with new salts and ids,
followed by a logout with a refresh token. After it, every access token of the session with that
refresh token is rejected if and only if the client is refused for its address, or all of these
access tokens have expired. -/
theorem logout_ends_session_iff (env : AuthEnv) (config : AuthConfig) (store : AuthStore)
    (calls : List SessionCall) (final : Nat) (salt : Salt) (request : HttpRequest)
    (refresh : String) (now : Nat) (http : HttpRequest)
    (hfresh : FreshDraws env store (calls ++ [.logout final salt request ⟨refresh⟩])) :
    (∀ issued ∈ issuedTokens env config refresh store calls,
        ¬ Accepts env config now (Runs.run (sessionStep env config) store
          (calls ++ [.logout final salt request ⟨refresh⟩])) http issued.accessToken) ↔
      checkClientIp env config http ≠ .ok () ∨
        ∀ issued ∈ issuedTokens env config refresh store calls,
          issued.issuedAt + accessTtlSecs + leewaySecs < now := by
  have hmeets : Runs.Meets (sessionStep env config) (fun store call => call.Fresh env store) store
      calls := (Runs.meets_concat.mp hfresh.meets).1
  have hstore : Runs.run (sessionStep env config) store
      (calls ++ [.logout final salt request ⟨refresh⟩]) =
        Runs.run (sessionStep env config) store calls := by
    rw [Runs.run_concat]
    rfl
  rw [hstore]
  constructor
  · intro hrejected
    by_cases hip : checkClientIp env config http = .ok ()
    · refine Or.inr ?_
      intro issued hissued
      by_contra hlive
      exact hrejected issued hissued
        ((accepts_of_issued hmeets hissued now http).mpr ⟨hip, Nat.le_of_not_lt hlive⟩)
    · exact Or.inl hip
  · intro hcause issued hissued haccepts
    obtain ⟨hip, hlive⟩ := (accepts_of_issued hmeets hissued now http).mp haccepts
    rcases hcause with hrefused | hexpired
    · exact hrefused hip
    · exact absurd (hexpired issued hissued) (Nat.not_lt.mpr hlive)

/-- The field has no dot. -/
def DotFree (field : String) : Prop :=
  '.' ∉ field.toList

instance (field : String) : Decidable (DotFree field) :=
  inferInstanceAs (Decidable (¬ _))

/-- The claims as a text with dots between them, if no claim has a dot. -/
def dottedToken (claims : AccessClaims) : Except String String :=
  if DotFree claims.sub ∧ DotFree claims.jti ∧ DotFree claims.role ∧ DotFree claims.username then
    .ok (String.ofList (claims.sub.toList ++ '.' :: ((toString claims.iat).toList ++ '.' ::
      ((toString claims.exp).toList ++ '.' :: (claims.jti.toList ++ '.' ::
        (claims.role.toList ++ '.' :: claims.username.toList))))))
  else .error "claim with a dot"

/-- Read the claims back. -/
def readDottedToken (token : String) : Option AccessClaims :=
  match Text.cut '.' token.toList with
  | [sub, iat, exp, jti, role, username] =>
    match Text.parseDecimal (String.ofList iat), Text.parseDecimal (String.ofList exp) with
    | some iat, some exp =>
      some ⟨String.ofList sub, iat, exp, String.ofList jti, String.ofList role,
        String.ofList username⟩
    | _, _ => none
  | _ => none

theorem dotFree_toString (n : Nat) : DotFree (toString n) := by
  intro hmem
  exact absurd (Text.isDigit_of_mem_toString hmem) (by decide)

theorem readDottedToken_dottedToken (claims : AccessClaims) (token : String)
    (h : dottedToken claims = .ok token) : readDottedToken token = some claims := by
  unfold dottedToken at h
  split at h
  next hfree =>
    obtain ⟨hsub, hjti, hrole, husername⟩ := hfree
    obtain rfl := Except.ok.inj h
    unfold readDottedToken
    rw [String.toList_ofList, Text.cut_field hsub, Text.cut_field (dotFree_toString _),
      Text.cut_field (dotFree_toString _), Text.cut_field hjti, Text.cut_field hrole,
      Text.cut_field_end husername]
    simp only [String.ofList_toList, Text.parseDecimal_toString]
  next => cases h

/-- The number of big-endian bytes. -/
def bytesNumber (bytes : List UInt8) : Nat :=
  bytes.foldl (fun number byte => 256 * number + byte.toNat) 0

/-- Read a UUID: the number of its hexadecimal digits, if its printed form is the text itself. -/
def readUuid (text : String) : Option Uuid :=
  ((Text.hexDecodeChars (text.toList.filter (· ≠ '-'))).map fun bytes =>
    (⟨BitVec.ofNat 128 (bytesNumber bytes)⟩ : Uuid)).filter fun id => id.text == text

theorem bytesNumber_digits (k n : Nat) :
    bytesNumber ((List.range k).map fun i => UInt8.ofNat (n / 2 ^ (8 * (k - 1 - i)))) =
      n % 2 ^ (8 * k) := by
  induction k generalizing n with
  | zero => simp [bytesNumber, Nat.mod_one]
  | succ k ih =>
    -- All bytes but the last one are those of the number without its last byte.
    have hshift : (List.range k).map (fun i => UInt8.ofNat (n / 2 ^ (8 * (k + 1 - 1 - i)))) =
        (List.range k).map fun i => UInt8.ofNat (n / 256 / 2 ^ (8 * (k - 1 - i))) := by
      refine map_congr_left fun i hi => ?_
      have hi := mem_range.mp hi
      have hsplit : 8 * (k + 1 - 1 - i) = 8 + 8 * (k - 1 - i) := by omega
      rw [hsplit, Nat.pow_add, Nat.div_div_eq_div_mul]
    have hpow : 2 ^ (8 * (k + 1)) = 256 * 2 ^ (8 * k) := by
      rw [Nat.mul_succ, Nat.pow_add, Nat.mul_comm]
    unfold bytesNumber at ih ⊢
    rw [range_succ, map_append, foldl_append, hshift, ih, hpow, Nat.mod_mul]
    simp [Nat.add_comm]

/-- A printed UUID is read back. -/
theorem readUuid_text (id : Uuid) : readUuid id.text = some id := by
  have hbytes : Text.hexDecodeChars (Text.hexEncode id.asBytes).toList = some id.asBytes :=
    Text.hexDecode_hexEncode id.asBytes
  have hnumber : bytesNumber id.asBytes = id.value.toNat := by
    rw [Uuid.asBytes, bytesNumber_digits 16, Nat.mod_eq_of_lt id.value.isLt]
  rw [readUuid, id.filter_text, hbytes, Option.map_some, hnumber, BitVec.ofNat_toNat,
    BitVec.setWidth_eq]
  simp

/-- Hashes and tokens that can be read, and UUIDs as they are printed. -/
def plainAuth : AuthEnv where
  text := dottedText
  digest := fun salt password => salt ++ password
  verify := fun password hash => password == hash
  encode := dottedToken
  decode := readDottedToken
  decode_encode := readDottedToken_dottedToken
  parseUuid := readUuid
  rfc3339 := toString

/-- One admin and no session. -/
def oneAdmin : AuthStore where
  users := Table.singleton { dummyUser with
    id := ⟨1⟩, username := "admin", role := .admin, passwordHash := some "secret",
    isActive := true }
  tokens := .empty

/-- No address is refused. -/
def openConfig : AuthConfig :=
  ⟨[], []⟩

/-- A request from nowhere in particular. -/
def plainRequest : HttpRequest :=
  ⟨none, none, none⟩

/-- The salt of the first login. -/
def firstSalt : Salt := ⟨"Zmlyc3Q", by decide⟩

/-- The salt of the second login. -/
def secondSalt : Salt := ⟨"c2Vjb25k", by decide⟩

/-- What the login of the admin draws. -/
def adminDraw : LoginDraw := ⟨⟨10⟩, ⟨11⟩, firstSalt⟩

/-- The login of the admin. -/
def adminLogin : SessionCall :=
  .login 100 adminDraw ⟨"admin", "secret", none⟩

/-- The answer to it. -/
def adminAnswer : Except AuthError LoginResponse :=
  (login plainAuth 100 adminDraw ⟨"admin", "secret", none⟩ oneAdmin).1

theorem adminToken_issued :
    issueAccessToken plainAuth 100 adminDraw.jti ⟨1⟩ UserRole.admin.asStr "admin" =
      .ok ((adminAnswer.toOption.map LoginResponse.accessToken).getD "", adminDraw.jti.text) := by
  decide +kernel

/-- The logout of the session, with its access token in the request. -/
def adminLogout : SessionCall :=
  .logout 101 secondSalt
    (plainRequest.bearer ((adminAnswer.toOption.map LoginResponse.accessToken).getD ""))
    ⟨adminDraw.refreshToken.text⟩

theorem freshDraws_admin : FreshDraws plainAuth oneAdmin ([adminLogin] ++ [adminLogout]) := by
  refine DistinctDraws.freshDraws (pairwise_pair.mpr ⟨by decide, ?_⟩) oneAdmin.users
  intro jti _ hnone
  cases hnone

theorem issuedAt_adminLogin {issued : IssuedToken} (h : issued ∈ issuedTokens plainAuth openConfig
    adminDraw.refreshToken.text oneAdmin [adminLogin]) : issued.issuedAt = 100 := by
  have hissued : issued ∈ issuedBy adminDraw.refreshToken.text 100 adminAnswer :=
    (mem_append.mp h).resolve_right not_mem_nil
  obtain ⟨response, -, rfl⟩ := mem_issuedBy hissued
  rfl

theorem issuedTokens_adminLogin : issuedTokens plainAuth openConfig adminDraw.refreshToken.text
    oneAdmin [adminLogin] ≠ [] := by
  decide +kernel

/-- Half an hour after the login, the access token of the session is rejected. -/
theorem session_ended_by_time :
    issuedTokens plainAuth openConfig adminDraw.refreshToken.text oneAdmin [adminLogin] ≠ [] ∧
      ∀ issued ∈ issuedTokens plainAuth openConfig adminDraw.refreshToken.text oneAdmin
          [adminLogin],
        ¬ Accepts plainAuth openConfig 1900 (Runs.run (sessionStep plainAuth openConfig) oneAdmin
          ([adminLogin] ++ [adminLogout])) plainRequest issued.accessToken := by
  refine ⟨issuedTokens_adminLogin, ?_⟩
  refine (logout_ends_session_iff plainAuth openConfig oneAdmin [adminLogin] 101 secondSalt _
    adminDraw.refreshToken.text 1900 plainRequest freshDraws_admin).mpr (Or.inr ?_)
  intro issued hissued
  rw [issuedAt_adminLogin hissued]
  show 100 + 900 + 5 < 1900
  omega

/-- Right after the logout, the access token of the session is accepted. -/
theorem logout_leaves_access :
    ∃ issued ∈ issuedTokens plainAuth openConfig adminDraw.refreshToken.text oneAdmin [adminLogin],
      Accepts plainAuth openConfig 102 (Runs.run (sessionStep plainAuth openConfig) oneAdmin
        ([adminLogin] ++ [adminLogout])) plainRequest issued.accessToken := by
  have hmeets : Runs.Meets (sessionStep plainAuth openConfig)
      (fun store call => call.Fresh plainAuth store) oneAdmin [adminLogin] :=
    (Runs.meets_concat.mp freshDraws_admin.meets).1
  obtain ⟨issued, hissued⟩ := exists_mem_of_ne_nil _ issuedTokens_adminLogin
  refine ⟨issued, hissued, (accepts_of_issued hmeets hissued 102 plainRequest).mpr ⟨rfl, ?_⟩⟩
  rw [issuedAt_adminLogin hissued]
  show 102 ≤ 100 + 900 + 5
  omega

end FirewallManager
