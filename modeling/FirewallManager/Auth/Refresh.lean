import FirewallManager.Auth.Logout

/-!
# What a refresh does

A refresh token should give a new access token as long as the row of its login is neither revoked
nor expired, and the access token before it should then no longer be accepted. `RefreshWorks` says
so for one refresh after a run. The handler never finds the row, so it refuses every refresh token:
`refresh_works_iff` says that the law holds for those that should be refused, and
`liveSession_of_login` that a session should be served for an hour after its login.
-/

namespace FirewallManager

/-- A login of the run has returned the refresh token, and its row is neither revoked nor expired.
-/
def LiveSession (env : AuthEnv) (config : AuthConfig) (store : AuthStore) (calls : List SessionCall)
    (now : Nat) (refresh : String) : Prop :=
  ∃ earlier start draw body later response, calls = earlier ++ .login start draw body :: later ∧
    (login env start draw body (Runs.run (sessionStep env config) store earlier)).1 = .ok response ∧
    response.refreshToken = refresh ∧
    ∃ row ∈ (Runs.run (sessionStep env config) store calls).tokens.rows,
      row.tokenHash = hashPassword env draw.salt refresh ∧ row.revoked = false ∧ now < row.expiresAt

/-- A refresh after a run works as it should: it succeeds if the session is live and only then, and
if it does, the last access token of the session is no longer accepted and the new one is. -/
structure RefreshWorks (env : AuthEnv) (config : AuthConfig) (store : AuthStore)
    (calls : List SessionCall) (now : Nat) (draw : RefreshDraw) (refresh : String) : Prop where
  succeeds_iff : (∃ response, (refreshToken env now draw ⟨refresh⟩
      (Runs.run (sessionStep env config) store calls)).1 = .ok response) ↔
    LiveSession env config store calls now refresh
  rotates : ∀ response, (refreshToken env now draw ⟨refresh⟩
      (Runs.run (sessionStep env config) store calls)).1 = .ok response →
    ∀ http, checkClientIp env config http = .ok () →
      (∀ previous, (issuedTokens env config refresh store calls).getLast? = some previous →
        ¬ Accepts env config now (Runs.run (sessionStep env config) store
          (calls ++ [.refresh now draw ⟨refresh⟩])) http previous.accessToken) ∧
      Accepts env config now (Runs.run (sessionStep env config) store
        (calls ++ [.refresh now draw ⟨refresh⟩])) http response.accessToken

section Runs

variable {env : AuthEnv} {config : AuthConfig} {store : AuthStore}

theorem mem_run {row : RefreshToken} (h : row ∈ store.tokens.rows) {calls : List SessionCall}
    (hmeets : Runs.Meets (sessionStep env config) (fun store call => call.Fresh env store) store
      calls) :
    row ∈ (Runs.run (sessionStep env config) store calls).tokens.rows := by
  have hstep (before : AuthStore) (call : SessionCall) (hbefore : row ∈ before.tokens.rows)
      (hcall : call.Fresh env before) :
      row ∈ (sessionStep env config before call).tokens.rows := mem_sessionStep hbefore hcall
  exact Runs.run_invariant_end hstep h hmeets

theorem liveSession_of_login {earlier later : List SessionCall} {start now : Nat}
    {draw : LoginDraw} {body : LoginRequest} {response : LoginResponse}
    (hmeets : Runs.Meets (sessionStep env config) (fun store call => call.Fresh env store) store
      (earlier ++ .login start draw body :: later))
    (hlogin : (login env start draw body (Runs.run (sessionStep env config) store earlier)).1 =
      .ok response)
    (hlive : now < start + refreshTtlSecs) :
    LiveSession env config store (earlier ++ .login start draw body :: later) now
      response.refreshToken := by
  obtain ⟨-, hcall, hlater⟩ := Runs.meets_append.mp hmeets
  have hrow := tokens_login_ok hcall.salt hlogin
  obtain ⟨user, -, -, hrefresh, -⟩ := login_ok hlogin
  refine ⟨earlier, start, draw, body, later, response, rfl, hlogin, rfl, ?_⟩
  refine ⟨draw.row env start response.user.id, ?_, ?_, rfl, hlive⟩
  · rw [Runs.run_append]
    exact mem_run hrow hlater
  · rw [hrefresh]
    rfl

end Runs

/-- **When a refresh works.** In every run of logins, refreshes and logouts with new salts and ids,
from a manager without sessions, a refresh works as it should if and only if the session of the
refresh token is not live: every refresh token is refused. -/
theorem refresh_works_iff (env : AuthEnv) (config : AuthConfig) (users : Table User.id)
    (calls : List SessionCall) (now : Nat) (draw : RefreshDraw) (refresh : String)
    (hdraws : DistinctDraws (calls ++ [.refresh now draw ⟨refresh⟩])) :
    RefreshWorks env config ⟨users, .empty⟩ calls now draw refresh ↔
      ¬ LiveSession env config ⟨users, .empty⟩ calls now refresh := by
  have hfresh : SessionCall.Fresh env (Runs.run (sessionStep env config) ⟨users, .empty⟩ calls)
      (.refresh now draw ⟨refresh⟩) := (Runs.meets_concat.mp (hdraws.freshDraws users).meets).2
  have hrefused : ∀ response, (refreshToken env now draw ⟨refresh⟩
      (Runs.run (sessionStep env config) ⟨users, .empty⟩ calls)).1 ≠ .ok response := by
    intro response hok
    rw [refreshToken_of_fresh hfresh.salt] at hok
    cases hok
  constructor
  · intro hworks hlive
    obtain ⟨response, hok⟩ := hworks.succeeds_iff.mpr hlive
    exact hrefused response hok
  · intro hdead
    refine ⟨?_, ?_⟩
    · exact iff_of_false (fun hok => hok.elim hrefused) hdead
    · intro response hok
      exact absurd hok (hrefused response)

/-- A refresh with the refresh token of the admin. -/
def adminRefresh (now : Nat) : SessionCall :=
  .refresh now ⟨⟨12⟩, secondSalt⟩ ⟨adminDraw.refreshToken.text⟩

theorem distinctDraws_admin (now : Nat) : DistinctDraws ([adminLogin] ++ [adminRefresh now]) := by
  refine List.pairwise_pair.mpr ⟨?_, ?_⟩
  · show firstSalt.text ≠ secondSalt.text
    decide
  · intro jti hlogin hrefresh
    have hsame : some adminDraw.jti = some (⟨12⟩ : Uuid) := hlogin.trans hrefresh.symm
    exact absurd hsame (by decide)

/-- Two hours after the login the session is over, and the refresh token is refused as it should. -/
theorem refresh_works_after_expiry :
    RefreshWorks plainAuth openConfig oneAdmin [adminLogin] 7300 ⟨⟨12⟩, secondSalt⟩
      adminDraw.refreshToken.text := by
  refine (refresh_works_iff plainAuth openConfig oneAdmin.users [adminLogin] 7300
    ⟨⟨12⟩, secondSalt⟩ adminDraw.refreshToken.text (distinctDraws_admin 7300)).mpr ?_
  rintro ⟨earlier, start, draw, body, later, response, -, -, -, row, hrow, -, -, hlive⟩
  have hexpired : ∀ row ∈ (Runs.run (sessionStep plainAuth openConfig) ⟨oneAdmin.users, .empty⟩
      [adminLogin]).tokens.rows, row.expiresAt ≤ 3700 := by decide +kernel
  have hpast := hexpired row hrow
  omega

/-- A minute after the login the session is live, and the refresh token is refused. -/
theorem live_session_refused :
    LiveSession plainAuth openConfig oneAdmin [adminLogin] 160 adminDraw.refreshToken.text ∧
      (refreshToken plainAuth 160 ⟨⟨12⟩, secondSalt⟩ ⟨adminDraw.refreshToken.text⟩
        (Runs.run (sessionStep plainAuth openConfig) oneAdmin [adminLogin])).1 =
          .error (.unauthorized "Invalid refresh token") := by
  have hmeets : Runs.Meets (sessionStep plainAuth openConfig)
      (fun store call => call.Fresh plainAuth store) oneAdmin
        ([adminLogin] ++ [adminRefresh 160]) :=
    ((distinctDraws_admin 160).freshDraws oneAdmin.users).meets
  obtain ⟨hlogin, hrefresh⟩ := Runs.meets_concat.mp hmeets
  refine ⟨?_, ?_⟩
  · cases hanswer : adminAnswer with
    | error refusal =>
      have hsome : adminAnswer.isOk = true := by decide +kernel
      rw [hanswer] at hsome
      cases hsome
    | ok response =>
      have hrefreshToken : response.refreshToken = adminDraw.refreshToken.text := by
        obtain ⟨user, -, -, htoken, -⟩ := login_ok hanswer
        exact htoken
      have hlive : LiveSession plainAuth openConfig oneAdmin ([] ++ [adminLogin]) 160
          response.refreshToken :=
        liveSession_of_login hlogin hanswer (show 160 < 100 + 3600 by omega)
      rw [hrefreshToken] at hlive
      exact hlive
  · rw [refreshToken_of_fresh hrefresh.salt]

end FirewallManager
