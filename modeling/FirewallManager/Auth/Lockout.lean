import FirewallManager.Auth.Logout

/-!
# Account lockout

A login reads the number of failed attempts together with the rest of the account. A wrong password
is counted in a second statement, and whether a third one locks the account goes by the number that
was read in the first. Logins run at the same time, so many can read the same number.

`loginStep` interleaves the statements, and `login_eq_steps` puts them together again. Read
`locked_iff` first: after any interleaving, an account is locked if and only if it was locked at the
start and nobody has signed in since, or one of the wrong attempts since the last successful login
had read at least four failures. `lockout_iff` is what this means for five wrong attempts.
-/

namespace FirewallManager

open List

/-- How far a login has come: the account is read, the password was wrong, the failure is counted
and the lock is still to come, the password was right, the counter is reset, or it has answered. -/
inductive LoginCall where
  | selected (draw : LoginDraw) (body : LoginRequest) (user : User)
  | wrong (user : User)
  | locking (user : User) (due : lockoutAttempts ≤ user.failedLoginAttempts + 1)
  | right (draw : LoginDraw) (user : User)
  | recorded (draw : LoginDraw) (user : User)
  | answered
  deriving DecidableEq

/-- The end of an attempt: a wrong password, with the number of failures that the attempt had read,
or a successful login. -/
inductive LoginEvent where
  | wrong (user : Uuid) (read : Int)
  | success (user : Uuid)
  deriving DecidableEq, Repr

/-- The tables, the logins that were started, and the attempts that have ended. -/
structure LoginState where
  store : AuthStore
  calls : List LoginCall
  log : List LoginEvent

/-- The statements of a login. The check of the account and of the password is between the first
statement and the others. -/
inductive LoginAction where
  | select (draw : LoginDraw) (body : LoginRequest)
  | check (now : Nat) (call : Nat)
  | count (call : Nat)
  | lock (now : Nat) (call : Nat)
  | reset (now : Nat) (call : Nat)
  | insert (now : Nat) (call : Nat)
  deriving DecidableEq

/-- An attempt on the account reaches the check of the password. -/
def User.Verifies (user : User) (now : Nat) : Prop :=
  user.isActive = true ∧ ∀ lock, user.lockedUntil = some lock → ¬ now < lock

section Steps

variable (env : AuthEnv)

/-- What the check of an account and a password leads to. -/
def checkAccount (now : Nat) (draw : LoginDraw) (body : LoginRequest) (user : User) : LoginCall :=
  if !user.isActive then .answered
  else if user.lockedUntil.any fun lock => decide (now < lock) then .answered
  else if !env.verify body.password (user.passwordHash.getD "") then .wrong user
  else .right draw user

/-- What a statement does. A call that is not at the statement stays where it is. -/
def loginStep (state : LoginState) : LoginAction → LoginState
  | .select draw body =>
    { state with calls := state.calls ++
        [.selected draw body ((state.store.localUser body.username).getD dummyUser)] }
  | .check now i =>
    match state.calls[i]? with
    | some (.selected draw body user) =>
      { state with calls := state.calls.set i (checkAccount env now draw body user) }
    | _ => state
  | .count i =>
    match state.calls[i]? with
    | some (.wrong user) =>
      -- The lock goes by the number that the first statement has read.
      if due : lockoutAttempts ≤ user.failedLoginAttempts + 1 then
        { state with
          store := state.store.countFailure user.id
          calls := state.calls.set i (.locking user due) }
      else
        { store := state.store.countFailure user.id
          calls := state.calls.set i .answered
          log := state.log ++ [.wrong user.id user.failedLoginAttempts] }
    | _ => state
  | .lock now i =>
    match state.calls[i]? with
    | some (.locking user _) =>
      { store := state.store.lockAccount now user.id
        calls := state.calls.set i .answered
        log := state.log ++ [.wrong user.id user.failedLoginAttempts] }
    | _ => state
  | .reset now i =>
    match state.calls[i]? with
    | some (.right draw user) =>
      { store := state.store.recordLogin now user.id
        calls := state.calls.set i (.recorded draw user)
        log := state.log ++ [.success user.id] }
    | _ => state
  | .insert now i =>
    match state.calls[i]? with
    | some (.recorded draw user) =>
      { state with
        store :=
          match issueAccessToken env now draw.jti user.id user.role.asStr user.username with
          | .error _ => state.store
          | .ok _ => state.store.storeToken (draw.row env now user.id)
        calls := state.calls.set i .answered }
    | _ => state

/-- One after the other, the statements are those of the handler. -/
theorem login_eq_steps (now : Nat) (draw : LoginDraw) (body : LoginRequest) (state : LoginState) :
    (Runs.run (loginStep env) state [.select draw body, .check now state.calls.length,
        .count state.calls.length, .lock now state.calls.length, .reset now state.calls.length,
        .insert now state.calls.length]).store = (login env now draw body state.store).2 := by
  unfold login
  generalize huser : (state.store.localUser body.username).getD dummyUser = user
  simp only [Runs.run, foldl_cons, foldl_nil, loginStep, huser,
    getElem?_concat_length, set_append_right, Nat.le_refl, Nat.sub_self,
    set_cons_zero, checkAccount]
  by_cases hactive : (!user.isActive) = true
  · simp [hactive]
  · by_cases hlocked : (user.lockedUntil.any fun lock => decide (now < lock)) = true
    · simp [hactive, hlocked]
    · by_cases hwrong : (!env.verify body.password (user.passwordHash.getD "")) = true
      · by_cases hdue : lockoutAttempts ≤ user.failedLoginAttempts + 1
        · simp [hactive, hlocked, hwrong, hdue, AuthStore.recordFailure]
        · simp [hactive, hlocked, hwrong, hdue, AuthStore.recordFailure]
      · cases hissue : issueAccessToken env now draw.jti user.id user.role.asStr user.username with
        | error message => simp [hactive, hlocked, hwrong, hissue]
        | ok pair => simp [hactive, hlocked, hwrong, hissue]

end Steps

/-- The numbers that the wrong attempts on an account had read, since its last successful login. -/
def wrongSince (user : Uuid) (log : List LoginEvent) : List Int :=
  log.foldl (fun reads event =>
    match event with
    | .wrong account read => if account = user then reads ++ [read] else reads
    | .success account => if account = user then [] else reads) []

theorem wrongSince_wrong (user account : Uuid) (read : Int) (log : List LoginEvent) :
    wrongSince user (log ++ [.wrong account read]) =
      if account = user then wrongSince user log ++ [read] else wrongSince user log := by
  simp [wrongSince]

theorem wrongSince_success (user account : Uuid) (log : List LoginEvent) :
    wrongSince user (log ++ [.success account]) =
      if account = user then [] else wrongSince user log := by
  simp [wrongSince]

/-- The lock of an account. -/
def AuthStore.lockOf (store : AuthStore) (user : Uuid) : Option Nat :=
  (store.users.find? user).bind User.lockedUntil

/-- The account is locked, and no attempt on it that starts now reaches the check of the password
before the lock ends. -/
def AuthStore.LockedOut (store : AuthStore) (user : Uuid) : Prop :=
  ∃ lock, store.lockOf user = some lock ∧
    ∀ username row, store.localUser username = some row → row.id = user →
      ∀ now < lock, ¬ row.Verifies now

/-- The accounts that a call will still write to are in the table. -/
def LoginCall.Known (store : AuthStore) : LoginCall → Prop
  | .selected _ _ user => user.isActive = true → store.users.has user.id = true
  | .wrong user => store.users.has user.id = true
  | .locking user _ => store.users.has user.id = true
  | .right _ user => store.users.has user.id = true
  | _ => True

/-- What an interleaving keeps about an account: the calls know their accounts, and the account is
locked if and only if it was at the start and nobody has signed in since, or a wrong attempt since
the last successful login had read at least four failures. -/
structure LockTracked (start : AuthStore) (user : Uuid) (state : LoginState) : Prop where
  known : ∀ call ∈ state.calls, call.Known state.store
  locked : state.store.lockOf user ≠ none ↔
    (start.lockOf user ≠ none ∧ LoginEvent.success user ∉ state.log) ∨
      ∃ read ∈ wrongSince user state.log, 4 ≤ read

section Tracking

variable {env : AuthEnv} {start : AuthStore} {user : Uuid} {state : LoginState}

theorem lockOf_update (store : AuthStore) (cond : User → Bool) (change : User → User)
    (hkey : ∀ row, (change row).id = row.id) (user : Uuid) :
    AuthStore.lockOf { store with users := store.users.update cond change hkey } user =
      (store.users.find? user).bind fun row =>
        if cond row then (change row).lockedUntil else row.lockedUntil := by
  unfold AuthStore.lockOf
  dsimp only
  rw [Table.find?_update, Option.bind_map]
  congr 1
  funext row
  show User.lockedUntil (if cond row = true then change row else row) = _
  split <;> rfl

variable {store : AuthStore} {account : Uuid}

theorem lockOf_update_account {change : User → User} (hkey : ∀ row, (change row).id = row.id)
    {lock : Option Nat} (hlock : ∀ row, (change row).lockedUntil = lock)
    (h : store.users.has account = true) (user : Uuid) :
    AuthStore.lockOf { store with
        users := store.users.update (fun row => decide (row.id = account)) change hkey } user =
      if account = user then lock else store.lockOf user := by
  rw [lockOf_update, AuthStore.lockOf]
  cases hfound : store.users.find? user with
  | none =>
    have hother : account ≠ user := by
      rintro rfl
      obtain ⟨row, hrow, hid⟩ := Table.has_eq_true_iff.mp h
      rw [Table.find?_eq_some_iff.mpr ⟨hrow, hid⟩] at hfound
      cases hfound
    rw [if_neg hother]
    rfl
  | some row =>
    have hid : row.id = user := (Table.mem_of_find? hfound).2
    rw [Option.bind_some, Option.bind_some, hlock, hid]
    by_cases hsame : account = user
    · rw [if_pos hsame, if_pos (decide_eq_true hsame.symm)]
    · rw [if_neg hsame, if_neg fun hdecide => hsame (of_decide_eq_true hdecide).symm]

theorem has_countFailure (store : AuthStore) (account id : Uuid) :
    (store.countFailure account).users.has id = store.users.has id := by
  dsimp only [AuthStore.countFailure]
  rw [Table.has_update]

theorem has_lockAccount (store : AuthStore) (now : Nat) (account id : Uuid) :
    (store.lockAccount now account).users.has id = store.users.has id := by
  dsimp only [AuthStore.lockAccount]
  rw [Table.has_update]

theorem has_recordLogin (store : AuthStore) (now : Nat) (account id : Uuid) :
    (store.recordLogin now account).users.has id = store.users.has id := by
  dsimp only [AuthStore.recordLogin]
  rw [Table.has_update]

theorem lockOf_countFailure (store : AuthStore) (account user : Uuid) :
    (store.countFailure account).lockOf user = store.lockOf user := by
  rw [AuthStore.countFailure, lockOf_update]
  simp only [ite_self]
  rfl

theorem lockOf_lockAccount (h : store.users.has account = true) (now : Nat) (user : Uuid) :
    (store.lockAccount now account).lockOf user =
      if account = user then some (now + lockoutSecs) else store.lockOf user := by
  rw [AuthStore.lockAccount, lockOf_update_account _ _ h user]
  intro row
  rfl

theorem lockOf_recordLogin (h : store.users.has account = true) (now : Nat) (user : Uuid) :
    (store.recordLogin now account).lockOf user =
      if account = user then none else store.lockOf user := by
  rw [AuthStore.recordLogin, lockOf_update_account _ _ h user]
  intro row
  rfl

theorem LoginCall.Known.mono {later : AuthStore} {call : LoginCall} (h : call.Known store)
    (hhas : ∀ id, later.users.has id = store.users.has id) : call.Known later := by
  cases call with
  | selected draw body account => exact fun hactive => (hhas _).trans (h hactive)
  | wrong account | locking account | right draw account => exact (hhas _).trans h
  | recorded | answered => trivial

theorem LockTracked.known_set (h : LockTracked start user state) {later : AuthStore}
    (hhas : ∀ id, later.users.has id = state.store.users.has id) {i : Nat} {call : LoginCall}
    (hcall : call.Known later) : ∀ other ∈ state.calls.set i call, other.Known later := by
  intro other hother
  rcases mem_or_eq_of_mem_set hother with hold | rfl
  · exact (h.known other hold).mono hhas
  · exact hcall

theorem LockTracked.known_at (h : LockTracked start user state) {i : Nat} {call : LoginCall}
    (hcall : state.calls[i]? = some call) : call.Known state.store :=
  h.known call (mem_of_getElem? hcall)

theorem known_checkAccount {account : User} {draw : LoginDraw} {body : LoginRequest}
    (h : (LoginCall.selected draw body account).Known store) (now : Nat) :
    (checkAccount env now draw body account).Known store := by
  unfold checkAccount
  split
  next => trivial
  next hactive =>
    have hhas : store.users.has account.id = true := h (by simpa using hactive)
    split
    next => trivial
    next =>
      split
      next => exact hhas
      next => exact hhas

/-- What one more attempt with a wrong password does to the condition of the lock. -/
theorem read_wrong_iff {log : List LoginEvent} {read : Int} :
    (∃ other ∈ wrongSince user (log ++ [.wrong account read]), 4 ≤ other) ↔
      (∃ other ∈ wrongSince user log, 4 ≤ other) ∨ account = user ∧ 4 ≤ read := by
  rw [wrongSince_wrong]
  by_cases hsame : account = user
  · rw [if_pos hsame]
    simp only [mem_append, mem_singleton, or_and_right, exists_or, exists_eq_left, hsame,
      true_and]
  · rw [if_neg hsame]
    simp only [hsame, false_and, or_false]

theorem not_mem_log_wrong {log : List LoginEvent} {read : Int} :
    LoginEvent.success user ∉ log ++ [.wrong account read] ↔ LoginEvent.success user ∉ log := by
  simp

/-- A statement keeps the account tracked. -/
theorem LockTracked.loginStep (h : LockTracked start user state) (action : LoginAction) :
    LockTracked start user (loginStep env state action) := by
  cases action with
  | select draw body =>
    refine ⟨?_, h.locked⟩
    intro call hcall
    rcases mem_append.mp hcall with hold | hnew
    · exact h.known call hold
    · obtain rfl := mem_singleton.mp hnew
      intro hactive
      cases hfound : state.store.localUser body.username with
      | none =>
        rw [hfound] at hactive
        cases hactive
      | some row =>
        obtain ⟨hrow, -⟩ := Table.mem_select.mp (mem_of_mem_head? hfound)
        exact Table.has_eq_true_iff.mpr ⟨row, hrow, rfl⟩
  | check now i =>
    dsimp only [FirewallManager.loginStep]
    split
    next draw body account hcall =>
      exact ⟨h.known_set (fun _ => rfl) (known_checkAccount (h.known_at hcall) now), h.locked⟩
    next => exact h
  | count i =>
    dsimp only [FirewallManager.loginStep]
    split
    next account hcall =>
      have hhas := has_countFailure state.store account.id
      have hlock := lockOf_countFailure state.store account.id user
      split
      next due =>
        refine ⟨h.known_set hhas ((hhas _).trans (h.known_at hcall)), ?_⟩
        rw [hlock]
        exact h.locked
      next hdue =>
        -- Such an attempt has read less than four failures.
        have hread : ¬ 4 ≤ account.failedLoginAttempts := by
          unfold lockoutAttempts at hdue
          omega
        refine ⟨h.known_set hhas trivial, ?_⟩
        rw [hlock, h.locked, not_mem_log_wrong, read_wrong_iff]
        simp only [hread, and_false, or_false]
    next => exact h
  | lock now i =>
    dsimp only [FirewallManager.loginStep]
    split
    next account due hcall =>
      have hread : 4 ≤ account.failedLoginAttempts := by
        unfold lockoutAttempts at due
        omega
      refine ⟨h.known_set (has_lockAccount _ now _) trivial, ?_⟩
      have hknown : state.store.users.has account.id = true := h.known_at hcall
      rw [lockOf_lockAccount hknown, not_mem_log_wrong, read_wrong_iff]
      by_cases hsame : account.id = user
      · simp [hsame, hread]
      · rw [if_neg hsame]
        simp only [hsame, false_and, or_false]
        exact h.locked
    next => exact h
  | reset now i =>
    dsimp only [FirewallManager.loginStep]
    split
    next draw account hcall =>
      refine ⟨h.known_set (has_recordLogin _ now _) trivial, ?_⟩
      have hknown : state.store.users.has account.id = true := h.known_at hcall
      rw [lockOf_recordLogin hknown, wrongSince_success]
      by_cases hsame : account.id = user
      · simp [hsame]
      · have hother : LoginEvent.success user ≠ .success account.id := by
          intro heq
          exact hsame (LoginEvent.success.inj heq).symm
        simp only [if_neg hsame, mem_append, mem_singleton, hother, or_false]
        exact h.locked
    next => exact h
  | insert now i =>
    dsimp only [FirewallManager.loginStep]
    split
    next draw account hcall =>
      have husers (answer : Except String (String × String)) :
          (match answer with
            | .error _ => state.store
            | .ok _ => state.store.storeToken (draw.row env now account.id)).users =
          state.store.users := by
        cases answer <;> rfl
      refine ⟨h.known_set (fun id => by rw [husers]) trivial, ?_⟩
      rw [AuthStore.lockOf, husers]
      exact h.locked
    next => exact h

/-- An account that is locked refuses the attempts that start before the lock ends. -/
theorem lockedOut_iff : store.LockedOut user ↔ store.lockOf user ≠ none := by
  constructor
  · rintro ⟨lock, hlock, -⟩ hnone
    rw [hlock] at hnone
    cases hnone
  · intro hlocked
    obtain ⟨lock, hlock⟩ := Option.ne_none_iff_exists'.mp hlocked
    refine ⟨lock, hlock, ?_⟩
    intro username row hfound hid now hnow hverifies
    obtain ⟨hrow, -⟩ := Table.mem_select.mp (mem_of_mem_head? hfound)
    rw [AuthStore.lockOf, Table.find?_eq_some_iff.mpr ⟨hrow, hid⟩, Option.bind_some] at hlock
    exact hverifies.2 lock hlock hnow

/-- After any interleaving, what the lock of an account goes by. -/
theorem locked_iff (env : AuthEnv) (start : AuthStore) (user : Uuid) (actions : List LoginAction) :
    (Runs.run (FirewallManager.loginStep env) ⟨start, [], []⟩ actions).store.lockOf user ≠ none ↔
      (start.lockOf user ≠ none ∧ LoginEvent.success user ∉
          (Runs.run (FirewallManager.loginStep env) ⟨start, [], []⟩ actions).log) ∨
        ∃ read ∈ wrongSince user
          (Runs.run (FirewallManager.loginStep env) ⟨start, [], []⟩ actions).log, 4 ≤ read := by
  suffices htracked : LockTracked start user
      (Runs.run (FirewallManager.loginStep env) ⟨start, [], []⟩ actions) from htracked.locked
  induction actions using List.reverseRecOn with
  | nil =>
    refine ⟨?_, ?_⟩
    · intro call hcall
      cases hcall
    · simp [wrongSince]
  | append_singleton actions action ih =>
    rw [Runs.run_concat]
    exact ih.loginStep action

end Tracking

/-- **When five wrong attempts lock an account.** Let the statements of any logins come in any
order, and let at least five wrong attempts have ended since the last successful login. The account
is locked, and attempts that start now do not reach the check of the password before the lock ends,
if and only if one of these attempts had read at least four failures, or the account was locked
before and nobody has signed in since. -/
theorem lockout_iff (env : AuthEnv) (start : AuthStore) (user : Uuid)
    (actions : List LoginAction) :
    (5 ≤ (wrongSince user (Runs.run (loginStep env) ⟨start, [], []⟩ actions).log).length →
        (Runs.run (loginStep env) ⟨start, [], []⟩ actions).store.LockedOut user) ↔
      (5 ≤ (wrongSince user (Runs.run (loginStep env) ⟨start, [], []⟩ actions).log).length →
        (start.lockOf user ≠ none ∧ LoginEvent.success user ∉
            (Runs.run (loginStep env) ⟨start, [], []⟩ actions).log) ∨
          ∃ read ∈ wrongSince user (Runs.run (loginStep env) ⟨start, [], []⟩ actions).log,
            4 ≤ read) := by
  rw [lockedOut_iff, locked_iff]

/-- Five guesses at the password of the admin, at the same time. -/
def fiveGuesses : List LoginAction :=
  List.replicate 5 (.select adminDraw ⟨"admin", "guess", none⟩) ++
    (List.range 5).map (LoginAction.check 100) ++ (List.range 5).map LoginAction.count

/-- The state after them. -/
def guessed : LoginState :=
  Runs.run (loginStep plainAuth) ⟨oneAdmin, [], []⟩ fiveGuesses

/-- All five have read that there was no failure before them, and the account is not locked: the
next attempt reaches the check of the password. -/
theorem five_guesses_unlocked :
    wrongSince ⟨1⟩ guessed.log = [0, 0, 0, 0, 0] ∧ guessed.store.lockOf ⟨1⟩ = none ∧
      ∃ row, guessed.store.localUser "admin" = some row ∧ row.id = ⟨1⟩ ∧
        row.failedLoginAttempts = 5 ∧ row.Verifies 101 := by
  refine ⟨by decide +kernel, by decide +kernel, ?_⟩
  cases hfound : guessed.store.localUser "admin" with
  | none =>
    have hsome : (guessed.store.localUser "admin").isSome = true := by decide +kernel
    rw [hfound] at hsome
    cases hsome
  | some row =>
    have hrow : (guessed.store.localUser "admin").map (fun row =>
        (row.id, row.failedLoginAttempts, row.isActive, row.lockedUntil)) =
          some (⟨1⟩, 5, true, none) := by decide +kernel
    rw [hfound, Option.map_some, Option.some.injEq, Prod.mk.injEq, Prod.mk.injEq,
      Prod.mk.injEq] at hrow
    obtain ⟨hid, hcount, hactive, hlock⟩ := hrow
    refine ⟨row, rfl, hid, hcount, hactive, ?_⟩
    intro lock hlocked
    rw [hlock] at hlocked
    cases hlocked

end FirewallManager
