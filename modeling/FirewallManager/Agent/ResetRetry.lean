import FirewallManager.Agent.Ufw

/-!
# Retried resets

A reset fails if a backup of an earlier one is in its way. The agent removes the backup that the
error names and resets again, up to eight times. `Machine.logged` is any host that also keeps a log
of what the agent does to it, and `Retries` says what the retries can add to the log.

The main result is `reset_retry_converges`: the bounds hold for every behaviour of the host, and at
most eight colliding backups end in a successful reset.
-/

namespace FirewallManager

open List

/-- Something that the agent did to the host, with the answer. -/
inductive RetryEvent where
  | ran (cmd : String) (args : List String) (output : CmdOutput)
  | removed (path : String) (success : Bool)
  deriving DecidableEq, Repr

/-- A run of the reset. -/
abbrev RetryEvent.reset (output : CmdOutput) : RetryEvent :=
  .ran "ufw" ["--force", "reset"] output

/-- The outputs of the resets. -/
def resetOutputs (log : List RetryEvent) : List CmdOutput :=
  log.filterMap fun
    | .ran cmd args output =>
      if cmd = "ufw" ∧ args = ["--force", "reset"] then some output else none
    | .removed _ _ => none

/-- The files that the agent has tried to remove. -/
def removals (log : List RetryEvent) : List String :=
  log.filterMap fun
    | .ran .. => none
    | .removed path _ => some path

/-- The line that UFW prints when a backup is in the way of a reset. -/
def collisionLine (path : String) : String :=
  "ERROR: '" ++ path ++ "' already exists. Aborting"

/-- The error text of a process says that the file is in the way. -/
def CmdOutput.NamesBackup (output : CmdOutput) (path : String) : Prop :=
  ∃ line ∈ Text.lines output.stderr, Text.trim line = collisionLine path

/-- If the event is a removal, the one before it is a reset that names the removed file. -/
def RetryEvent.Prompts (before event : RetryEvent) : Prop :=
  ∀ path success, event = .removed path success →
    ∃ output, before = .reset output ∧ output.NamesBackup path

/-- The bounds of a retried reset that ends with an output. -/
structure BoundedRetry (log : List RetryEvent) (output : CmdOutput) : Prop where
  starts : ∃ first rest, log = RetryEvent.reset first :: rest
  resets : (resetOutputs log).length ≤ 9
  removed : (removals log).length ≤ 8
  prompted : log.IsChain RetryEvent.Prompts
  reported : (resetOutputs log).getLast? = some output

/-- Every failing reset of the log names first a file of the set that was not removed before it, and
every removal succeeds. -/
def Collides (files : Finset String) : List RetryEvent → Prop
  | [] => True
  | .ran _ _ output :: log =>
    (output.success = false → ∃ path ∈ files, collidedUfwBackup output.stderr = some path) ∧
      Collides files log
  | .removed path success :: log => success = true ∧ Collides (files.erase path) log

instance decidableCollides : ∀ files log, Decidable (Collides files log)
  | _, [] => .isTrue trivial
  | files, .ran _ _ _ :: log =>
    have := decidableCollides files log
    inferInstanceAs (Decidable (_ ∧ _))
  | files, .removed path _ :: log =>
    have := decidableCollides (files.erase path) log
    inferInstanceAs (Decidable (_ ∧ _))

/-- What the retries after an output can do, with the rounds that are left, and what they report. -/
inductive Retries : Nat → CmdOutput → List RetryEvent → CmdOutput → Prop
  | stop {rounds : Nat} {output : CmdOutput}
      (h : rounds = 0 ∨ output.success = true ∨ collidedUfwBackup output.stderr = none) :
      Retries rounds output [] output
  | kept {rounds : Nat} {output : CmdOutput} {path : String}
      (hpath : collidedUfwBackup output.stderr = some path) :
      Retries (rounds + 1) output [.removed path false] output
  | again {rounds : Nat} {output next result : CmdOutput} {path : String} {log : List RetryEvent}
      (hfail : output.success = false)
      (hpath : collidedUfwBackup output.stderr = some path)
      (h : Retries rounds next log result) :
      Retries (rounds + 1) output (.removed path true :: .reset next :: log) result

theorem collisionLine_iff {line path : String} :
    (Text.afterStart "ERROR: '" line).bind (Text.beforeEnd "' already exists. Aborting") =
      some path ↔ line = collisionLine path := by
  constructor
  · intro h
    obtain ⟨rest, hrest, hend⟩ := Option.bind_eq_some_iff.mp h
    rw [Text.eq_append_of_afterStart hrest, Text.eq_append_of_beforeEnd hend, collisionLine,
      String.append_assoc]
  · rintro rfl
    rw [collisionLine, String.append_assoc, Text.afterStart_append, Option.bind_some,
      Text.beforeEnd_append]

theorem collidedUfwBackup_collisionLine {path : String} (hpath : '\n' ∉ path.toList) :
    collidedUfwBackup (collisionLine path ++ "\n") = some path := by
  obtain ⟨inner, hchars⟩ : ∃ inner, (collisionLine path).toList = 'E' :: (inner ++ ['g']) :=
    ⟨"RROR: '".toList ++ (path.toList ++ "' already exists. Abortin".toList), by
      simp [collisionLine]⟩
  have hnewline : '\n' ∉ (collisionLine path).toList := by
    simp [collisionLine, hpath]
  have hended : (collisionLine path).toList.getLast? ≠ some '\r' := by
    rw [hchars, ← cons_append, getLast?_concat]
    decide
  have hlines : Text.lines (collisionLine path ++ "\n") = [collisionLine path] := by
    have h := Text.lines_cons hnewline ""
    rwa [String.ofList_toList, String.append_empty, Text.dropCarriageReturn, if_neg hended,
      String.ofList_toList] at h
  have hfront : (collisionLine path).toList.dropWhile Text.isWhitespace =
      (collisionLine path).toList := by
    rw [hchars]
    exact dropWhile_cons_of_neg (by decide)
  have hback : (collisionLine path).toList.reverse.dropWhile Text.isWhitespace =
      (collisionLine path).toList.reverse := by
    rw [hchars, ← cons_append, reverse_append]
    exact dropWhile_cons_of_neg (by decide)
  have htrim : Text.trim (collisionLine path) = collisionLine path := by
    rw [Text.trim, hfront, hback, reverse_reverse, String.ofList_toList]
  rw [collidedUfwBackup, hlines, findSome?_singleton, htrim]
  exact collisionLine_iff.mpr rfl

theorem namesBackup_of_collided {output : CmdOutput} {path : String}
    (h : collidedUfwBackup output.stderr = some path) : output.NamesBackup path := by
  obtain ⟨line, hline, hpath⟩ := exists_of_findSome?_eq_some h
  exact ⟨line, hline, collisionLine_iff.mp hpath⟩

section Log

variable {rounds : Nat} {output result : CmdOutput} {log : List RetryEvent}

theorem Retries.bounded (h : Retries rounds output log result) :
    (resetOutputs log).length ≤ rounds ∧ (removals log).length ≤ rounds ∧
      (RetryEvent.reset output :: log).IsChain RetryEvent.Prompts ∧
        (resetOutputs (RetryEvent.reset output :: log)).getLast? = some result := by
  induction h with
  | stop h => simp [resetOutputs, removals]
  | kept hpath =>
    refine ⟨by simp [resetOutputs], by simp [removals], ?_, by simp [resetOutputs]⟩
    refine .cons_cons ?_ (.singleton _)
    rintro path success ⟨⟩
    exact ⟨_, rfl, namesBackup_of_collided hpath⟩
  | again hfail hpath h ih =>
    obtain ⟨hresets, hremovals, hchain, hlast⟩ := ih
    refine ⟨by simpa [resetOutputs] using hresets, by simpa [removals] using hremovals,
      .cons_cons ?_ (.cons_cons nofun hchain), by simpa [resetOutputs] using hlast⟩
    rintro path success ⟨⟩
    exact ⟨_, rfl, namesBackup_of_collided hpath⟩

theorem Retries.converges (h : Retries rounds output log result) {files : Finset String}
    (hcard : files.card ≤ rounds) (hcollides : Collides files (RetryEvent.reset output :: log)) :
    result.success = true ∧ ∀ path ∈ removals log, path ∈ files := by
  induction h generalizing files with
  | @stop rounds output h =>
    refine ⟨?_, by simp [removals]⟩
    by_contra hfail
    obtain ⟨path, hmem, hpath⟩ := hcollides.1 (by simpa using hfail)
    have hpos := Finset.card_pos.mpr ⟨path, hmem⟩
    rcases h with rfl | hsuccess | hnone
    · omega
    · exact hfail hsuccess
    · simp [hnone] at hpath
  | kept hpath => simp [Collides] at hcollides
  | @again rounds output next result path log hfail hpath h ih =>
    obtain ⟨hnamed, -, hlater⟩ := hcollides
    have hmem : path ∈ files := by
      obtain ⟨named, hmem, hname⟩ := hnamed hfail
      rwa [Option.some.inj (hpath.symm.trans hname)]
    have herase := Finset.card_erase_lt_of_mem hmem
    obtain ⟨hsuccess, hfiles⟩ := ih (by omega) hlater
    refine ⟨hsuccess, fun removed hremoved => ?_⟩
    rcases mem_cons.mp hremoved with rfl | hrest
    · exact hmem
    · exact Finset.mem_of_mem_erase (hfiles removed hrest)

end Log

section Machine

variable {σ : Type} (machine : Machine σ)

/-- The host that keeps a log. -/
def Machine.logged : Machine (σ × List RetryEvent) where
  exec cmd args state :=
    let (output, os) := machine.exec cmd args state.1
    (output, os, state.2 ++ [.ran cmd args output])
  removeFile path state :=
    let (success, os) := machine.removeFile path state.1
    (success, os, state.2 ++ [.removed path success])
  applyLock state :=
    let (answer, os) := machine.applyLock state.1
    (answer, os, state.2)

/-- What a reset of the agent does to the host. -/
def Machine.resetLog (world : World σ) : List RetryEvent :=
  (ufwForceReset machine.logged ⟨(world.os, []), world.ran⟩).2.os.2

theorem exists_removeFile_logged (path : String) (state : σ × List RetryEvent) :
    ∃ success os, machine.removeFile path state.1 = (success, os) ∧
      machine.logged.removeFile path state = (success, os, state.2 ++ [.removed path success]) :=
  ⟨_, _, rfl, rfl⟩

theorem ufwRetryReset_logged (rounds : Nat) (output : CmdOutput)
    (world : World (σ × List RetryEvent)) :
    (ufwRetryReset machine.logged rounds output world).1 =
      (ufwRetryReset machine rounds output ⟨world.os.1, world.ran⟩).1 := by
  induction rounds generalizing output world with
  | zero => rfl
  | succ rounds ih =>
    rw [ufwRetryReset, ufwRetryReset]
    split
    next => rfl
    next =>
      split
      next => rfl
      next backup _ =>
        obtain ⟨success, os, hos, hlogged⟩ := exists_removeFile_logged machine backup world.os
        rw [hlogged, hos]
        cases success with
        | false => rfl
        | true => exact ih _ _

theorem ufwRetryReset_retries (rounds : Nat) (output : CmdOutput)
    (world : World (σ × List RetryEvent)) :
    ∃ log, (ufwRetryReset machine.logged rounds output world).2.os.2 = world.os.2 ++ log ∧
      Retries rounds output log (ufwRetryReset machine.logged rounds output world).1 := by
  induction rounds generalizing output world with
  | zero => exact ⟨[], by simp [ufwRetryReset], .stop (.inl rfl)⟩
  | succ rounds ih =>
    rw [ufwRetryReset]
    split
    next hsuccess => exact ⟨[], by simp, .stop (.inr (.inl hsuccess))⟩
    next hfail =>
      split
      next hnone => exact ⟨[], by simp, .stop (.inr (.inr hnone))⟩
      next backup hbackup =>
        obtain ⟨success, os, -, hlogged⟩ := exists_removeFile_logged machine backup world.os
        rw [hlogged]
        cases success with
        | false => exact ⟨[.removed backup false], rfl, .kept hbackup⟩
        | true =>
          obtain ⟨log, hlog, hretries⟩ := ih _ (runCmd machine.logged "ufw" ["--force", "reset"]
            ⟨(os, world.os.2 ++ [.removed backup true]), world.ran⟩).2
          refine ⟨_, hlog.trans ?_, .again (by simpa using hfail) hbackup hretries⟩
          simp [runCmd, Machine.logged]

theorem resetLog_retries (world : World σ) :
    ∃ first rest, machine.resetLog world = RetryEvent.reset first :: rest ∧
      Retries 8 first rest (ufwForceReset machine world).1 := by
  obtain ⟨log, hlog, hretries⟩ := ufwRetryReset_retries machine 8 _
    (runCmd machine.logged "ufw" ["--force", "reset"] ⟨(world.os, []), world.ran⟩).2
  rw [ufwRetryReset_logged] at hretries
  exact ⟨_, log, hlog, hretries⟩

/-- A retried reset is bounded whatever the host does, and it succeeds if at most eight backups are
in its way. -/
theorem reset_retry_converges (world : World σ) :
    BoundedRetry (machine.resetLog world) (ufwForceReset machine world).1 ∧
      ∀ files : Finset String, files.card ≤ 8 → Collides files (machine.resetLog world) →
        (ufwForceReset machine world).1.success = true ∧
          ∀ path ∈ removals (machine.resetLog world), path ∈ files := by
  obtain ⟨first, rest, hlog, hretries⟩ := resetLog_retries machine world
  rw [hlog]
  obtain ⟨hresets, hremovals, hchain, hlast⟩ := hretries.bounded
  refine ⟨⟨⟨first, rest, rfl⟩, ?_, hremovals, hchain, hlast⟩, fun files hcard hcollides => ?_⟩
  · simpa [resetOutputs, Nat.lt_succ_iff] using hresets
  · exact hretries.converges hcard hcollides

end Machine

/-- A host whose resets fail while a backup is left. -/
def backupHost : Machine (List String) where
  exec _ _ backups :=
    match backups with
    | [] => (⟨true, "", ""⟩, [])
    | path :: _ => (⟨false, "", collisionLine path ++ "\n"⟩, backups)
  removeFile path backups := (true, backups.erase path)
  applyLock backups := (.ok (), backups)

/-- That host with two backups. -/
def twoBackups : World (List String) :=
  ⟨["/etc/ufw/user.rules.1", "/etc/ufw/after.rules.1"], []⟩

/-- The log stays a variable: unfolding it for given names is slow. -/
theorem collides_two (world : World (List String)) {path other : String}
    (hworld : world = ⟨[path, other], []⟩) (hne : path ≠ other) (hpath : '\n' ∉ path.toList)
    (hother : '\n' ∉ other.toList) :
    ∃ log, backupHost.resetLog world = log ∧ Collides world.os.toFinset log := by
  subst hworld
  refine ⟨_, rfl, ?_⟩
  simp [Machine.resetLog, ufwForceReset, ufwRetryReset, runCmd, Machine.logged, backupHost,
    Collides, collidedUfwBackup_collisionLine, hpath, hother, hne]

theorem two_backups_cleared :
    (ufwForceReset backupHost twoBackups).1.success = true ∧
      ∀ path ∈ removals (backupHost.resetLog twoBackups), path ∈ twoBackups.os := by
  have hcard : twoBackups.os.toFinset.card ≤ 8 :=
    (toFinset_card_le twoBackups.os).trans (by decide)
  have hconverges := (reset_retry_converges backupHost twoBackups).2 _ hcard
  obtain ⟨log, hlog, hcollides⟩ := collides_two twoBackups rfl (by simp) (by simp) (by simp)
  rw [hlog] at hconverges ⊢
  obtain ⟨hsuccess, hfiles⟩ := hconverges hcollides
  exact ⟨hsuccess, fun path hpath => mem_toFinset.mp (hfiles path hpath)⟩

end FirewallManager
