import FirewallManager.Core.Models
import FirewallManager.Lib.Shlex

/-!
# The backend abstraction of the agent

A backend compiles typed rules into command lines and runs them as external processes. The
operating system is a `Machine`: an arbitrary state with an answer to every process the agent
starts. A `World` pairs that state with the list of all processes run so far, so a statement
about what an apply did is a statement about the processes it added.

Both backends run their compiled commands through the same loop, `runCommands`, which never
stops early. If it counts no failure, every command was run and succeeded
(`allSucceeded_of_runCommands`). `runCommands_invariant` is the rule for everything else that is
proved about it.
-/

namespace FirewallManager

/-- What a finished process reports. A process that cannot be started reports failure with the
start error as its error text. -/
structure CmdOutput where
  success : Bool
  stdout : String
  stderr : String
  deriving DecidableEq, Repr

/-- The operating system under the agent: how it answers a process, a file removal and the
request for the apply lock. -/
structure Machine (σ : Type) where
  exec : String → List String → σ → CmdOutput × σ
  removeFile : String → σ → Bool × σ
  applyLock : σ → Except String Unit × σ

/-- One process the agent ran, and whether it succeeded. -/
structure Exec where
  cmd : String
  args : List String
  success : Bool
  deriving DecidableEq, Repr

/-- The operating system together with every process run on it so far. -/
structure World (σ : Type) where
  os : σ
  ran : List Exec

/-- The errors of a backend. -/
inductive BackendError where
  | commandFailed (message : String)
  | io (message : String)
  deriving DecidableEq, Repr

/-- The text of a backend error. -/
def BackendError.message : BackendError → String
  | .commandFailed text => "command failed: " ++ text
  | .io text => "io error: " ++ text

/-- The ordered command lines of one apply. -/
structure CompiledRules where
  commands : List String
  deriving DecidableEq, Repr

/-- What a backend needs beside the rules: the manager endpoint and the default policies of the
policy set. The port is a `u16`. -/
structure ApplyContext where
  managerIp : String
  managerPort : UInt16
  defaultInputPolicy : Option String
  defaultOutputPolicy : Option String
  deriving DecidableEq, Repr

/-- The counters and texts an apply reports. -/
structure ApplyResult where
  applied : Nat
  failed : Nat
  snapshotHash : String
  error : Option String
  deriving DecidableEq, Repr

/-- The normalised live rules and their hash. -/
structure NormalizedSnapshot where
  rules : List String
  hash : String
  deriving DecidableEq, Repr

/-- The state a backend reports about itself. -/
structure BackendStatus where
  active : Bool
  defaultPolicyIn : String
  defaultPolicyOut : String
  deriving DecidableEq, Repr

/-- A firewall backend over a machine with state `σ`. -/
structure FirewallBackend (σ : Type) where
  name : String
  compile : List FirewallRule → ApplyContext → Except BackendError CompiledRules
  apply : CompiledRules → World σ → Except BackendError ApplyResult × World σ
  snapshot : World σ → Except BackendError NormalizedSnapshot × World σ
  reset : World σ → Except BackendError Unit × World σ
  status : World σ → Except BackendError BackendStatus × World σ

section Commands

variable {σ : Type} (machine : Machine σ)

/-- Run one process and record it. -/
def runCmd (cmd : String) (args : List String) (world : World σ) : CmdOutput × World σ :=
  let (output, os) := machine.exec cmd args world.os
  (output, ⟨os, world.ran ++ [⟨cmd, args, output.success⟩]⟩)

@[simp] theorem runCmd_ran (cmd : String) (args : List String) (world : World σ) :
    (runCmd machine cmd args world).2.ran =
      world.ran ++ [⟨cmd, args, (runCmd machine cmd args world).1.success⟩] :=
  rfl

/-- Split one compiled command into words and run it. The answer is the error text of a
command that cannot be split or fails. -/
def runCommand (cmd : String) (world : World σ) : Option String × World σ :=
  match Shlex.split cmd with
  | some (program :: args) =>
    let (output, world') := runCmd machine program args world
    (if output.success then none else some (cmd ++ ": " ++ output.stderr), world')
  | _ => (some (cmd ++ ": malformed command"), world)

/-- The counters of the apply loop. -/
structure Tally where
  applied : Nat
  failed : Nat
  errors : List String
  deriving DecidableEq, Repr

/-- Count one more command. -/
def Tally.note (tally : Tally) : Option String → Tally
  | none => { tally with applied := tally.applied + 1 }
  | some error =>
    { tally with failed := tally.failed + 1, errors := tally.errors ++ [error] }

/-- The apply loop: every command is run, whatever became of the ones before it. -/
def runCommands : List String → Tally → World σ → Tally × World σ
  | [], tally, world => (tally, world)
  | cmd :: rest, tally, world =>
    let (error, world') := runCommand machine cmd world
    runCommands rest (tally.note error) world'

theorem runCommands_cons (cmd : String) (rest : List String) (tally : Tally) (world : World σ) :
    runCommands machine (cmd :: rest) tally world =
      runCommands machine rest (tally.note (runCommand machine cmd world).1)
        (runCommand machine cmd world).2 :=
  rfl

/-- The error text an apply reports for the collected errors. -/
def Tally.error (tally : Tally) : Option String :=
  if tally.errors = [] then none else some (String.intercalate "; " tally.errors)

/-- The command was split into the words of the process, and the process succeeded. -/
def Succeeded (cmd : String) (exec : Exec) : Prop :=
  Shlex.split cmd = some (exec.cmd :: exec.args) ∧ exec.success = true

/-- Every command was run, in order, and succeeded. -/
def AllSucceeded (commands : List String) (execs : List Exec) : Prop :=
  List.Forall₂ Succeeded commands execs

theorem runCommand_none {cmd : String} {world : World σ}
    (h : (runCommand machine cmd world).1 = none) :
    ∃ exec, Succeeded cmd exec ∧
      (runCommand machine cmd world).2.ran = world.ran ++ [exec] := by
  unfold runCommand at h ⊢
  split at h
  next program args hsplit =>
    have hsuccess : (runCmd machine program args world).1.success = true := by
      by_contra hfail
      simp [hfail] at h
    exact ⟨⟨program, args, true⟩, ⟨hsplit, rfl⟩, by simp [hsuccess]⟩
  next => simp at h

/-- Counting a command never lowers the number of failures, and keeps it only when the command
reported no error. -/
theorem Tally.failed_le_note (tally : Tally) (error : Option String) :
    tally.failed ≤ (tally.note error).failed ∧
      ((tally.note error).failed ≤ tally.failed → error = none) := by
  cases error <;> simp [Tally.note]

theorem failed_le_runCommands (commands : List String) (tally : Tally) (world : World σ) :
    tally.failed ≤ (runCommands machine commands tally world).1.failed := by
  induction commands generalizing tally world with
  | nil => exact Nat.le_refl _
  | cons cmd rest ih => exact Nat.le_trans (tally.failed_le_note _).1 (ih _ _)

variable {commands : List String}

theorem allSucceeded_of_runCommands {tally : Tally} {world : World σ}
    (h : (runCommands machine commands tally world).1.failed ≤ tally.failed) :
    ∃ execs, AllSucceeded commands execs ∧
      (runCommands machine commands tally world).2.ran = world.ran ++ execs := by
  induction commands generalizing tally world with
  | nil => exact ⟨[], List.Forall₂.nil, by simp [runCommands]⟩
  | cons cmd rest ih =>
    rw [runCommands_cons] at h ⊢
    have hnote := tally.failed_le_note (runCommand machine cmd world).1
    -- The first command's count is squeezed between the tally and the final count.
    have hnone := hnote.2 (Nat.le_trans (failed_le_runCommands machine rest _ _) h)
    obtain ⟨exec, hexec, hran⟩ := runCommand_none machine hnone
    obtain ⟨execs, hexecs, hrans⟩ := ih (Nat.le_trans h hnote.1)
    refine ⟨exec :: execs, List.Forall₂.cons hexec hexecs, ?_⟩
    rw [hrans, hran, List.append_assoc, List.singleton_append]

theorem runCommands_of_exec_success
    (hexec : ∀ cmd args os, (machine.exec cmd args os).1.success = true)
    (hsplit : ∀ cmd ∈ commands, ∃ program args, Shlex.split cmd = some (program :: args))
    (tally : Tally) (world : World σ) :
    (runCommands machine commands tally world).1 =
      { tally with applied := tally.applied + commands.length } := by
  induction commands generalizing tally world with
  | nil => rfl
  | cons cmd rest ih =>
    obtain ⟨program, args, hcmd⟩ := hsplit cmd (by simp)
    have hnone : (runCommand machine cmd world).1 = none := by
      simp [runCommand, hcmd, runCmd, hexec]
    rw [runCommands_cons, ih (fun c hc => hsplit c (by simp [hc])), hnone]
    simp only [Tally.note, List.length_cons, Tally.mk.injEq, and_true]
    omega

/-- What every process of the commands keeps, the loop keeps. -/
theorem runCommands_invariant {inv : World σ → Prop}
    (hstep : ∀ cmd ∈ commands, ∀ program args, Shlex.split cmd = some (program :: args) →
      ∀ world, inv world → inv (runCmd machine program args world).2) {world : World σ}
    (hworld : inv world) (tally : Tally) :
    inv (runCommands machine commands tally world).2 := by
  induction commands generalizing tally world with
  | nil => exact hworld
  | cons cmd rest ih =>
    rw [runCommands_cons]
    refine ih (fun c hc => hstep c (by simp [hc])) ?_ _
    unfold runCommand
    split
    next program args hsplit => exact hstep cmd (by simp) program args hsplit world hworld
    next => exact hworld

theorem runCommands_view {τ : Type} (view : σ → τ) (effect : τ → String → τ)
    (heffect : ∀ cmd ∈ commands, ∀ world,
      view (runCommand machine cmd world).2.os = effect (view world.os) cmd) (tally : Tally)
    (world : World σ) :
    view (runCommands machine commands tally world).2.os =
      commands.foldl effect (view world.os) := by
  induction commands generalizing tally world with
  | nil => rfl
  | cons cmd rest ih =>
    rw [runCommands_cons, ih fun c hc => heffect c (by simp [hc]), heffect cmd (by simp),
      List.foldl_cons]

theorem failed_runCommands (bad : String → Bool)
    (hbad : ∀ cmd ∈ commands, ∀ world, (runCommand machine cmd world).1.isSome = bad cmd)
    (tally : Tally) (world : World σ) :
    (runCommands machine commands tally world).1.failed =
      tally.failed + commands.countP bad := by
  induction commands generalizing tally world with
  | nil => rfl
  | cons cmd rest ih =>
    have hnote : (tally.note (runCommand machine cmd world).1).failed =
        tally.failed + if bad cmd then 1 else 0 := by
      rw [← hbad cmd (by simp) world]
      cases (runCommand machine cmd world).1 <;> rfl
    rw [runCommands_cons, ih fun c hc => hbad c (by simp [hc]), hnote, List.countP_cons]
    omega

end Commands

end FirewallManager
