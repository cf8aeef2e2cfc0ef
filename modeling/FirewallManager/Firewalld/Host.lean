import FirewallManager.Agent.Firewalld

/-!
# firewalld as a state machine

firewalld keeps two sets of rich rules: those of the permanent configuration, and those in force.
`--permanent --add-rich-rule` writes the first set, `--add-rich-rule` alone the second one, and
`--reload` replaces the second set by the first. What a rich rule says is left open: `rich` reads
its text, and firewalld refuses a text that it cannot read.

`firewalldApply_state` is the effect of an apply: the rules of the list join the permanent ones, and
all of them are in force afterwards.
-/

namespace FirewallManager

open List

/-- The rich rules of a zone: the permanent configuration, and what is in force. -/
structure FirewalldState (ρ : Type) where
  permanent : List ρ
  runtime : List ρ
  deriving DecidableEq, Repr

/-- The commands of firewalld. `query` stands for the commands that only print something. -/
inductive FirewalldCommand (ρ : Type) where
  | add (permanent : Bool) (rule : ρ)
  | loadDefaults
  | reload
  | query
  deriving DecidableEq, Repr

section Host

variable {ρ : Type} (rich : String → Option ρ)

/-- The rule of an `--add-rich-rule` option. -/
def richRuleOption (option : String) : Option ρ :=
  (Text.afterStart "--add-rich-rule=" option).bind rich

/-- Read the argument words of a `firewall-cmd` process. -/
def parseFirewalld : List String → Option (FirewalldCommand ρ)
  | ["--permanent", option] =>
    if option = "--load-zone-defaults=public" then some .loadDefaults
    else (richRuleOption rich option).map (.add true)
  | [option] =>
    if option = "--reload" then some .reload
    else if option ∈ ["--list-all", "--state", "--get-default-zone"] then some .query
    else (richRuleOption rich option).map (.add false)
  | _ => none

/-- The rule that a command line adds to the permanent configuration. -/
def richRuleOfLine (line : String) : Option ρ :=
  match Shlex.split line with
  | some ["firewall-cmd", "--permanent", option] => richRuleOption rich option
  | _ => none

/-- The rich rule of a rule, if firewalld accepts its command. -/
def FirewallRule.richRule (rule : FirewallRule) : Option ρ :=
  richRuleOfLine rich (compileFirewalldRule rule)

theorem parseFirewalld_addRule (text : String) :
    parseFirewalld rich ["--permanent", "--add-rich-rule=" ++ text] =
      (richRuleOption rich ("--add-rich-rule=" ++ text)).map (.add true) := by
  have hload : "--add-rich-rule=" ++ text ≠ "--load-zone-defaults=public" := by
    intro h
    have hnone : Text.afterStart "--add-rich-rule=" "--load-zone-defaults=public" = none := by
      decide
    have hsome := Text.afterStart_append "--add-rich-rule=" text
    rw [h, hnone] at hsome
    cases hsome
  rw [parseFirewalld, if_neg hload]

theorem richRule_eq {rule : FirewallRule} (h : ∀ cidr ∈ rule.srcCidr, '\'' ∉ cidr.toList) :
    rule.richRule rich = rich (richRuleText rule) := by
  have hline : richRuleOfLine rich (compileFirewalldRule rule) =
      richRuleOption rich ("--add-rich-rule=" ++ richRuleText rule) := by
    simp only [richRuleOfLine, split_compileFirewalldRule_quoted h]
  rw [FirewallRule.richRule, hline, richRuleOption, Text.afterStart_append, Option.bind_some]

variable [DecidableEq ρ]

/-- What a command does. A rule that is there already is not added again. -/
def FirewalldState.step (state : FirewalldState ρ) :
    FirewalldCommand ρ → Except String (FirewalldState ρ)
  | .add true rule => .ok { state with permanent := state.permanent.insert rule }
  | .add false rule => .ok { state with runtime := state.runtime.insert rule }
  | .loadDefaults =>
    if state.permanent = [] then .error "Error: NO_DEFAULTS"
    else .ok { state with permanent := [] }
  | .reload => .ok { state with runtime := state.permanent }
  | .query => .ok state

/-- A host with firewalld. What its queries print is arbitrary. -/
def firewalldMachine (render : List String → FirewalldState ρ → String) :
    Machine (FirewalldState ρ) where
  exec := fun cmd args state =>
    if cmd = "firewall-cmd" then
      match parseFirewalld rich args with
      | some command =>
        match state.step command with
        | .ok next => (⟨true, render args state, ""⟩, next)
        | .error e => (⟨false, "", e⟩, state)
      | none => (⟨false, "", "Error: INVALID_RULE"⟩, state)
    else (⟨false, "", "No such file or directory"⟩, state)
  removeFile := fun _ state => (true, state)
  applyLock := fun state => (.ok (), state)

variable (render : List String → FirewalldState ρ → String)

/-- The permanent configuration after a command line. -/
def FirewalldState.addLine (state : FirewalldState ρ) (line : String) : FirewalldState ρ :=
  match richRuleOfLine rich line with
  | some rule => { state with permanent := state.permanent.insert rule }
  | none => state

theorem runCommand_firewalld (rule : FirewallRule) (world : World (FirewalldState ρ)) :
    (runCommand (firewalldMachine rich render) (compileFirewalldRule rule) world).1.isSome =
        (rule.richRule rich).isNone ∧
      (runCommand (firewalldMachine rich render) (compileFirewalldRule rule) world).2.os =
        world.os.addLine rich (compileFirewalldRule rule) := by
  rw [FirewallRule.richRule, FirewalldState.addLine, richRuleOfLine, runCommand]
  cases hsplit : Shlex.split (compileFirewalldRule rule) with
  | none => exact ⟨rfl, rfl⟩
  | some words =>
    obtain ⟨text, more, rfl⟩ := split_compileFirewalldRule hsplit
    cases more with
    | cons word more => exact ⟨rfl, rfl⟩
    | nil =>
      have hparse := parseFirewalld_addRule rich text
      cases hrule : richRuleOption rich ("--add-rich-rule=" ++ text) with
      | none =>
        rw [hrule] at hparse
        simp [runCmd, firewalldMachine, hparse, hrule]
      | some found =>
        rw [hrule] at hparse
        simp [runCmd, firewalldMachine, hparse, hrule, FirewalldState.step]

theorem foldl_addLine (lines : List String) (state : FirewalldState ρ) :
    lines.foldl (FirewalldState.addLine rich) state =
      { state with
        permanent := (lines.filterMap (richRuleOfLine rich)).reverse ∪ state.permanent } := by
  induction lines generalizing state with
  | nil => rfl
  | cons line lines ih =>
    rw [foldl_cons, ih, FirewalldState.addLine]
    cases hrule : richRuleOfLine rich line with
    | none => rw [filterMap_cons_none hrule]
    | some rule =>
      rw [filterMap_cons_some hrule, reverse_cons]
      simp only [union_def, foldr_append, foldr_cons, foldr_nil]

theorem firewalldApply_state (sha256 : List UInt8 → List UInt8) (rules : List FirewallRule)
    (ctx : ApplyContext) (world : World (FirewalldState ρ)) :
    ∃ result after, firewalldApply sha256 (firewalldMachine rich render)
        (firewalldCompile rules ctx) world = (.ok result, after) ∧
      (result.failed = 0 ↔ ∀ rule ∈ rules, (rule.richRule rich).isSome = true) ∧
      after.os.runtime = after.os.permanent ∧
      ∀ rule, rule ∈ after.os.permanent ↔
        rule ∈ world.os.permanent ∨ rule ∈ rules.filterMap (FirewallRule.richRule rich) := by
  obtain ⟨hash, happly⟩ := firewalldApply_eq sha256 (firewalldMachine rich render)
    (firewalldCompile rules ctx) world
  have hmap : ∀ line ∈ (firewalldCompile rules ctx).commands,
      ∃ rule ∈ rules, compileFirewalldRule rule = line := fun line hline => mem_map.mp hline
  have hfailed : (runCommands (firewalldMachine rich render) (firewalldCompile rules ctx).commands
      ⟨0, 0, []⟩ world).1.failed =
        0 + (firewalldCompile rules ctx).commands.countP (fun line =>
          (richRuleOfLine rich line).isNone) := by
    refine failed_runCommands _ (fun line => (richRuleOfLine rich line).isNone) ?_ _ world
    intro line hline before
    obtain ⟨rule, -, rfl⟩ := hmap line hline
    exact (runCommand_firewalld rich render rule before).1
  have hstate : (runCommands (firewalldMachine rich render) (firewalldCompile rules ctx).commands
      ⟨0, 0, []⟩ world).2.os =
        (firewalldCompile rules ctx).commands.foldl (FirewalldState.addLine rich) world.os := by
    refine runCommands_view _ id (FirewalldState.addLine rich) ?_ _ world
    intro line hline before
    obtain ⟨rule, -, rfl⟩ := hmap line hline
    exact (runCommand_firewalld rich render rule before).2
  refine ⟨_, _, happly, ?_, rfl, ?_⟩
  · rw [hfailed, Nat.zero_add, countP_eq_zero]
    constructor
    · intro hall rule hrule
      have hnone := hall _ (mem_map_of_mem hrule)
      simpa [FirewallRule.richRule, Option.isSome_iff_ne_none] using hnone
    · intro hall line hline
      obtain ⟨rule, hrule, rfl⟩ := hmap line hline
      simpa [FirewallRule.richRule, Option.isSome_iff_ne_none] using hall rule hrule
  · intro rule
    show rule ∈ (runCommands (firewalldMachine rich render) (firewalldCompile rules ctx).commands
      ⟨0, 0, []⟩ world).2.os.permanent ↔ _
    have hrules : (firewalldCompile rules ctx).commands.filterMap (richRuleOfLine rich) =
        rules.filterMap (FirewallRule.richRule rich) := filterMap_map
    rw [hstate, foldl_addLine, hrules, mem_union_iff, mem_reverse, or_comm]

end Host

end FirewallManager
