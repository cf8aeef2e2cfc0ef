import FirewallManager.Firewalld.Host
import FirewallManager.Ufw.ForwardRules

/-!
# Does an apply replace the rules before it?

The UFW backend resets the firewall before it replays a ruleset, the firewalld backend only adds.
A host lives through applies and through changes that somebody else makes. On UFW the last apply
alone decides which rules are installed (`ufwFirewall_rules`). On firewalld every rule that was ever
made permanent is in force after the next apply (`mem_permanent_run`), so that a rule that left the
policy stays in force. `applied_rules_iff` says when the rules in force are nevertheless those of
the last ruleset.

The hosts have no faults. A command that the firewall refuses adds nothing.
-/

namespace FirewallManager

open List

/-- What happens to the firewall of a host: the agent applies a ruleset, or somebody else changes
something. -/
inductive FirewallEvent (κ : Type) where
  | apply (rules : List FirewallRule) (ctx : ApplyContext)
  | outOfBand (change : κ)

/-- One event on a host. -/
def firewallStep {σ κ : Type} (backend : FirewallBackend σ) (perform : κ → σ → σ)
    (world : World σ) : FirewallEvent κ → World σ
  | .apply rules ctx =>
    match backend.compile rules ctx with
    | .ok compiled => (backend.apply compiled world).2
    | .error _ => world
  | .outOfBand change => { world with os := perform change world.os }

/-! ## UFW -/

section Ufw

variable (text : AddressText) (render : UfwState → String) (sha256 : List UInt8 → List UInt8)

/-- An event on a UFW host. Somebody else may change the firewall in any way. -/
def ufwHostStep (world : World UfwHost) (event : FirewallEvent (UfwState → UfwState)) :
    World UfwHost :=
  firewallStep (ufwBackend sha256 (ufwMachine text noFaults render))
    (fun change host => { host with state := change host.state }) world event

theorem commandOfLine_umbilical_rule (ctx : ApplyContext) :
    commandOfLine text (umbilicalCommand ctx) =
      (ruleOfLine text (umbilicalCommand ctx)).map .add := by
  have hplain : Shlex.PlainWord "allow".toList := by decide
  have haction : ufwActionOfWord "allow" = some .allow := rfl
  have hstart : "ufw allow out from any to ".toList =
      ["ufw", "allow"].flatMap (·.toList ++ [' ']) ++ "out from any to ".toList := by
    decide
  have hline : ∃ rest, (umbilicalCommand ctx).toList =
      ["ufw", "allow"].flatMap (·.toList ++ [' ']) ++ rest := by
    delta umbilicalCommand
    simp only [String.toList_append, hstart, append_assoc]
    exact ⟨_, rfl⟩
  obtain ⟨rest, hline⟩ := hline
  exact commandOfLine_add text hplain haction hline

theorem replayLines_default {ctx : ApplyContext} {line : String} (h : line ∈ defaultCommands ctx)
    (state : UfwState) : (replayLines text [line] state).rules = state.rules := by
  have hplain : Shlex.PlainWord "default".toList := by decide
  have hstart : "ufw default ".toList =
      ["ufw", "default"].flatMap (·.toList ++ [' ']) := by
    decide
  have hline : ∃ rest, line.toList = ["ufw", "default"].flatMap (·.toList ++ [' ']) ++ rest := by
    simp only [defaultCommands, mem_append, Option.mem_toList, Option.map_eq_some_iff] at h
    rcases h with ⟨policy, -, rfl⟩ | ⟨policy, -, rfl⟩
    · exact ⟨_, by rw [String.toList_append, String.toList_append, hstart, append_assoc]⟩
    · exact ⟨_, by rw [String.toList_append, String.toList_append, hstart, append_assoc]⟩
  obtain ⟨rest, hline⟩ := hline
  cases hcommand : commandOfLine text line with
  | none => simp [replayLines, hcommand]
  | some command =>
    obtain ⟨more, hparse⟩ := commandOfLine_start hplain hline hcommand
    obtain ⟨policy, flow, rfl⟩ := parseUfw_default text hparse
    simp only [replayLines, filterMap_cons, hcommand, filterMap_nil, foldl_cons,
      foldl_nil]
    cases flow <;> rfl

theorem replayLines_defaults {ctx : ApplyContext} {lines : List String}
    (h : ∀ line ∈ lines, line ∈ defaultCommands ctx) (state : UfwState) :
    (replayLines text lines state).rules = state.rules := by
  induction lines generalizing state with
  | nil => rfl
  | cons line lines ih =>
    have happend := replayLines_append text [line] lines state
    rw [singleton_append] at happend
    rw [happend, ih fun other hother => h other (by simp [hother]),
      replayLines_default text (h line (by simp))]

theorem ufwFirewall_rules (rules : List FirewallRule) (ctx : ApplyContext) (state : UfwState) :
    (ufwFirewall text rules ctx state).rules =
      (ruleOfLine text (umbilicalCommand ctx)).toList ++
        rules.filterMap (FirewallRule.installed text) := by
  have hempty : (ufwFirewall text [] ctx state).rules =
      (ruleOfLine text (umbilicalCommand ctx)).toList := by
    rw [ufwFirewall, ufwCompile_nil, replayLines_append, replayLines_defaults text fun _ h => h,
      replayLines, filterMap_cons, commandOfLine_umbilical_rule]
    cases ruleOfLine text (umbilicalCommand ctx) <;> rfl
  have happend := congrArg UfwState.rules (ufwFirewall_append text [] rules ctx state)
  rw [nil_append] at happend
  rw [happend, ← hempty]

theorem rules_ufwHostStep_apply (rules : List FirewallRule) (ctx : ApplyContext)
    (world : World UfwHost) :
    (ufwHostStep text render sha256 world (.apply rules ctx)).os.state.rules =
      (ruleOfLine text (umbilicalCommand ctx)).toList ++
        rules.filterMap (FirewallRule.installed text) := by
  have hstep : ufwHostStep text render sha256 world (.apply rules ctx) =
      (ufwApply sha256 (ufwMachine text noFaults render) (ufwCompile rules ctx) world).2 := rfl
  rw [hstep, ufwApply_firewall, ufwFirewall_rules]

end Ufw

/-! ## firewalld -/

/-- A rich rule that somebody adds, to the rules in force or to the permanent ones. -/
structure RichAddition (ρ : Type) where
  permanent : Bool
  rule : ρ

section Firewalld

variable {ρ : Type} (rich : String → Option ρ)

/-- The rules that an event makes permanent. -/
def FirewallEvent.leaves : FirewallEvent (RichAddition ρ) → List ρ
  | .apply rules _ => rules.filterMap (FirewallRule.richRule rich)
  | .outOfBand addition => if addition.permanent then [addition.rule] else []

variable [DecidableEq ρ]

/-- Add a rich rule out of band. -/
def RichAddition.perform (addition : RichAddition ρ) (state : FirewalldState ρ) :
    FirewalldState ρ :=
  match state.step (.add addition.permanent addition.rule) with
  | .ok next => next
  | .error _ => state

variable (render : List String → FirewalldState ρ → String) (sha256 : List UInt8 → List UInt8)

/-- An event on a firewalld host. -/
def firewalldHostStep (world : World (FirewalldState ρ)) (event : FirewallEvent (RichAddition ρ)) :
    World (FirewalldState ρ) :=
  firewallStep (firewalldBackend sha256 (firewalldMachine rich render)) RichAddition.perform world
    event

theorem firewalldHostStep_apply (rules : List FirewallRule) (ctx : ApplyContext)
    (world : World (FirewalldState ρ)) :
    (firewalldHostStep rich render sha256 world (.apply rules ctx)).os.runtime =
        (firewalldHostStep rich render sha256 world (.apply rules ctx)).os.permanent ∧
      ∀ rule, rule ∈ (firewalldHostStep rich render sha256 world
        (.apply rules ctx)).os.permanent ↔
          rule ∈ world.os.permanent ∨ rule ∈ rules.filterMap (FirewallRule.richRule rich) := by
  obtain ⟨result, after, happly, -, hruntime, hmem⟩ :=
    firewalldApply_state rich render sha256 rules ctx world
  have hafter : firewalldHostStep rich render sha256 world (.apply rules ctx) = after :=
    congrArg Prod.snd happly
  rw [hafter]
  exact ⟨hruntime, hmem⟩

/-- An event adds to the permanent rules what it leaves, and removes none. -/
theorem mem_permanent_step (world : World (FirewalldState ρ))
    (event : FirewallEvent (RichAddition ρ)) (rule : ρ) :
    rule ∈ (firewalldHostStep rich render sha256 world event).os.permanent ↔
      rule ∈ world.os.permanent ∨ rule ∈ event.leaves rich := by
  cases event with
  | apply rules ctx => exact (firewalldHostStep_apply rich render sha256 rules ctx world).2 rule
  | outOfBand addition =>
    obtain ⟨permanent, added⟩ := addition
    cases permanent with
    | false => exact (or_iff_left (by simp [FirewallEvent.leaves])).symm
    | true =>
      show rule ∈ world.os.permanent.insert added ↔ _
      rw [mem_insert_iff, or_comm]
      simp [FirewallEvent.leaves]

/-- The permanent rules after a run: those of the start and all that were made permanent since. -/
theorem mem_permanent_run (world : World (FirewalldState ρ))
    (events : List (FirewallEvent (RichAddition ρ))) (rule : ρ) :
    rule ∈ (Runs.run (firewalldHostStep rich render sha256) world events).os.permanent ↔
      rule ∈ world.os.permanent ∨ ∃ event ∈ events, rule ∈ event.leaves rich := by
  induction events generalizing world with
  | nil => simp
  | cons event events ih =>
    show rule ∈ (Runs.run _ (firewalldHostStep rich render sha256 world event)
      events).os.permanent ↔ _
    rw [ih, mem_permanent_step, or_assoc]
    simp

end Firewalld

/-- **Applies replace on UFW and accumulate on firewalld.** Let any events happen to a host and then
the apply of a ruleset. On UFW the rules installed are the umbilical and those of the last ruleset,
in its order. On a firewalld host that starts without any of the rules concerned, the rules in force
beyond those of the start are those of the last ruleset if and only if every rule that was made
permanent before is one of them. -/
theorem applied_rules_iff {ρ : Type} [DecidableEq ρ] (text : AddressText)
    (renderUfw : UfwState → String) (rich : String → Option ρ)
    (render : List String → FirewalldState ρ → String) (sha256 : List UInt8 → List UInt8)
    (last : List FirewallRule) (ctx : ApplyContext) :
    (∀ (start : World UfwHost) (events : List (FirewallEvent (UfwState → UfwState))),
      (Runs.run (ufwHostStep text renderUfw sha256) start
          (events ++ [.apply last ctx])).os.state.rules =
        (ruleOfLine text (umbilicalCommand ctx)).toList ++
          last.filterMap (FirewallRule.installed text)) ∧
    ∀ (start : World (FirewalldState ρ)) (events : List (FirewallEvent (RichAddition ρ))),
      (∀ event ∈ events ++ [.apply last ctx], ∀ rule ∈ event.leaves rich,
        rule ∉ start.os.permanent) →
      ((∀ rule, rule ∈ (Runs.run (firewalldHostStep rich render sha256) start
            (events ++ [.apply last ctx])).os.runtime ∧ rule ∉ start.os.permanent ↔
          rule ∈ last.filterMap (FirewallRule.richRule rich)) ↔
        ∀ event ∈ events, ∀ rule ∈ event.leaves rich,
          rule ∈ last.filterMap (FirewallRule.richRule rich)) := by
  constructor
  · intro start events
    rw [Runs.run_concat, rules_ufwHostStep_apply]
  · intro start events hnew
    have hruntime (rule : ρ) : rule ∈ (Runs.run (firewalldHostStep rich render sha256) start
        (events ++ [FirewallEvent.apply last ctx])).os.runtime ↔
          rule ∈ start.os.permanent ∨ ∃ event ∈ events ++ [FirewallEvent.apply last ctx],
            rule ∈ event.leaves rich := by
      rw [← mem_permanent_run rich render sha256, Runs.run_concat,
        (firewalldHostStep_apply rich render sha256 last ctx _).1]
    constructor
    · intro hexact event hevent rule hrule
      refine (hexact rule).mp ⟨(hruntime rule).mpr (Or.inr ⟨event, ?_, hrule⟩), ?_⟩
      · exact mem_append_left _ hevent
      · exact hnew event (mem_append_left _ hevent) rule hrule
    · intro hearlier rule
      constructor
      · rintro ⟨hmem, hstart⟩
        rcases (hruntime rule).mp hmem with hmem | ⟨event, hevent, hrule⟩
        · exact absurd hmem hstart
        · rcases mem_append.mp hevent with hevent | hevent
          · exact hearlier event hevent rule hrule
          · obtain rfl : event = .apply last ctx := by simpa using hevent
            exact hrule
      · intro hrule
        have hlast : FirewallEvent.apply last ctx ∈ events ++ [FirewallEvent.apply last ctx] :=
          mem_append_right _ (mem_singleton_self _)
        exact ⟨(hruntime rule).mpr (Or.inr ⟨_, hlast, hrule⟩), hnew _ hlast rule hrule⟩

/-- A rule that allows TCP to one port. -/
def portRule (port : Int) : FirewallRule :=
  ⟨⟨1⟩, "port", "", .allow, .in, .tcp, none, none, none, none, some port, some port, none, none, "",
    false, 0⟩

/-- The endpoint of the manager, without default policies. -/
def plainContext : ApplyContext :=
  ⟨"10.0.0.1", 8443, none, none⟩

/-- A firewalld host without rich rules. -/
def freshFirewalld : World (FirewalldState String) :=
  ⟨⟨[], []⟩, []⟩

/-- The host after two applies. Every text is a rich rule here, so that no command fails. -/
def afterApplies (first second : List FirewallRule) : World (FirewalldState String) :=
  Runs.run (firewalldHostStep some (fun _ _ => "") id) freshFirewalld
    ([.apply first plainContext] ++ [.apply second plainContext])

theorem richRule_port (port : Int) :
    (portRule port).richRule some = some (richRuleText (portRule port)) :=
  richRule_eq some (by simp [portRule])

/-- The policy changes from SSH to HTTPS. No command fails, and SSH stays open. -/
theorem removed_rule_stays_in_force :
    (∀ rule ∈ [portRule 22, portRule 443], (rule.richRule some).isSome = true) ∧
      richRuleText (portRule 22) ∈ (afterApplies [portRule 22] [portRule 443]).os.runtime ∧
      ¬ ∀ rule, rule ∈ (afterApplies [portRule 22] [portRule 443]).os.runtime ∧
          rule ∉ freshFirewalld.os.permanent ↔
        rule ∈ [portRule 443].filterMap (FirewallRule.richRule some) := by
  have hne : richRuleText (portRule 22) ≠ richRuleText (portRule 443) := by
    intro hsame
    have hport : toString (22 : Int) = toString (443 : Int) :=
      (String.append_right_inj _).mp ((String.append_left_inj _).mp ((String.append_left_inj _).mp
        ((String.append_left_inj _).mp ((String.append_right_inj _).mp
          ((String.append_left_inj _).mp hsame)))))
    exact absurd hport (by decide)
  have hmem : richRuleText (portRule 22) ∈
      (afterApplies [portRule 22] [portRule 443]).os.runtime := by
    unfold afterApplies
    rw [Runs.run_concat, (firewalldHostStep_apply some (fun _ _ => "") id _ _ _).1,
      mem_permanent_step, mem_permanent_run]
    exact Or.inl (Or.inr ⟨_, mem_singleton_self _,
      by simp [FirewallEvent.leaves, richRule_port]⟩)
  refine ⟨by simp [richRule_port], hmem, fun hexact => ?_⟩
  have hgone := (hexact (richRuleText (portRule 22))).mp ⟨hmem, by simp [freshFirewalld]⟩
  obtain ⟨typed, htyped, hrich⟩ := mem_filterMap.mp hgone
  obtain rfl := mem_singleton.mp htyped
  rw [richRule_port, Option.some_inj] at hrich
  exact hne hrich.symm

/-- If the policy only grows, the rules in force are those of the policy. -/
theorem grown_policy_in_force :
    ∀ rule, rule ∈ (afterApplies [portRule 22] [portRule 22, portRule 443]).os.runtime ∧
        rule ∉ freshFirewalld.os.permanent ↔
      rule ∈ [portRule 22, portRule 443].filterMap (FirewallRule.richRule some) := by
  have hiff := (applied_rules_iff dottedText (fun _ => "") some (fun _ _ => "") id
    [portRule 22, portRule 443] plainContext).2 freshFirewalld [.apply [portRule 22] plainContext]
    (fun _ _ _ _ => by simp [freshFirewalld])
  unfold afterApplies
  refine hiff.mpr fun event hevent rule hrule => ?_
  obtain rfl : event = .apply [portRule 22] plainContext := by simpa using hevent
  have hfirst : [portRule 22] ⊆ [portRule 22, portRule 443] := by simp
  obtain ⟨typed, htyped, hrich⟩ := mem_filterMap.mp hrule
  exact mem_filterMap.mpr ⟨typed, hfirst htyped, hrich⟩

end FirewallManager
