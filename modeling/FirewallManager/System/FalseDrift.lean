import FirewallManager.Agent.SafeMode
import FirewallManager.System.SteadyState

/-!
# Mismatches without a difference

The agent reports a hash of the rules that it applied last, and the manager compares it with the
hash of the assigned rules. An agent that has not applied anything reports the empty text. The
manager expects the text `empty` from a host without a set, and the hash of no rules from a host
whose set is empty.

An agent never applies an empty ruleset (`lastApplied_ne_nil`), so the two sides have different
texts for "no rules" in every state. `false_drift_iff` says that this is the only way to a mismatch
without a difference.
-/

namespace FirewallManager

open List

/-! ## What an agent has applied -/

theorem planApply_rules_ne_nil {files : AgentFiles} {drift : Bool} {response : CheckInResponse}
    {plan : ApplyPlan} (h : planApply files drift response = some plan) : plan.rules ≠ [] := by
  unfold planApply at h
  split at h
  next hchanged =>
    obtain rfl := Option.some.inj h
    exact fun hnil => hchanged.1 (map_eq_nil_iff.mp hnil)
  next =>
    split at h
    next =>
      split at h
      next rule rules _ =>
        obtain rfl := Option.some.inj h
        exact cons_ne_nil rule rules
      next => cases h
    next => cases h

section Applied

variable {σ μ : Type} {env : AgentEnv σ}

theorem applied_ne_nil {link : ManagerLink μ} {input : CycleInput} {linked : Linked σ μ}
    {rules : List FirewallRule} (h : .applied rules ∈ cycleEvents env link input linked) :
    rules ≠ [] := by
  unfold cycleEvents at h
  split at h
  next => cases h
  next liveHash world _ =>
    dsimp only at h
    split at h
    next =>
      obtain ⟨saved, -, hevent⟩ := Option.mem_map.mp (Option.mem_toList.mp h)
      cases hevent
    next response _ _ =>
      rcases mem_cons.mp h with hevent | happlied
      · cases hevent
      · obtain ⟨rules', hrules, hevent⟩ := Option.mem_map.mp (Option.mem_toList.mp happlied)
        cases hevent
        unfold appliedRules at hrules
        split at hrules
        next =>
          obtain ⟨plan, hplan, rfl⟩ := Option.mem_map.mp hrules
          exact planApply_rules_ne_nil hplan
        next => cases hrules

theorem applied_run_ne_nil (start : Linked σ μ) (events : List (HostEvent σ μ)) :
    ∀ rules, .applied rules ∈ (Runs.run (safeModeStep env) ⟨start, []⟩ events).log →
      rules ≠ [] := by
  induction events using List.reverseRecOn with
  | nil =>
    intro rules h
    cases h
  | append_singleton events event ih =>
    rw [Runs.run_concat]
    cases event with
    | between agent manager => exact ih
    | cycle link input =>
      intro rules h
      rcases mem_append.mp h with hold | hnew
      · exact ih rules hold
      · exact applied_ne_nil hnew

theorem mem_of_lastApplied {log : List (SafeModeEvent σ)} {rules : List FirewallRule}
    (h : lastApplied none log = some rules) : .applied rules ∈ log := by
  induction log using List.reverseRecOn with
  | nil => cases h
  | append_singleton log event ih =>
    unfold lastApplied at h
    rw [foldl_append] at h
    cases event with
    | contact world => exact mem_append_left _ (ih h)
    | reverted other => exact mem_append_left _ (ih h)
    | applied other =>
      cases h
      exact mem_append_right _ mem_cons_self

end Applied

/-! ## The comparison -/

/-- The rules that an agent has applied last, none if it never applied any. -/
def appliedLast {σ μ : Type} (history : SafeModeHistory σ μ) : List FirewallRule :=
  (lastApplied none history.log).getD []

/-- A check-in of the agent finds a mismatch only if the rules that it applied last are not the
assigned ones. -/
def NoFalseDrift {σ : Type} (env : AgentEnv σ) (menv : ManagerEnv) (now : Nat) (host : Uuid)
    (input : CycleInput) (drift : Bool) (history : SafeModeHistory σ Database) : Prop :=
  ∀ response, (checkIn menv now host (checkInRequest env input history.linked.agent drift)
      history.linked.manager).1 = .ok response →
    response.rulesChanged = true →
      appliedLast history ≠ history.linked.manager.targetRules menv host

section Comparison

variable {menv : ManagerEnv} {db : Database} {host : Uuid}

theorem targetHash_ne_empty (hdigest : ∀ bytes, menv.sha256 bytes ≠ []) :
    db.targetHash menv host ≠ "" := by
  unfold Database.targetHash
  cases db.assignedSet menv host with
  | none =>
    show "empty" ≠ ""
    decide
  | some set =>
    intro h
    have hnil : Text.hexEncode (menv.sha256 (hashInput
        ((db.fetchRulesForPolicySet set).map RuleRow.hashParts))) = Text.hexEncode [] := h
    exact hdigest _ (Text.hexEncode_injective hnil)

/-- Equal rulesets have equal hashes on the two sides if there are rules. -/
theorem reported_eq_target {lastGood : Option (List FirewallRule)} (hne : lastGood ≠ some [])
    (hsome : lastGood.isSome = true ∨ db.targetRules menv host ≠ [])
    (hequal : lastGood.getD [] = db.targetRules menv host) :
    reportedRulesHash menv.sha256 lastGood = db.targetHash menv host := by
  cases lastGood with
  | none =>
    rcases hsome with hnone | htarget
    · cases hnone
    · exact absurd hequal.symm htarget
  | some rules =>
    have hrules : rules = db.targetRules menv host := hequal
    have htarget : db.targetRules menv host ≠ [] :=
      fun hnil => hne (congrArg some (hrules.trans hnil))
    rw [targetHash_eq htarget, hrules]

end Comparison

/-- **When there is no false drift.** Let an agent start without a saved ruleset, and let any cycles
run toward any manager with anything between them. A check-in then finds a mismatch only if the
rules that the agent applied last are not the assigned ones, if and only if the agent has applied
rules or rules are assigned. -/
theorem false_drift_iff {σ : Type} (env : AgentEnv σ) (menv : ManagerEnv)
    (hsha : menv.sha256 = env.sha256) (hdigest : ∀ bytes, menv.sha256 bytes ≠ [])
    (start : Linked σ Database) (hfresh : start.agent.files.lastGood = none)
    (events : List (HostEvent σ Database)) (host : Uuid)
    (hknown : (Runs.run (safeModeStep env) ⟨start, []⟩ events).linked.manager.hosts.has host = true)
    (now : Nat) (input : CycleInput) (drift : Bool) :
    NoFalseDrift env menv now host input drift (Runs.run (safeModeStep env) ⟨start, []⟩ events) ↔
      (lastApplied none (Runs.run (safeModeStep env) ⟨start, []⟩ events).log).isSome = true ∨
        (Runs.run (safeModeStep env) ⟨start, []⟩ events).linked.manager.targetRules menv host ≠
          [] := by
  have hsaved := lastGood_run env start events
  rw [hfresh] at hsaved
  have hne : lastApplied none (Runs.run (safeModeStep env) ⟨start, []⟩ events).log ≠ some [] :=
    fun h => applied_run_ne_nil start events [] (mem_of_lastApplied h) rfl
  unfold NoFalseDrift appliedLast
  -- From here on only the end of the run counts.
  generalize Runs.run (safeModeStep env) ⟨start, []⟩ events = history at *
  have hreported (req : CheckInRequest)
      (hreq : req = checkInRequest env input history.linked.agent drift) :
      (checkInAnswer menv now host req history.linked.manager).rulesChanged =
        rulesChanged (reportedRulesHash menv.sha256 (lastApplied none history.log))
          (history.linked.manager.targetHash menv host) := by
    rw [hreq, hsha, ← hsaved]
    rfl
  constructor
  · intro h
    by_contra hnone
    rw [not_or, Bool.not_eq_true, Option.isSome_eq_false_iff, Option.isNone_iff_eq_none,
      not_not] at hnone
    obtain ⟨hlast, htarget⟩ := hnone
    refine h _ (by rw [checkIn_of_has hknown]) ?_ ?_
    · rw [hreported _ rfl, hlast]
      exact bne_iff_ne.mpr (targetHash_ne_empty hdigest).symm
    · rw [hlast, htarget]
      rfl
  · intro h response hresponse hchanged hequal
    rw [checkIn_of_has hknown] at hresponse
    obtain rfl := Except.ok.inj hresponse
    rw [hreported _ rfl, reported_eq_target hne h hequal] at hchanged
    exact absurd rfl (bne_iff_ne.mp hchanged)

/-- A new host with an assigned rule gets it, and checks in again. -/
def twoCycles : List (HostEvent Unit Database) :=
  [.cycle (managerLink (.scan markedDigest) goodNetwork 100 quietEnv.hostId) quietInput,
    .cycle (managerLink (.scan markedDigest) goodNetwork 1000 quietEnv.hostId) quietInput]

/-- There is no false drift after that. -/
theorem assigned_host_no_false_drift :
    (lastApplied none (Runs.run (safeModeStep quietEnv) ⟨newHost, []⟩ twoCycles).log).isSome =
        true ∧
      NoFalseDrift quietEnv (.scan markedDigest) 1900 quietEnv.hostId quietInput false
        (Runs.run (safeModeStep quietEnv) ⟨newHost, []⟩ twoCycles) := by
  have hsome : (lastApplied none
      (Runs.run (safeModeStep quietEnv) ⟨newHost, []⟩ twoCycles).log).isSome = true := by
    decide +kernel
  exact ⟨hsome, (false_drift_iff quietEnv (.scan markedDigest) rfl
    (fun _ => cons_ne_nil _ _) newHost rfl twoCycles quietEnv.hostId (by decide +kernel) 1900
    quietInput false).mpr (Or.inl hsome)⟩

/-- A new host without a policy set. -/
def unassignedHost : SafeModeHistory Unit Database :=
  ⟨⟨quietAgent ⟨none, none, none, []⟩,
    { Database.empty with hosts := .singleton ⟨⟨1⟩, none, .healthy, none⟩ }⟩, []⟩

/-- It has no rules and is assigned none, and still there is a mismatch. -/
theorem unassigned_host_drifts :
    ¬ NoFalseDrift quietEnv (.scan markedDigest) 100 ⟨1⟩ quietInput false unassignedHost := by
  intro h
  refine h _ (by rw [checkIn_of_has (by decide)]) ?_ ?_
  · decide +kernel
  · decide +kernel

end FirewallManager
