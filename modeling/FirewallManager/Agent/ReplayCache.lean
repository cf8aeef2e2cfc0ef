import FirewallManager.Agent.PullLoop
import FirewallManager.Lib.Runs

/-!
# The replay cache

The agent writes the id of every action that it has executed to a file, one id on a line, and asks
the file before it runs an action. `ReplayFile` is that file as a text whose line ends are complete;
to the pull cycle it is a list of lines (`lines_recordTo`).

A history is any sequence of pull cycles toward any manager, with restarts between them.
`AgentHistory` keeps the calls of `handleAction`, each with the agent and the manager before it, and
`cycleStep_linked` says that the cycles in it are those of the pull loop. `executed_at_most_once`
says that once an action was executed, its calls only send a report of success.
-/

namespace FirewallManager

open List

/-- The replay cache file. It may be missing; otherwise every line has its line end. -/
structure ReplayFile where
  content : Option String
  ended : ∀ text, content = some text → Text.Ended text

namespace ReplayFile

/-- The lines of the file, none if it is missing. -/
def lines (file : ReplayFile) : List String :=
  match file.content with
  | none => []
  | some text => Text.lines text

/-- `already_executed_in`. -/
def alreadyExecutedIn (file : ReplayFile) (actionId : String) : Bool :=
  match file.content with
  | none => false
  | some text => (Text.lines text).any fun line => Text.trim line == actionId

/-- `record_to`: append a line, to a new file if there is none. -/
def recordTo (file : ReplayFile) (actionId : String) : ReplayFile where
  content := some (file.content.getD "" ++ (actionId ++ "\n"))
  ended := by
    intro text htext
    obtain rfl := Option.some.inj htext
    exact Or.inr ⟨(file.content.getD "" ++ actionId).toList, by simp⟩

theorem alreadyExecutedIn_eq (file : ReplayFile) (files : AgentFiles)
    (hfiles : files.executedActions = file.lines) (id : Uuid) :
    file.alreadyExecutedIn id.text = alreadyExecuted files id := by
  unfold alreadyExecutedIn alreadyExecuted
  rw [hfiles, lines]
  cases file.content <;> rfl

theorem lines_recordTo (file : ReplayFile) (id : Uuid) :
    (file.recordTo id.text).lines = file.lines ++ [id.text] := by
  have hid : ∀ c ∈ id.text.toList, Text.isWhitespace c = false :=
    fun _ hc => Uuid.isWhitespace_of_mem_text hc
  show Text.lines (file.content.getD "" ++ (id.text ++ "\n")) = _
  unfold lines
  cases hcontent : file.content with
  | none => exact Text.lines_append_line (Or.inl rfl) hid
  | some text => exact Text.lines_append_line (file.ended text hcontent) hid

theorem lines_foldl_recordTo (file : ReplayFile) (ids : List Uuid) :
    (ids.foldl (fun file id => file.recordTo id.text) file).lines =
      file.lines ++ ids.map Uuid.text := by
  induction ids generalizing file with
  | nil => exact (append_nil _).symm
  | cons id ids ih =>
    rw [foldl_cons, ih, lines_recordTo, append_assoc]
    rfl

end ReplayFile

/-- A delivery of an action: the call of `handleAction` that it makes, with the agent and the
manager before it. -/
structure HandledAction (σ μ : Type) where
  link : ManagerLink μ
  liveHash : String
  linked : Linked σ μ
  action : PendingActionDto

/-- An agent with its manager, and the deliveries so far. -/
structure AgentHistory (σ μ : Type) where
  linked : Linked σ μ
  deliveries : List (HandledAction σ μ)

section History

variable {σ μ : Type} (env : AgentEnv σ)

namespace HandledAction

/-- The agent and the manager after the delivery. -/
def after (delivery : HandledAction σ μ) : Linked σ μ :=
  handleAction env delivery.link delivery.liveHash delivery.linked delivery.action

/-- The report of a result of the action. -/
def report (delivery : HandledAction σ μ) (success : Bool) (error : Option String) :
    CheckInResultRequest :=
  ⟨env.hostId, some delivery.action.id, success, error, delivery.liveHash⟩

/-- The action was run, and the run was a success. -/
def executed (delivery : HandledAction σ μ) : Bool :=
  !alreadyExecuted delivery.linked.agent.files delivery.action.id &&
    (executePendingAction env delivery.action delivery.linked.agent.world).1.1

/-- The delivery runs nothing and leaves the agent as it is. All it does is to report a success. -/
def Acknowledged (delivery : HandledAction σ μ) : Prop :=
  delivery.after env = { delivery.linked with
    manager := delivery.link.reportResult (delivery.report env true none) delivery.linked.manager }

/-- A delivery of an action in the cache is acknowledged. -/
theorem acknowledged_of_cached {delivery : HandledAction σ μ}
    (h : alreadyExecuted delivery.linked.agent.files delivery.action.id = true) :
    delivery.Acknowledged env :=
  if_pos h

/-- Another delivery runs the action, reports what came of it, and writes down a success. -/
theorem after_of_not_cached {delivery : HandledAction σ μ}
    (h : alreadyExecuted delivery.linked.agent.files delivery.action.id = false) :
    delivery.after env =
      let result := executePendingAction env delivery.action delivery.linked.agent.world
      { agent := { delivery.linked.agent with
          world := result.2
          files := if delivery.executed env then
            recordExecuted delivery.linked.agent.files delivery.action.id
          else delivery.linked.agent.files }
        manager := delivery.link.reportResult (delivery.report env result.1.1 result.1.2)
          delivery.linked.manager } := by
  rw [after, handleAction, if_neg (by simp [h]), executed, h]
  rfl

end HandledAction

/-- The next delivery of a history. -/
def deliveryStep (link : ManagerLink μ) (liveHash : String) (history : AgentHistory σ μ)
    (action : PendingActionDto) : AgentHistory σ μ :=
  let delivery : HandledAction σ μ := ⟨link, liveHash, history.linked, action⟩
  ⟨delivery.after env, history.deliveries ++ [delivery]⟩

/-- A pull cycle that keeps its deliveries. -/
def cycleStep (link : ManagerLink μ) (input : CycleInput) (history : AgentHistory σ μ) :
    AgentHistory σ μ :=
  match probe env history.linked.agent.world with
  | (.error _, world) =>
    { history with
      linked := { history.linked with agent := { history.linked.agent with world := world } } }
  | (.ok liveHash, world) =>
    let agent := { history.linked.agent with world := world }
    let drift := localDrift agent.files liveHash
    match link.checkIn (checkInRequest env input agent drift) history.linked.manager with
    | (none, manager) =>
      { history with linked := ⟨agent.onCheckInFailed env input.now, manager⟩ }
    | (some response, manager) =>
      let (outcome, agent) := applyStep env drift response (agent.settled input.now response)
      response.pendingActions.foldl (deliveryStep env link liveHash)
        ⟨⟨agent, reportApply env link liveHash outcome manager⟩, history.deliveries⟩

/-- What happens to an agent: a pull cycle toward some manager, or a restart. A restart can come
with any change to the host, to the manager and to the agent, apart from the replay cache. -/
inductive AgentEvent (σ μ : Type) where
  | cycle (link : ManagerLink μ) (input : CycleInput)
  | restart (agent : Agent σ) (manager : μ)

/-- The history after an event. -/
def historyStep (history : AgentHistory σ μ) : AgentEvent σ μ → AgentHistory σ μ
  | .cycle link input => cycleStep env link input history
  | .restart agent manager =>
    { history with
      linked := ⟨{ agent with files := { agent.files with
        executedActions := history.linked.agent.files.executedActions } }, manager⟩ }

variable {env} {link : ManagerLink μ} {history : AgentHistory σ μ}

theorem deliverySteps_linked (liveHash : String) (actions : List PendingActionDto)
    (history : AgentHistory σ μ) :
    (actions.foldl (deliveryStep env link liveHash) history).linked =
      actions.foldl (handleAction env link liveHash) history.linked := by
  induction actions generalizing history with
  | nil => rfl
  | cons action actions ih => exact ih (deliveryStep env link liveHash history action)

theorem cycleStep_linked (link : ManagerLink μ) (input : CycleInput) (history : AgentHistory σ μ) :
    (cycleStep env link input history).linked =
      (runPullCycle env link input history.linked).2 := by
  rcases hprobe : probe env history.linked.agent.world with ⟨message | liveHash, world⟩
  · simp only [cycleStep, runPullCycle, hprobe]
  · rcases hresponse : link.checkIn (checkInRequest env input
        { history.linked.agent with world := world }
        (localDrift history.linked.agent.files liveHash)) history.linked.manager
      with ⟨_ | response, manager⟩
    · simp only [cycleStep, runPullCycle, hprobe, hresponse]
    · simp only [cycleStep, runPullCycle, hprobe, hresponse, afterCheckIn]
      exact deliverySteps_linked liveHash _ _

theorem executedActions_apply (agent : Agent σ) (endpoint : String × UInt16) (plan : ApplyPlan) :
    (agent.apply env endpoint plan).2.files.executedActions = agent.files.executedActions := by
  rcases Agent.apply_files env agent endpoint plan with ⟨hash, -, hfiles⟩ | ⟨message, -, hfiles⟩
  · rw [hfiles]
  · rw [hfiles]

theorem executedActions_onCheckInFailed (agent : Agent σ) (now : Nat) :
    (agent.onCheckInFailed env now).files.executedActions = agent.files.executedActions := by
  unfold Agent.onCheckInFailed
  split
  next =>
    dsimp only
    split
    next =>
      unfold Agent.revertToLastGood
      split
      next =>
        split
        next => exact executedActions_apply _ _ _
        next => rfl
      next => rfl
    next => rfl
  next => rfl

theorem executedActions_applyStep (drift : Bool) (response : CheckInResponse) (agent : Agent σ) :
    (applyStep env drift response agent).2.files.executedActions =
      agent.files.executedActions := by
  cases hplan : planApply agent.files drift response with
  | none => rw [applyStep_of_no_plan hplan]
  | some plan =>
    rcases (applyStep_of_plan hplan).2 with ⟨hash, -, hfiles⟩ | ⟨message, -, hfiles⟩
    · rw [hfiles]
      rfl
    · rw [hfiles]

theorem alreadyExecuted_of_mem {files : AgentFiles} {id : Uuid}
    (h : id.text ∈ files.executedActions) : alreadyExecuted files id = true :=
  any_eq_true.mpr ⟨id.text, h, beq_iff_eq.mpr id.trim_text⟩

/-- After an execution of its action the later of two deliveries is only acknowledged. -/
def NoRerun (env : AgentEnv σ) (earlier later : HandledAction σ μ) : Prop :=
  earlier.executed env = true → later.action.id = earlier.action.id →
    later.executed env = false ∧ later.Acknowledged env

theorem length_executed_le_one {deliveries : List (HandledAction σ μ)}
    (h : deliveries.Pairwise (NoRerun env)) (id : Uuid) :
    (deliveries.filter fun delivery =>
      delivery.executed env && delivery.action.id == id).length ≤ 1 := by
  induction deliveries with
  | nil => exact Nat.zero_le 1
  | cons delivery rest ih =>
    obtain ⟨hfirst, hrest⟩ := pairwise_cons.mp h
    by_cases hchosen : (delivery.executed env && delivery.action.id == id) = true
    · rw [Bool.and_eq_true, beq_iff_eq] at hchosen
      obtain ⟨hexecuted, rfl⟩ := hchosen
      have hnone : rest.filter (fun later =>
          later.executed env && later.action.id == delivery.action.id) = [] := by
        refine filter_eq_nil_iff.mpr ?_
        intro later hlater hagain
        rw [Bool.and_eq_true, beq_iff_eq] at hagain
        rw [(hfirst later hlater hexecuted hagain.2).1] at hagain
        cases hagain.1
      rw [filter_cons_of_pos (by simp [hexecuted]), hnone]
      exact le_rfl
    · rw [filter_cons, if_neg hchosen]
      exact ih hrest

/-- The ids of the executed actions, as lines. -/
def executedLines (env : AgentEnv σ) (deliveries : List (HandledAction σ μ)) : List String :=
  (deliveries.filter (HandledAction.executed env)).map fun delivery => delivery.action.id.text

theorem executedLines_concat (deliveries : List (HandledAction σ μ))
    (delivery : HandledAction σ μ) :
    executedLines env (deliveries ++ [delivery]) = executedLines env deliveries ++
      if delivery.executed env then [delivery.action.id.text] else [] := by
  rw [executedLines, filter_append, map_append, executedLines]
  cases hexecuted : delivery.executed env <;> simp [hexecuted]

/-- The replay cache has a line for every executed action, in order, after the lines of the
start. -/
structure Recorded (env : AgentEnv σ) (start : List String) (history : AgentHistory σ μ) :
    Prop where
  lines : history.linked.agent.files.executedActions =
    start ++ executedLines env history.deliveries
  noRerun : history.deliveries.Pairwise (NoRerun env)

variable {start : List String}

theorem Recorded.frame (h : Recorded env start history) {linked : Linked σ μ}
    (hlines : linked.agent.files.executedActions = history.linked.agent.files.executedActions) :
    Recorded env start ⟨linked, history.deliveries⟩ :=
  ⟨hlines.trans h.lines, h.noRerun⟩

theorem Recorded.deliver (h : Recorded env start history) {delivery : HandledAction σ μ}
    (hlinked : delivery.linked = history.linked) :
    Recorded env start ⟨delivery.after env, history.deliveries ++ [delivery]⟩ := by
  cases hcached : alreadyExecuted delivery.linked.agent.files delivery.action.id with
  | true =>
    have hack := delivery.acknowledged_of_cached env hcached
    have hskipped : delivery.executed env = false := by rw [HandledAction.executed, hcached]; rfl
    refine ⟨?_, ?_⟩
    · rw [executedLines_concat, hskipped, hack, hlinked]
      exact h.lines.trans (congrArg (start ++ ·) (append_nil _).symm)
    · refine pairwise_append.mpr ⟨h.noRerun, pairwise_singleton _ _, ?_⟩
      intro earlier _ later hlater _ _
      obtain rfl := mem_singleton.mp hlater
      exact ⟨hskipped, hack⟩
  | false =>
    -- An executed action is in the cache, so this one is none of the earlier ones.
    have hfresh : ∀ earlier ∈ history.deliveries, earlier.executed env = true →
        delivery.action.id ≠ earlier.action.id := by
      intro earlier hearlier hexecuted hid
      have hmem : delivery.action.id.text ∈ delivery.linked.agent.files.executedActions := by
        rw [hlinked, h.lines, hid]
        exact mem_append_right _
          (mem_map.mpr ⟨earlier, mem_filter.mpr ⟨hearlier, hexecuted⟩, rfl⟩)
      rw [alreadyExecuted_of_mem hmem] at hcached
      cases hcached
    refine ⟨?_, ?_⟩
    · rw [executedLines_concat, ← append_assoc, ← h.lines,
        delivery.after_of_not_cached env hcached, hlinked]
      cases delivery.executed env with
      | true => rfl
      | false => exact (append_nil _).symm
    · refine pairwise_append.mpr ⟨h.noRerun, pairwise_singleton _ _, ?_⟩
      intro earlier hearlier later hlater hexecuted hid
      obtain rfl := mem_singleton.mp hlater
      exact absurd hid (hfresh earlier hearlier hexecuted)

theorem Recorded.deliveryStep (h : Recorded env start history) (liveHash : String)
    (action : PendingActionDto) :
    Recorded env start (deliveryStep env link liveHash history action) :=
  h.deliver rfl

theorem Recorded.deliverySteps (h : Recorded env start history) (liveHash : String)
    (actions : List PendingActionDto) :
    Recorded env start
      (actions.foldl (FirewallManager.deliveryStep env link liveHash) history) := by
  induction actions generalizing history with
  | nil => exact h
  | cons action actions ih => exact ih (h.deliveryStep liveHash action)

/-- A cycle keeps the record. -/
theorem Recorded.cycleStep (h : Recorded env start history) (input : CycleInput) :
    Recorded env start (cycleStep env link input history) := by
  rcases hprobe : probe env history.linked.agent.world with ⟨message | liveHash, world⟩
  · simp only [FirewallManager.cycleStep, hprobe]
    exact h.frame rfl
  · rcases hresponse : link.checkIn (checkInRequest env input
        { history.linked.agent with world := world }
        (localDrift history.linked.agent.files liveHash)) history.linked.manager
      with ⟨_ | response, manager⟩
    · simp only [FirewallManager.cycleStep, hprobe, hresponse]
      exact h.frame (executedActions_onCheckInFailed _ _)
    · simp only [FirewallManager.cycleStep, hprobe, hresponse]
      refine Recorded.deliverySteps (h.frame ?_) liveHash response.pendingActions
      show (applyStep env _ response _).2.files.executedActions = _
      rw [executedActions_applyStep, (Agent.settled_frame _ _ _).1]

/-- A history keeps the record. -/
theorem Recorded.run (h : Recorded env start history) (events : List (AgentEvent σ μ)) :
    Recorded env start (Runs.run (historyStep env) history events) := by
  induction events generalizing history with
  | nil => exact h
  | cons event events ih =>
    refine ih ?_
    cases event with
    | cycle link input => exact h.cycleStep input
    | restart agent manager => exact h.frame rfl

/-- The text of the file after any history: to what the agent found there, the id of every action
that it executed was appended. The agent's lookups are lookups in this text. -/
theorem replayFile_run (env : AgentEnv σ) (agent : Agent σ) (manager : μ)
    (events : List (AgentEvent σ μ)) (file : ReplayFile) :
    let start : Agent σ :=
      { agent with files := { agent.files with executedActions := file.lines } }
    let history := Runs.run (historyStep env) ⟨⟨start, manager⟩, []⟩ events
    let written := ((history.deliveries.filter (HandledAction.executed env)).map
      fun delivery => delivery.action.id).foldl (fun file id => file.recordTo id.text) file
    history.linked.agent.files.executedActions = written.lines ∧
      ∀ id : Uuid, written.alreadyExecutedIn id.text =
        alreadyExecuted history.linked.agent.files id := by
  intro start history written
  have hrecorded : Recorded env file.lines history :=
    Recorded.run ⟨(append_nil _).symm, List.Pairwise.nil⟩ events
  have hlines : history.linked.agent.files.executedActions = written.lines := by
    rw [ReplayFile.lines_foldl_recordTo, map_map, hrecorded.lines]
    rfl
  exact ⟨hlines, fun id => written.alreadyExecutedIn_eq history.linked.agent.files hlines id⟩

/-- **At most once.** Over any sequence of pull cycles toward any managers, with restarts between
them, an action is executed at most once, and every delivery of it after that leaves the agent with
its host and its files as they are and reports a success. -/
theorem executed_at_most_once (env : AgentEnv σ) (linked : Linked σ μ)
    (events : List (AgentEvent σ μ)) :
    let deliveries := (Runs.run (historyStep env) ⟨linked, []⟩ events).deliveries
    (∀ id, (deliveries.filter fun delivery =>
        delivery.executed env && delivery.action.id == id).length ≤ 1) ∧
      deliveries.Pairwise fun earlier later =>
        earlier.executed env = true → later.action.id = earlier.action.id →
          later.executed env = false ∧ later.Acknowledged env := by
  intro deliveries
  have hstart : Recorded env linked.agent.files.executedActions
      (⟨linked, []⟩ : AgentHistory σ μ) :=
    ⟨(append_nil _).symm, List.Pairwise.nil⟩
  have hrecorded : Recorded env _ (Runs.run (historyStep env) _ events) := hstart.run events
  exact ⟨fun id => length_executed_le_one hrecorded.noRerun id, hrecorded.noRerun⟩

end History

end FirewallManager
