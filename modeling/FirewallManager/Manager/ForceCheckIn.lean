import FirewallManager.Lib.Calls
import FirewallManager.Lib.Notify
import FirewallManager.Lib.Runs

/-!
# Forced check-ins

An operator forces a check-in by one notification on the notifier of the host. Each subscription to
`/events` has a task on the server that waits for notifications until its hold window ends. The task
is not told when its client goes away: it finds out when it sends. The agent closes its subscription
at the first event and opens a new one after the cycle, while the old task goes on waiting, ahead of
the new one.

`signal` is a notification, with `safe_signal_iff` and `pending_signal` about what becomes of it. A
signal that no task without a client takes is answered (`answered_of_kept`), and
`forced_check_ins_kept_iff` says at which steps such a task takes one.
-/

namespace FirewallManager

open List

/-- How far the task of a subscription has come. Between `woken` and `sending` the deadline can
still come first. -/
inductive TaskPhase where
  | idle
  | waiting
  | woken
  | sending
  | ended
  deriving DecidableEq, Repr

/-- The task has a signal. -/
def TaskPhase.holds : TaskPhase → Bool
  | .woken => true
  | .sending => true
  | _ => false

/-- The task is in the queue of the notifier. -/
def TaskPhase.waits : TaskPhase → Bool
  | .waiting => true
  | _ => false

/-- The task of a subscription, and whether its client is still there. -/
structure EventsTask where
  connected : Bool
  phase : TaskPhase
  deriving DecidableEq, Repr

/-- The notifier of a host and the tasks of its subscriptions. `unserved` records that no check-in
event was emitted since the last forced check-in. -/
structure Subscriptions where
  notify : Notify Nat
  tasks : List EventsTask
  unserved : Bool

/-- What operators, the agent and the tasks do. -/
inductive EventsAction where
  | force
  | opens
  | drops
  | poll (task : Nat)
  | send (task : Nat)
  | expire (task : Nat)
  deriving DecidableEq, Repr

namespace Subscriptions

/-- A manager that has just started. -/
def initial : Subscriptions :=
  ⟨.fresh, [], false⟩

/-- The task goes on to a phase. -/
def setPhase (i : Nat) (phase : TaskPhase) (subs : Subscriptions) : Subscriptions :=
  { subs with tasks := subs.tasks.modify i fun task => { task with phase := phase } }

/-- `notify_one`. -/
def signal (subs : Subscriptions) : Subscriptions :=
  match subs.notify.next with
  | none => { subs with notify := subs.notify.notifyOne }
  | some i => { subs with notify := subs.notify.notifyOne }.setPhase i .woken

/-- What an action does. One that its task is not ready for does nothing. -/
def act (subs : Subscriptions) : EventsAction → Subscriptions
  | .force => { subs.signal with unserved := true }
  | .opens =>
    if subs.tasks.any EventsTask.connected then subs
    else { subs with tasks := subs.tasks ++ [⟨true, .idle⟩] }
  | .drops => { subs with tasks := subs.tasks.map fun task => { task with connected := false } }
  | .poll i =>
    match subs.tasks[i]? with
    | some ⟨_, .idle⟩ =>
      { subs with notify := subs.notify.wait i }.setPhase i
        (if subs.notify.permit then .sending else .waiting)
    | some ⟨_, .woken⟩ => subs.setPhase i .sending
    | _ => subs
  | .send i =>
    match subs.tasks[i]? with
    | some ⟨true, .sending⟩ => { subs.setPhase i .idle with unserved := false }
    | some ⟨false, .sending⟩ => subs.setPhase i .ended
    | _ => subs
  | .expire i =>
    match subs.tasks[i]? with
    | some ⟨_, .idle⟩ => subs.setPhase i .ended
    | some ⟨_, .waiting⟩ =>
      { subs with notify := subs.notify.leave i }.setPhase i .ended
    | some ⟨_, .woken⟩ => (subs.setPhase i .ended).signal
    | _ => subs

/-- No task whose client is gone has a signal. -/
def Safe (subs : Subscriptions) : Prop :=
  ∀ (i : Nat) (task : EventsTask), subs.tasks[i]? = some task → task.phase.holds = true →
    task.connected = true

/-- If every task waits or has ended and the agent has a subscription, the last forced check-in was
answered by an event. -/
def Answered (subs : Subscriptions) : Prop :=
  (∀ (i : Nat) (task : EventsTask), subs.tasks[i]? = some task →
      task.phase = .waiting ∨ task.phase = .ended) →
    (∃ i : Nat, subs.tasks[i]? = some ⟨true, .waiting⟩) → subs.unserved = false

/-- The client of the task is there. -/
def Connected (subs : Subscriptions) (i : Nat) : Prop :=
  ∃ phase, subs.tasks[i]? = some ⟨true, phase⟩

/-- The action gives no signal to a task without a client, and takes no client from a task with a
signal: the longest-waiting task has its client when a signal comes, a task that takes the permit
has its client, and the agent closes its subscription when no signal is on its way to it. -/
def Orderly (subs : Subscriptions) : EventsAction → Prop
  | .force => ∀ i, subs.notify.next = some i → subs.Connected i
  | .poll i => subs.notify.permit = true →
      ∀ connected, subs.tasks[i]? = some ⟨connected, .idle⟩ → connected = true
  | .expire i => ∀ connected, subs.tasks[i]? = some ⟨connected, .woken⟩ →
      ∀ j, subs.notify.next = some j → subs.Connected j
  | .drops => ∀ (i : Nat) (task : EventsTask), subs.tasks[i]? = some task →
      task.phase.holds = false
  | _ => True

section Phases

variable {subs : Subscriptions} {i j : Nat} {phase : TaskPhase} {task : EventsTask}

theorem getElem?_setPhase :
    (subs.setPhase i phase).tasks[j]? = some task ↔
      i ≠ j ∧ subs.tasks[j]? = some task ∨
        i = j ∧ ∃ old, subs.tasks[j]? = some old ∧ task = ⟨old.connected, phase⟩ := by
  rw [setPhase, getElem?_modify]
  by_cases hij : i = j
  · simp only [hij, if_true, Option.map_eq_map, Option.map_eq_some_iff, ne_eq, not_true_eq_false,
      false_and, false_or, true_and]
    exact exists_congr fun old => and_congr_right fun _ => eq_comm
  · simp [hij]

theorem connected_setPhase : (subs.setPhase i phase).Connected j ↔ subs.Connected j := by
  constructor
  · rintro ⟨other, hother⟩
    rcases getElem?_setPhase.mp hother with ⟨-, hold⟩ | ⟨-, ⟨connected, old⟩, hold, heq⟩
    · exact ⟨other, hold⟩
    · cases heq
      exact ⟨old, hold⟩
  · rintro ⟨old, hold⟩
    by_cases hij : i = j
    · exact ⟨phase, getElem?_setPhase.mpr (Or.inr ⟨hij, _, hold, rfl⟩)⟩
    · exact ⟨old, getElem?_setPhase.mpr (Or.inl ⟨hij, hold⟩)⟩

/-- The waiters are the tasks in the phase `waiting`, each once. -/
structure WellFormed (subs : Subscriptions) : Prop where
  waits : ∀ i, i ∈ subs.notify.waiters ↔
    ∃ task, subs.tasks[i]? = some task ∧ task.phase.waits = true
  nodup : subs.notify.waiters.Nodup

theorem WellFormed.setPhase (h : subs.WellFormed) (htask : subs.tasks[i]? = some task)
    {notify : Notify Nat} (hnodup : notify.waiters.Nodup)
    (hwaiters : ∀ j, j ∈ notify.waiters ↔
      i ≠ j ∧ j ∈ subs.notify.waiters ∨ i = j ∧ phase.waits = true) :
    ({ subs with notify := notify }.setPhase i phase).WellFormed := by
  refine ⟨?_, hnodup⟩
  intro j
  show j ∈ notify.waiters ↔ _
  rw [hwaiters j, h.waits j]
  constructor
  · rintro (⟨hij, other, hother, hphase⟩ | ⟨rfl, hphase⟩)
    · exact ⟨other, getElem?_setPhase.mpr (Or.inl ⟨hij, hother⟩), hphase⟩
    · exact ⟨_, getElem?_setPhase.mpr (Or.inr ⟨rfl, task, htask, rfl⟩), hphase⟩
  · rintro ⟨other, hother, hphase⟩
    rcases getElem?_setPhase.mp hother with ⟨hij, hold⟩ | ⟨hij, old, hold, rfl⟩
    · exact Or.inl ⟨hij, other, hold, hphase⟩
    · exact Or.inr ⟨hij, hphase⟩

theorem WellFormed.advance (h : subs.WellFormed) (htask : subs.tasks[i]? = some task)
    (hbefore : task.phase.waits = false) (hafter : phase.waits = false) :
    (subs.setPhase i phase).WellFormed := by
  refine WellFormed.setPhase h htask h.nodup ?_
  intro j
  constructor
  · intro hj
    refine Or.inl ⟨?_, hj⟩
    rintro rfl
    obtain ⟨other, hother, hphase⟩ := (h.waits i).mp hj
    rw [htask] at hother
    cases hother
    rw [hbefore] at hphase
    cases hphase
  · rintro (⟨-, hj⟩ | ⟨-, hphase⟩)
    · exact hj
    · rw [hafter] at hphase
      cases hphase

theorem WellFormed.signal (h : subs.WellFormed) : subs.signal.WellFormed := by
  unfold Subscriptions.signal
  cases hnext : subs.notify.next with
  | none =>
    have hwaiters : subs.notify.waiters = [] := head?_eq_none_iff.mp hnext
    have hsame : subs.notify.notifyOne.waiters = subs.notify.waiters := by
      show subs.notify.waiters.tail = _
      rw [hwaiters]
      rfl
    refine ⟨?_, ?_⟩
    · intro j
      show j ∈ subs.notify.notifyOne.waiters ↔ _
      rw [hsame]
      exact h.waits j
    · show subs.notify.notifyOne.waiters.Nodup
      rw [hsame]
      exact h.nodup
  | some i =>
    have hcons := Notify.next_eq_some_iff.mp hnext
    have hnodup := h.nodup
    rw [hcons, nodup_cons] at hnodup
    have hmem : i ∈ subs.notify.waiters := by
      rw [hcons]
      exact mem_cons_self
    obtain ⟨task, htask, hphase⟩ := (h.waits i).mp hmem
    refine WellFormed.setPhase h htask hnodup.2 ?_
    intro j
    rw [hcons, mem_cons]
    constructor
    · intro hj
      refine Or.inl ⟨?_, Or.inr hj⟩
      rintro rfl
      exact hnodup.1 hj
    · rintro (⟨hij, rfl | hj⟩ | ⟨-, hwoken⟩)
      · exact absurd rfl hij
      · exact hj
      · cases hwoken

/-- The invariant of the notifier holds at every step. -/
theorem WellFormed.act (h : subs.WellFormed) (action : EventsAction) :
    (subs.act action).WellFormed := by
  cases action with
  | force => exact ⟨h.signal.waits, h.signal.nodup⟩
  | opens =>
    unfold Subscriptions.act
    dsimp only
    split
    · exact h
    · refine ⟨?_, h.nodup⟩
      intro j
      refine (h.waits j).trans ?_
      constructor
      · rintro ⟨task, htask, hphase⟩
        exact ⟨task, Calls.getElem?_start_of_some htask _, hphase⟩
      · rintro ⟨task, htask, hphase⟩
        rcases Calls.getElem?_start htask with hold | ⟨-, rfl⟩
        · exact ⟨task, hold, hphase⟩
        · cases hphase
  | drops =>
    refine ⟨?_, h.nodup⟩
    intro j
    refine (h.waits j).trans ?_
    show _ ↔ ∃ task, (subs.tasks.map _)[j]? = some task ∧ _
    simp only [getElem?_map, Option.map_eq_some_iff]
    constructor
    · rintro ⟨task, htask, hphase⟩
      exact ⟨_, ⟨task, htask, rfl⟩, hphase⟩
    · rintro ⟨-, ⟨task, htask, rfl⟩, hphase⟩
      exact ⟨task, htask, hphase⟩
  | poll i =>
    unfold Subscriptions.act
    dsimp only
    split
    next connected htask =>
      -- Taking the permit leaves nobody waiting, and a task that has to wait is the last one.
      have hfree : i ∉ subs.notify.waiters := by
        intro hi
        obtain ⟨task, hother, hphase⟩ := (h.waits i).mp hi
        rw [htask] at hother
        cases hother
        cases hphase
      refine WellFormed.setPhase h htask (Notify.nodup_wait h.nodup hfree) ?_
      intro j
      rw [Notify.mem_wait]
      constructor
      · rintro (hj | ⟨rfl, hpermit⟩)
        · refine Or.inl ⟨?_, hj⟩
          rintro rfl
          exact hfree hj
        · rw [hpermit]
          exact Or.inr ⟨rfl, rfl⟩
      · rintro (⟨-, hj⟩ | ⟨rfl, hwaits⟩)
        · exact Or.inl hj
        · cases hpermit : subs.notify.permit with
          | false => exact Or.inr ⟨rfl, rfl⟩
          | true =>
            rw [hpermit] at hwaits
            cases hwaits
    next connected htask => exact h.advance htask rfl rfl
    next => exact h
  | send i =>
    unfold Subscriptions.act
    dsimp only
    split
    next htask =>
      have hidle : (subs.setPhase i .idle).WellFormed := h.advance htask rfl rfl
      exact ⟨hidle.waits, hidle.nodup⟩
    next htask => exact h.advance htask rfl rfl
    next => exact h
  | expire i =>
    unfold Subscriptions.act
    dsimp only
    split
    next connected htask => exact h.advance htask rfl rfl
    next connected htask =>
      refine WellFormed.setPhase h htask (h.nodup.filter _) ?_
      intro j
      rw [Notify.mem_leave]
      constructor
      · rintro ⟨hj, hne⟩
        exact Or.inl ⟨hne.symm, hj⟩
      · rintro (⟨hne, hj⟩ | ⟨-, hwaits⟩)
        · exact ⟨hj, hne.symm⟩
        · cases hwaits
    next connected htask => exact (h.advance htask rfl rfl).signal
    next => exact h

end Phases

section Safety

variable {subs : Subscriptions} {i : Nat} {phase : TaskPhase} {task : EventsTask}

/-- A task goes on safely if it has its client or has no signal then. -/
theorem safe_setPhase_iff (h : subs.Safe) (htask : subs.tasks[i]? = some task) :
    (subs.setPhase i phase).Safe ↔ (phase.holds = true → task.connected = true) := by
  constructor
  · intro hsafe
    exact hsafe i ⟨task.connected, phase⟩ (getElem?_setPhase.mpr (Or.inr ⟨rfl, task, htask, rfl⟩))
  · intro hholds j other hother hphase
    rcases getElem?_setPhase.mp hother with ⟨-, hold⟩ | ⟨rfl, old, hold, rfl⟩
    · exact h j other hold hphase
    · rw [htask] at hold
      cases hold
      exact hholds hphase

theorem safe_setPhase (h : subs.Safe) (htask : subs.tasks[i]? = some task)
    (hphase : phase.holds = false) : (subs.setPhase i phase).Safe := by
  refine (safe_setPhase_iff h htask).mpr ?_
  intro hholds
  rw [hphase] at hholds
  cases hholds

/-- A signal is safe if the longest-waiting task has its client. -/
theorem safe_signal_iff (hwf : subs.WellFormed) (h : subs.Safe) :
    subs.signal.Safe ↔ ∀ i, subs.notify.next = some i → subs.Connected i := by
  unfold signal
  cases hnext : subs.notify.next with
  | none =>
    refine iff_of_true h ?_
    intro i hi
    cases hi
  | some i =>
    have hmem : i ∈ subs.notify.waiters := by
      rw [Notify.next_eq_some_iff.mp hnext]
      exact mem_cons_self
    obtain ⟨task, htask, -⟩ := (hwf.waits i).mp hmem
    have hstored : ({ subs with notify := subs.notify.notifyOne } : Subscriptions).Safe := h
    refine (safe_setPhase_iff hstored htask).trans ?_
    constructor
    · intro hconnected j hj
      cases hj
      obtain ⟨connected, phase⟩ := task
      cases hconnected rfl
      exact ⟨phase, htask⟩
    · intro hconnected _
      obtain ⟨phase, hphase⟩ := hconnected i rfl
      rw [htask] at hphase
      cases hphase
      rfl

/-- The orderly actions are those that keep signals from tasks without a client. -/
theorem safe_act_iff (hwf : subs.WellFormed) (h : subs.Safe) (action : EventsAction) :
    (subs.act action).Safe ↔ subs.Orderly action := by
  cases action with
  | force => exact safe_signal_iff hwf h
  | opens =>
    refine iff_of_true ?_ trivial
    unfold act
    dsimp only
    split
    · exact h
    · intro j other hother hholds
      rcases Calls.getElem?_start hother with hold | ⟨-, rfl⟩
      · exact h j other hold hholds
      · rfl
  | drops =>
    have hdropped (j : Nat) : (subs.act .drops).tasks[j]? =
        (subs.tasks[j]?).map fun task => { task with connected := false } :=
      getElem?_map
    constructor
    · intro hsafe j other hother
      have hmapped := hdropped j
      rw [hother] at hmapped
      cases hholds : other.phase.holds with
      | false => rfl
      | true => cases hsafe j _ hmapped hholds
    · intro hnone j other hother hholds
      rw [hdropped j, Option.map_eq_some_iff] at hother
      obtain ⟨old, hold, rfl⟩ := hother
      rw [hnone j old hold] at hholds
      cases hholds
  | poll i =>
    unfold act Orderly
    dsimp only
    split
    next connected htask =>
      have hwaits : ({ subs with notify := subs.notify.wait i } : Subscriptions).Safe := h
      refine (safe_setPhase_iff hwaits htask).trans ?_
      rw [htask]
      cases subs.notify.permit with
      | true =>
        constructor
        · intro hconnected _ other hother
          cases hother
          exact hconnected rfl
        · intro hconnected _
          exact hconnected rfl connected rfl
      | false =>
        refine iff_of_true ?_ ?_
        · intro hholds
          cases hholds
        · intro hpermit
          cases hpermit
    next connected htask =>
      refine iff_of_true ((safe_setPhase_iff h htask).mpr ?_) ?_
      · intro _
        exact h i _ htask rfl
      · intro _ other hother
        rw [htask] at hother
        cases hother
    next hother _ =>
      refine iff_of_true h ?_
      intro _ connected htask
      exact absurd htask (hother connected)
  | send i =>
    refine iff_of_true ?_ trivial
    unfold act
    dsimp only
    split
    next htask => exact safe_setPhase h htask rfl
    next htask => exact safe_setPhase h htask rfl
    next => exact h
  | expire i =>
    unfold act Orderly
    dsimp only
    split
    next connected htask =>
      refine iff_of_true (safe_setPhase h htask rfl) ?_
      intro other hother
      rw [htask] at hother
      cases hother
    next connected htask =>
      have hleft : ({ subs with notify := subs.notify.leave i } : Subscriptions).Safe := h
      refine iff_of_true (safe_setPhase hleft htask rfl) ?_
      intro other hother
      rw [htask] at hother
      cases hother
    next connected htask =>
      have hended : (subs.setPhase i .ended).Safe := safe_setPhase h htask rfl
      refine (safe_signal_iff (hwf.advance htask rfl rfl) hended).trans ?_
      constructor
      · intro hnext other _ j hj
        exact connected_setPhase.mp (hnext j hj)
      · intro hnext j hj
        exact connected_setPhase.mpr (hnext connected htask j hj)
    next hother =>
      refine iff_of_true h ?_
      intro connected htask
      exact absurd htask (hother connected)

end Safety

section Keeping

variable {subs subs' : Subscriptions} {i : Nat} {phase : TaskPhase} {task : EventsTask}

/-- A signal is stored, or a task has it. -/
def Pending (subs : Subscriptions) : Prop :=
  subs.notify.permit = true ∨
    ∃ (i : Nat) (task : EventsTask), subs.tasks[i]? = some task ∧ task.phase.holds = true

/-- A forced check-in that no event has answered is still on its way. -/
def Kept (subs : Subscriptions) : Prop :=
  subs.unserved = true → subs.Pending

theorem pending_setPhase (h : subs.Pending) (htask : subs.tasks[i]? = some task)
    (hphase : task.phase.holds = true → phase.holds = true) :
    (subs.setPhase i phase).Pending := by
  rcases h with hpermit | ⟨j, other, hother, hholds⟩
  · exact Or.inl hpermit
  · right
    by_cases hij : i = j
    · subst hij
      rw [htask] at hother
      cases hother
      exact ⟨i, _, getElem?_setPhase.mpr (Or.inr ⟨rfl, task, htask, rfl⟩), hphase hholds⟩
    · exact ⟨j, other, getElem?_setPhase.mpr (Or.inl ⟨hij, hother⟩), hholds⟩

theorem pending_signal (hwf : subs.WellFormed) : subs.signal.Pending := by
  unfold signal
  cases hnext : subs.notify.next with
  | none => exact Or.inl (Notify.permit_notifyOne hnext)
  | some i =>
    have hmem : i ∈ subs.notify.waiters := by
      rw [Notify.next_eq_some_iff.mp hnext]
      exact mem_cons_self
    obtain ⟨task, htask, -⟩ := (hwf.waits i).mp hmem
    exact Or.inr ⟨i, _, getElem?_setPhase.mpr (Or.inr ⟨rfl, task, htask, rfl⟩), rfl⟩

/-- While no task without a client has a signal, none is lost on the way. -/
theorem kept_act (hwf : subs.WellFormed) (hsafe : subs.Safe) (h : subs.Kept)
    (action : EventsAction) : (subs.act action).Kept := by
  cases action with
  | force =>
    intro _
    exact pending_signal hwf
  | opens =>
    unfold act
    dsimp only
    split
    · exact h
    · intro hunserved
      rcases h hunserved with hpermit | ⟨j, other, hother, hholds⟩
      · exact Or.inl hpermit
      · exact Or.inr ⟨j, other, Calls.getElem?_start_of_some hother _, hholds⟩
  | drops =>
    intro hunserved
    rcases h hunserved with hpermit | ⟨j, other, hother, hholds⟩
    · exact Or.inl hpermit
    · refine Or.inr ⟨j, { other with connected := false }, ?_, hholds⟩
      show (subs.tasks.map _)[j]? = _
      rw [getElem?_map, hother]
      rfl
  | poll i =>
    unfold act
    dsimp only
    split
    next connected htask =>
      intro hunserved
      cases hpermit : subs.notify.permit with
      | true =>
        exact Or.inr ⟨i, ⟨connected, .sending⟩,
          getElem?_setPhase.mpr (Or.inr ⟨rfl, _, htask, rfl⟩), rfl⟩
      | false =>
        -- The permit is not there, so a task has the signal, and it is not this one.
        rcases h hunserved with hstored | ⟨j, other, hother, hholds⟩
        · rw [hpermit] at hstored
          cases hstored
        · refine Or.inr ⟨j, other, getElem?_setPhase.mpr (Or.inl ⟨?_, hother⟩), hholds⟩
          rintro rfl
          rw [htask] at hother
          cases hother
          cases hholds
    next connected htask =>
      intro hunserved
      exact pending_setPhase (h hunserved) htask fun _ => rfl
    next => exact h
  | send i =>
    unfold act
    dsimp only
    split
    next htask =>
      intro hunserved
      cases hunserved
    next htask => cases hsafe i _ htask rfl
    next => exact h
  | expire i =>
    unfold act
    dsimp only
    split
    next connected htask =>
      intro hunserved
      exact pending_setPhase (h hunserved) htask fun hholds => by cases hholds
    next connected htask =>
      intro hunserved
      have hpending : ({ subs with notify := subs.notify.leave i } : Subscriptions).Pending :=
        h hunserved
      exact pending_setPhase hpending htask fun hholds => by cases hholds
    next connected htask =>
      intro _
      exact pending_signal (hwf.advance htask rfl rfl)
    next => exact h

/-- A signal that is on its way does not stay there: when every task waits or has ended and the
agent has a subscription, the check-in was answered. -/
theorem answered_of_kept (hwf : subs.WellFormed) (h : subs.Kept) : subs.Answered := by
  intro hsettled ⟨i, hlive⟩
  cases hunserved : subs.unserved with
  | false => rfl
  | true =>
    rcases h hunserved with hpermit | ⟨j, other, hother, hholds⟩
    · have hmem := (hwf.waits i).mpr ⟨_, hlive, rfl⟩
      rw [Notify.permit_eq_false hmem] at hpermit
      cases hpermit
    · rcases hsettled j other hother with hphase | hphase
      · rw [hphase] at hholds
        cases hholds
      · rw [hphase] at hholds
        cases hholds

end Keeping

end Subscriptions

/-- **When forced check-ins are kept.** From the start of the manager, in any interleaving of forced
check-ins, subscriptions and tasks, no signal is with a task whose client is gone and every settled
subscription has answered the last forced check-in, if and only if every action is orderly. -/
theorem forced_check_ins_kept_iff (actions : List EventsAction) :
    Runs.Throughout Subscriptions.act (fun subs => subs.Safe ∧ subs.Answered)
        Subscriptions.initial actions ↔
      Runs.Meets Subscriptions.act Subscriptions.Orderly Subscriptions.initial actions := by
  have hstart : Subscriptions.initial.WellFormed ∧ Subscriptions.initial.Safe ∧
      Subscriptions.initial.Kept := by
    refine ⟨⟨?_, nodup_nil⟩, ?_, ?_⟩
    · intro i
      refine iff_of_false not_mem_nil ?_
      rintro ⟨task, htask, -⟩
      cases htask
    · intro i task htask
      cases htask
    · intro hunserved
      cases hunserved
  have hmeets : Runs.Throughout Subscriptions.act
      (fun subs => subs.WellFormed ∧ subs.Safe ∧ subs.Kept) Subscriptions.initial actions ↔
        Runs.Meets Subscriptions.act Subscriptions.Orderly Subscriptions.initial actions := by
    have hall : ∀ action ∈ actions, (fun _ : EventsAction => True) action := fun _ _ => trivial
    refine Runs.throughout_iff_meets ?_ hstart hall
    rintro subs action ⟨hwf, hsafe, hkept⟩ -
    rw [← Subscriptions.safe_act_iff hwf hsafe action]
    exact ⟨fun h => h.2.1, fun h => ⟨hwf.act action, h, Subscriptions.kept_act hwf hsafe hkept
      action⟩⟩
  rw [← hmeets]
  constructor
  · refine Runs.throughout_of_step ?_ hstart
    rintro subs action ⟨hwf, hsafe, hkept⟩ ⟨hnext, -⟩
    exact ⟨hwf.act action, hnext, Subscriptions.kept_act hwf hsafe hkept action⟩
  · intro h n
    obtain ⟨hwf, hsafe, hkept⟩ := h n
    exact ⟨hsafe, Subscriptions.answered_of_kept hwf hkept⟩

/-- The first forced check-in is answered. The agent closes its subscription and opens another, and
the task of the first one still waits. -/
def resubscribed : List EventsAction :=
  [.opens, .poll 0, .force, .poll 0, .send 0, .poll 0, .drops, .opens, .poll 1]

/-- The second forced check-in wakes the task whose client is gone. The task ends, the new
subscription goes on waiting, and no event answers. -/
theorem second_check_in_lost :
    ¬ (Runs.run Subscriptions.act .initial (resubscribed ++ [.force])).Safe ∧
      ¬ (Runs.run Subscriptions.act .initial
        (resubscribed ++ [.force, .poll 0, .send 0])).Answered := by
  constructor
  · intro hsafe
    exact absurd (hsafe 0 ⟨false, .woken⟩ (by decide) rfl) (by decide)
  · intro hanswered
    have htasks : (Runs.run Subscriptions.act .initial
        (resubscribed ++ [.force, .poll 0, .send 0])).tasks =
          [⟨false, .ended⟩, ⟨true, .waiting⟩] := by decide
    refine absurd (hanswered ?_ ⟨1, by decide⟩) (by decide)
    intro i task htask
    have hmem := mem_of_getElem? htask
    rw [htasks, mem_pair] at hmem
    rcases hmem with rfl | rfl
    · exact Or.inr rfl
    · exact Or.inl rfl

end FirewallManager
