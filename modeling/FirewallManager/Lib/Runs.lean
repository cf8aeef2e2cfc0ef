import Mathlib.Data.List.Basic

/-!
# Runs of a step function

A run feeds a list of operations to a step function. `Meets` says that every operation of a
run satisfies a condition in the state it is issued in, and `Happens` that some operation
does. `run_invariant` is the induction that the safety results over whole runs share: an
invariant that every condition-respecting step keeps holds in every state such a run reaches.
-/

namespace Runs

variable {State Op : Type*}

/-- The state after all operations. -/
def run (step : State → Op → State) (start : State) (ops : List Op) : State :=
  ops.foldl step start

/-- Every operation satisfies `guard` in the state it is issued in. -/
def Meets (step : State → Op → State) (guard : State → Op → Prop) : State → List Op → Prop
  | _, [] => True
  | state, op :: ops => guard state op ∧ Meets step guard (step state op) ops

/-- Some operation satisfies `cond` in the state it is issued in. -/
def Happens (step : State → Op → State) (cond : State → Op → Prop) : State → List Op → Prop
  | _, [] => False
  | state, op :: ops => cond state op ∨ Happens step cond (step state op) ops

/-- `P` holds in every state the run passes through, the first and the last included. -/
def Throughout (step : State → Op → State) (P : State → Prop) (start : State)
    (ops : List Op) : Prop :=
  ∀ n, P (run step start (ops.take n))

variable {step : State → Op → State} {guard : State → Op → Prop} {inv : State → Prop}

@[simp]
theorem run_nil (start : State) : run step start [] = start := rfl

/-- A run goes on from where its first part ended. -/
theorem run_append (start : State) (ops more : List Op) :
    run step start (ops ++ more) = run step (run step start ops) more :=
  List.foldl_append ..

/-- One more operation is a step from where the run ended. -/
theorem run_concat (start : State) (ops : List Op) (op : Op) :
    run step start (ops ++ [op]) = step (run step start ops) op :=
  run_append start ops [op]

variable {start : State} {ops : List Op}

/-- The second part of a run meets its conditions from where the first part ended. -/
theorem meets_append {more : List Op} :
    Meets step guard start (ops ++ more) ↔
      Meets step guard start ops ∧ Meets step guard (run step start ops) more := by
  induction ops generalizing start with
  | nil => simp [Meets]
  | cons op ops ih =>
    show guard start op ∧ Meets step guard (step start op) (ops ++ more) ↔ _
    rw [ih, ← and_assoc]
    rfl

theorem meets_concat {op : Op} :
    Meets step guard start (ops ++ [op]) ↔
      Meets step guard start ops ∧ guard (run step start ops) op := by
  rw [meets_append]
  simp [Meets]

/-- A condition that every operation satisfies in every state is met by every run. -/
theorem meets_of_forall (hguard : ∀ state op, guard state op) (start : State) (ops : List Op) :
    Meets step guard start ops := by
  induction ops generalizing start with
  | nil => trivial
  | cons op ops ih => exact ⟨hguard start op, ih (step start op)⟩

/-- An invariant that every guarded step keeps holds throughout every guarded run. -/
theorem run_invariant (hstep : ∀ state op, inv state → guard state op → inv (step state op))
    (hstart : inv start) (hmeets : Meets step guard start ops) :
    Throughout step inv start ops := by
  intro n
  induction ops generalizing start n with
  | nil => simpa using hstart
  | cons op ops ih =>
    cases n with
    | zero => exact hstart
    | succ n =>
      exact ih (hstep start op hstart hmeets.1) hmeets.2 n

/-- In particular it holds where the run ends. -/
theorem run_invariant_end (hstep : ∀ state op, inv state → guard state op → inv (step state op))
    (hstart : inv start) (hmeets : Meets step guard start ops) :
    inv (run step start ops) := by
  have hend := run_invariant hstep hstart hmeets ops.length
  rw [List.take_length] at hend
  exact hend

theorem meets_of_invariant {condition : State → Op → Prop}
    (hstep : ∀ state op, inv state → guard state op →
      condition state op ∧ inv (step state op)) (hstart : inv start)
    (hmeets : Meets step guard start ops) :
    Meets step condition start ops := by
  induction ops generalizing start with
  | nil => trivial
  | cons op ops ih =>
    obtain ⟨hcondition, hnext⟩ := hstep start op hstart hmeets.1
    exact ⟨hcondition, ih hnext hmeets.2⟩

theorem meets_iff_of_invariant {condition : State → Op → Prop}
    (hagree : ∀ state op, inv state → (guard state op ↔ condition state op))
    (hstep : ∀ state op, inv state → inv (step state op)) (hstart : inv start) :
    Meets step guard start ops ↔ Meets step condition start ops := by
  constructor
  · exact meets_of_invariant
      (fun state op hinv hguard => ⟨(hagree state op hinv).mp hguard, hstep state op hinv⟩) hstart
  · exact meets_of_invariant
      (fun state op hinv hcond => ⟨(hagree state op hinv).mpr hcond, hstep state op hinv⟩) hstart

@[simp]
theorem throughout_nil {P : State → Prop} :
    Throughout step P start [] ↔ P start := by
  simp [Throughout]

/-- A run is split into its first state and the run from its second one. -/
theorem throughout_cons {P : State → Prop} {op : Op} :
    Throughout step P start (op :: ops) ↔ P start ∧ Throughout step P (step start op) ops := by
  constructor
  · intro h
    exact ⟨h 0, fun n => h (n + 1)⟩
  · rintro ⟨hstart, hrest⟩ n
    cases n with
    | zero => exact hstart
    | succ n => exact hrest n

theorem throughout_of_step {P : State → Prop}
    (hstep : ∀ state op, inv state → P (step state op) → inv (step state op)) (hstart : inv start)
    (h : Throughout step P start ops) :
    Throughout step inv start ops := by
  induction ops generalizing start with
  | nil => exact throughout_nil.mpr hstart
  | cons op ops ih =>
    obtain ⟨-, hrest⟩ := throughout_cons.mp h
    exact throughout_cons.mpr ⟨hstart, ih (hstep start op hstart (hrest 0)) hrest⟩

theorem throughout_iff_meets {allowed : Op → Prop}
    (hstep : ∀ state op, inv state → allowed op → (inv (step state op) ↔ guard state op))
    (hstart : inv start) (hallowed : ∀ op ∈ ops, allowed op) :
    Throughout step inv start ops ↔ Meets step guard start ops := by
  induction ops generalizing start with
  | nil => simp [Throughout, Meets, hstart]
  | cons op ops ih =>
    have hfirst := hstep start op hstart (hallowed op (by simp))
    rw [throughout_cons, Meets]
    constructor
    · rintro ⟨-, hrest⟩
      have hnext : inv (step start op) := hrest 0
      exact ⟨hfirst.mp hnext, (ih hnext fun o ho => hallowed o (by simp [ho])).mp hrest⟩
    · rintro ⟨hguard, hrest⟩
      have hnext := hfirst.mpr hguard
      exact ⟨hstart, (ih hnext fun o ho => hallowed o (by simp [ho])).mpr hrest⟩

/-- A loop that may fail, with an invariant about the part of the list that is done: if every round
succeeds and carries it on, the loop succeeds. -/
theorem foldlM_invariant {α β : Type*} {f : β → α → Option β} {inv : List α → β → Prop}
    {full : List α}
    (hstep : ∀ done a rest b, full = done ++ a :: rest → inv done b →
      ∃ next, f b a = some next ∧ inv (done ++ [a]) next)
    {start : β} (hstart : inv [] start) :
    ∃ final, full.foldlM f start = some final ∧ inv full final := by
  have hloop (rest : List α) : ∀ done b, full = done ++ rest → inv done b →
      ∃ final, rest.foldlM f b = some final ∧ inv full final := by
    induction rest with
    | nil =>
      intro done b hfull hinv
      rw [List.append_nil] at hfull
      exact ⟨b, rfl, hfull ▸ hinv⟩
    | cons a rest ih =>
      intro done b hfull hinv
      obtain ⟨next, hnext, hinv'⟩ := hstep done a rest b hfull hinv
      rw [List.foldlM_cons, hnext]
      exact ih (done ++ [a]) next (by rw [hfull, List.append_assoc]; rfl) hinv'
  exact hloop full [] start rfl hstart

end Runs
