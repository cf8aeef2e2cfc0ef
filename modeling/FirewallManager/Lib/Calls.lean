import Mathlib.Data.List.Basic

/-!
# Lists of calls

An interleaving keeps its calls in a list: a new call goes to the end, and a step of a call replaces
it in its place. The lemmas say where a call of the new list comes from, and what stays of the calls
that a step is not about.
-/

namespace Calls

open List

variable {Call : Type*} {calls : List Call} {call other : Call} {i j : Nat}

/-- A call after a start was there before, or is the one that was started. -/
theorem getElem?_start (h : (calls ++ [call])[i]? = some other) :
    calls[i]? = some other ∨ i = calls.length ∧ other = call := by
  rw [getElem?_append] at h
  split at h
  next => exact Or.inl h
  next hlength =>
    have hsome := List.getElem?_eq_some_iff.mp h
    obtain ⟨hlt, hother⟩ := hsome
    rw [length_singleton] at hlt
    have hi : i = calls.length := by omega
    subst hi
    simp only [Nat.sub_self, getElem_cons_zero] at hother
    exact Or.inr ⟨rfl, hother.symm⟩

theorem getElem?_start_of_some (h : calls[i]? = some other) (call : Call) :
    (calls ++ [call])[i]? = some other := by
  obtain ⟨hlt, -⟩ := List.getElem?_eq_some_iff.mp h
  rw [getElem?_append_left hlt]
  exact h

/-- A call after a step of another is the one before it. -/
theorem getElem?_put (h : (calls.set i call)[j]? = some other) :
    (i ≠ j ∧ calls[j]? = some other) ∨ i = j ∧ other = call := by
  by_cases hij : i = j
  · subst hij
    obtain ⟨hlt, hother⟩ := List.getElem?_eq_some_iff.mp h
    rw [getElem_set_self] at hother
    exact Or.inr ⟨rfl, hother.symm⟩
  · rw [getElem?_set_ne hij] at h
    exact Or.inl ⟨hij, h⟩

/-- The call that took a step is in its place. -/
theorem getElem?_put_self (h : calls[i]? = some other) (call : Call) :
    (calls.set i call)[i]? = some call := by
  obtain ⟨hlt, -⟩ := List.getElem?_eq_some_iff.mp h
  rw [getElem?_set_self hlt]

/-- What holds of all calls after a step, and of the one before its step, held of all before. -/
theorem forall_mem_of_put {P : Call → Prop} (h : calls[i]? = some other) (hother : P other)
    (hput : ∀ next ∈ calls.set i call, P next) : ∀ next ∈ calls, P next := by
  intro next hnext
  obtain ⟨j, hj⟩ := mem_iff_getElem?.mp hnext
  by_cases hij : i = j
  · subst hij
    rw [← Option.some.inj (h.symm.trans hj)]
    exact hother
  · refine hput next (mem_iff_getElem?.mpr ⟨j, ?_⟩)
    rw [getElem?_set_ne hij]
    exact hj

end Calls
