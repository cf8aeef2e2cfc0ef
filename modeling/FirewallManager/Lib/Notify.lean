import Mathlib.Data.List.Nodup

/-!
# A notifier with one permit

The notifier of an asynchronous runtime: a notification wakes the one that has waited longest, and
when nobody waits it is kept as a permit for the next one who comes. At most one permit is kept, so
notifications that nobody waits for become one. A permit is there only while nobody waits, which the
structure carries as a field.
-/

/-- The permit, and who waits, the longest-waiting first. -/
structure Notify (Waiter : Type*) where
  permit : Bool
  waiters : List Waiter
  idle : permit = true → waiters = []

namespace Notify

variable {Waiter : Type*} (notify : Notify Waiter)

/-- A notifier without a permit that nobody waits for. -/
def fresh : Notify Waiter :=
  ⟨false, [], fun _ => rfl⟩

/-- The one that a notification wakes. -/
def next : Option Waiter :=
  notify.waiters.head?

/-- A notification wakes the longest-waiting or leaves the permit. -/
def notifyOne : Notify Waiter where
  permit := notify.waiters.isEmpty
  waiters := notify.waiters.tail
  idle := by
    intro h
    rw [List.isEmpty_iff.mp h]
    rfl

/-- The one who comes takes the permit or waits behind all others. -/
def wait (waiter : Waiter) : Notify Waiter where
  permit := false
  waiters := if notify.permit then [] else notify.waiters ++ [waiter]
  idle := by
    intro h
    cases h

/-- One who waits goes away. -/
def leave [DecidableEq Waiter] (waiter : Waiter) : Notify Waiter where
  permit := notify.permit
  waiters := notify.waiters.filter fun other => decide (other ≠ waiter)
  idle := by
    intro h
    rw [notify.idle h]
    rfl

variable {notify}

variable {waiter : Waiter}

theorem permit_eq_false (h : waiter ∈ notify.waiters) :
    notify.permit = false := by
  cases hpermit : notify.permit with
  | false => rfl
  | true =>
    rw [notify.idle hpermit] at h
    cases h

theorem next_eq_some_iff :
    notify.next = some waiter ↔ notify.waiters = waiter :: notify.notifyOne.waiters := by
  show notify.waiters.head? = some waiter ↔ notify.waiters = waiter :: notify.waiters.tail
  cases notify.waiters with
  | nil => simp
  | cons first rest => simp [eq_comm]

/-- If nobody was woken, the permit is there. -/
theorem permit_notifyOne (h : notify.next = none) : notify.notifyOne.permit = true := by
  rw [next, List.head?_eq_none_iff] at h
  show notify.waiters.isEmpty = true
  rw [h]
  rfl

theorem mem_wait {other : Waiter} :
    other ∈ (notify.wait waiter).waiters ↔
      other ∈ notify.waiters ∨ other = waiter ∧ notify.permit = false := by
  show other ∈ (if notify.permit then [] else notify.waiters ++ [waiter]) ↔ _
  cases hpermit : notify.permit with
  | true => simp [notify.idle hpermit]
  | false => simp

theorem nodup_wait (hnodup : notify.waiters.Nodup) (hfree : waiter ∉ notify.waiters) :
    (notify.wait waiter).waiters.Nodup := by
  show (if notify.permit then [] else notify.waiters ++ [waiter]).Nodup
  split
  · exact List.nodup_nil
  · rw [List.nodup_append]
    refine ⟨hnodup, List.nodup_singleton waiter, ?_⟩
    intro other hother last hlast heq
    rw [List.mem_singleton.mp hlast] at heq
    exact hfree (heq ▸ hother)

theorem mem_leave [DecidableEq Waiter] {other : Waiter} :
    other ∈ (notify.leave waiter).waiters ↔ other ∈ notify.waiters ∧ other ≠ waiter := by
  simp [leave]

end Notify
