import Mathlib.Data.List.Basic
import Mathlib.Data.List.Forall2

/-!
# Lists and options

Facts about lists that grow at their end, about lists that are related element by element, and about
options with a fallback.
-/

namespace Lists

open List

variable {α β : Type*}

/-- An element of a list that was extended by one is the new one, or stands in the old list. -/
theorem concat_eq_append_cons {xs before after : List α} {x y : α}
    (h : xs ++ [x] = before ++ y :: after) :
    (after = [] ∧ y = x) ∨ ∃ rest, after = rest ++ [x] ∧ xs = before ++ y :: rest := by
  rcases eq_nil_or_concat after with rfl | ⟨rest, last, rfl⟩
  · exact Or.inl ⟨rfl, (List.cons.inj (append_inj' h rfl).2).1.symm⟩
  · rw [concat_eq_append, ← cons_append, ← append_assoc] at h
    obtain ⟨hxs, hlast⟩ := append_inj' h rfl
    exact Or.inr ⟨rest, by rw [concat_eq_append, hlast], hxs⟩

/-- A first part of a list that was extended by one is the whole list, or a part of the old one. -/
theorem concat_prefix_concat {xs ys : List α} {x y : α} (h : xs ++ [x] <+: ys ++ [y]) :
    (xs = ys ∧ x = y) ∨ xs ++ [x] <+: ys := by
  rcases prefix_concat_iff.mp h with heq | hold
  · obtain ⟨hxs, hx⟩ := append_inj' heq rfl
    exact Or.inl ⟨hxs, singleton_inj.mp hx⟩
  · exact Or.inr hold

theorem map_eq_map_iff_forall₂ {f : α → β} {xs ys : List α} :
    xs.map f = ys.map f ↔ List.Forall₂ (fun x y => f x = f y) xs ys := by
  rw [← forall₂_eq_eq_eq, forall₂_map_left_iff, forall₂_map_right_iff]

/-- What stands in the second list has its partner in the first one. -/
theorem exists_of_forall₂ {R : α → β → Prop} {xs : List α} {ys : List β}
    (h : List.Forall₂ R xs ys) {y : β} (hy : y ∈ ys) : ∃ x ∈ xs, R x y := by
  induction h with
  | nil => cases hy
  | cons hfirst _ ih =>
    rcases mem_cons.mp hy with rfl | hrest
    · exact ⟨_, mem_cons_self, hfirst⟩
    · obtain ⟨x, hx, hrel⟩ := ih hrest
      exact ⟨x, mem_cons_of_mem _ hx, hrel⟩

/-- A fallback changes nothing exactly when there is no need for it or nothing to fall back to. -/
theorem orElse_eq_left_iff (given old : Option α) :
    (given <|> old) = given ↔ (given = none → old = none) := by
  cases given with
  | none => simp
  | some value => simp

end Lists
