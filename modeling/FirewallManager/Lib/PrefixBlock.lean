import Mathlib.Data.Nat.Basic
import Mathlib.Tactic.Ring

/-!
# Aligned blocks of numbers

The block of `base` with `k` free low bits is the set of numbers that agree with `base`
above its lowest `k` bits: the aligned interval from `first base k` to `last base k`. Two
aligned blocks are nested or disjoint, so they share a number exactly when one of them
contains the other's first number (`overlap_iff`).
-/

namespace PrefixBlock

/-- The smallest number of the block. -/
def first (base k : Nat) : Nat :=
  base / 2 ^ k * 2 ^ k

/-- The largest number of the block. -/
def last (base k : Nat) : Nat :=
  first base k + (2 ^ k - 1)

/-- Membership by comparison with the two ends of the block. -/
def Mem (base k x : Nat) : Prop :=
  first base k ≤ x ∧ x ≤ last base k

/-- Membership is decided by two comparisons. -/
instance (base k x : Nat) : Decidable (Mem base k x) :=
  inferInstanceAs (Decidable (_ ∧ _))

/-- A number is in the block exactly when it agrees with the base above the free bits. -/
theorem mem_iff (base k x : Nat) : Mem base k x ↔ x / 2 ^ k = base / 2 ^ k := by
  have hpos : 0 < 2 ^ k := Nat.two_pow_pos k
  unfold Mem last first
  rw [Nat.div_eq_iff hpos, Nat.mul_comm (base / 2 ^ k)]
  omega

theorem mem_first (base k : Nat) : Mem base k (first base k) := by
  refine ⟨Nat.le_refl _, ?_⟩
  unfold last
  omega

/-- Agreement above `j` bits gives agreement above any larger number of bits. -/
theorem div_eq_of_le {j k x y : Nat} (hjk : j ≤ k) (h : x / 2 ^ j = y / 2 ^ j) :
    x / 2 ^ k = y / 2 ^ k := by
  obtain ⟨d, rfl⟩ := Nat.exists_eq_add_of_le hjk
  rw [Nat.pow_add, ← Nat.div_div_eq_div_mul, ← Nat.div_div_eq_div_mul, h]

/-- A block that shares a number with a block of at least its size lies inside it; in
particular its first number does. -/
theorem first_mem_of_le {a j b k x : Nat} (hjk : j ≤ k) (ha : Mem a j x) (hb : Mem b k x) :
    Mem b k (first a j) := by
  rw [mem_iff] at ha hb ⊢
  have hfirst : first a j / 2 ^ j = a / 2 ^ j := (mem_iff a j _).mp (mem_first a j)
  exact (div_eq_of_le hjk (hfirst.trans ha.symm)).trans hb

/-- Two blocks share a number exactly when one contains the first number of the other. -/
theorem overlap_iff (a j b k : Nat) :
    (∃ x, Mem a j x ∧ Mem b k x) ↔ Mem a j (first b k) ∨ Mem b k (first a j) := by
  constructor
  · rintro ⟨x, ha, hb⟩
    rcases Nat.le_total j k with hjk | hkj
    · exact Or.inr (first_mem_of_le hjk ha hb)
    · exact Or.inl (first_mem_of_le hkj hb ha)
  · rintro (h | h)
    · exact ⟨_, h, mem_first b k⟩
    · exact ⟨_, mem_first a j, h⟩

end PrefixBlock
