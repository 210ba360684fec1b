import Mathlib.Algebra.BigOperators.Group.Finset.Piecewise
import Mathlib.Algebra.BigOperators.Ring.Finset
import Mathlib.Algebra.Order.BigOperators.Group.Finset
import Mathlib.Algebra.Order.Ring.Int
import Mathlib.Data.Fintype.Card
import Mathlib.Data.Nat.Cast.Order.Ring

/-!
# Counting threads by their program points

Each thread of a finite family stands at a program point. A counter kept by
the program is compared with the number of threads at certain points; when one
thread moves, that number changes by the difference of its two points.
-/

namespace LayerInference.ThreadCounts

variable {ι π : Type}

/-- One for a point that is counted. -/
def weight (p : π → Bool) (x : π) : ℤ := if p x then 1 else 0

theorem weight_nonneg (p : π → Bool) (x : π) : 0 ≤ weight p x := by
  unfold weight
  split <;> decide

section Counts

variable [Fintype ι] {p : π → Bool} {point : ι → π}

/-- The number of threads at a counted point. -/
def countAt (p : π → Bool) (point : ι → π) : ℤ := ∑ t, weight p (point t)

theorem countAt_eq_card (p : π → Bool) (point : ι → π) :
    countAt p point = (Finset.univ.filter fun t => p (point t)).card := by
  rw [countAt, Finset.card_filter, Nat.cast_sum]
  refine Finset.sum_congr rfl fun t _ => ?_
  rw [weight]
  split <;> rfl

theorem countAt_nonneg (p : π → Bool) (point : ι → π) : 0 ≤ countAt p point :=
  Finset.sum_nonneg fun t _ => weight_nonneg p (point t)

/-- One thread moves. -/
theorem countAt_update [DecidableEq ι] (p : π → Bool) (point : ι → π) (t : ι) (x : π) :
    countAt p (Function.update point t x) =
      countAt p point + weight p x - weight p (point t) := by
  have hrest : ∑ u ∈ Finset.univ.erase t, weight p (Function.update point t x u) =
      ∑ u ∈ Finset.univ.erase t, weight p (point u) := by
    refine Finset.sum_congr rfl fun u hu => ?_
    rw [Function.update_of_ne (Finset.ne_of_mem_erase hu)]
  have hnew := Finset.add_sum_erase Finset.univ
    (fun u => weight p (Function.update point t x u)) (Finset.mem_univ t)
  have hold := Finset.add_sum_erase Finset.univ (fun u => weight p (point u)) (Finset.mem_univ t)
  rw [Function.update_self, hrest] at hnew
  rw [countAt, countAt]
  omega

/-- Threads that keep their class keep the count. -/
theorem countAt_congr {point' : ι → π} (h : ∀ t, p (point' t) = p (point t)) :
    countAt p point' = countAt p point := by
  refine Finset.sum_congr rfl fun t _ => ?_
  rw [weight, weight, h]

theorem countAt_pos_iff : 0 < countAt p point ↔ ∃ t, p (point t) := by
  rw [countAt_eq_card, Nat.cast_pos, Finset.card_pos]
  simp only [Finset.Nonempty, Finset.mem_filter, Finset.mem_univ, true_and]

/-- A count of at most one leaves room for one thread. -/
theorem eq_of_countAt_le_one (h : countAt p point ≤ 1) {t u : ι} (ht : p (point t))
    (hu : p (point u)) : t = u := by
  rw [countAt_eq_card] at h
  have hcard : (Finset.univ.filter fun t => p (point t)).card ≤ 1 := by exact_mod_cast h
  exact Finset.card_le_one.mp hcard t (Finset.mem_filter.mpr ⟨Finset.mem_univ t, ht⟩) u
    (Finset.mem_filter.mpr ⟨Finset.mem_univ u, hu⟩)

end Counts

end LayerInference.ThreadCounts
