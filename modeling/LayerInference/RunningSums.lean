import Mathlib.Algebra.BigOperators.Group.List.Basic
import Mathlib.Algebra.Order.Field.Basic
import Mathlib.Algebra.Order.BigOperators.Group.List

/-!
# Where a running sum reaches a bound

A loop adds the terms of a list and stops at the first one with which the sum
reaches a bound. The bounds that stop it at one term form the interval between
the sums before and with this term; the intervals of positive terms lie side by
side and fill the way to the whole sum. Nothing here belongs to one program.
-/

namespace LayerInference.RunningSums

variable {R : Type} [AddCommMonoid R] {bound start : R} {terms : List R}

/-- The sum of the first terms. -/
def partialSum (terms : List R) (n : ℕ) : R := (terms.take n).sum

@[simp] theorem partialSum_zero (terms : List R) : partialSum terms 0 = 0 := rfl

@[simp] theorem partialSum_length (terms : List R) : partialSum terms terms.length = terms.sum := by
  rw [partialSum, List.take_length]

theorem partialSum_cons_succ (term : R) (terms : List R) (n : ℕ) :
    partialSum (term :: terms) (n + 1) = term + partialSum terms n := by
  rw [partialSum, List.take_succ_cons, List.sum_cons, partialSum]

theorem partialSum_succ {n : ℕ} (hn : n < terms.length) :
    partialSum terms (n + 1) = partialSum terms n + terms[n] := by
  rw [partialSum, List.take_succ_eq_append_getElem hn, List.sum_append, List.sum_singleton,
    partialSum]

variable [LinearOrder R]

/-- The index of the first term with which the sum reaches the bound. -/
def firstReach (bound : R) : List R → R → Option ℕ
  | [], _ => none
  | term :: terms, sum =>
    if bound ≤ sum + term then some 0 else (firstReach bound terms (sum + term)).map (· + 1)

/-- The loop stops at the first term that reaches the bound. -/
theorem firstReach_eq_some {i : ℕ} :
    firstReach bound terms start = some i ↔
      i < terms.length ∧ bound ≤ start + partialSum terms (i + 1) ∧
        ∀ j < i, start + partialSum terms (j + 1) < bound := by
  induction terms generalizing start i with
  | nil => simp [firstReach]
  | cons term terms ih =>
    have hshift (n : ℕ) : start + partialSum (term :: terms) (n + 1) =
        start + term + partialSum terms n := by
      rw [partialSum_cons_succ, add_assoc]
    simp only [firstReach, hshift]
    by_cases hreach : bound ≤ start + term
    · rw [if_pos hreach, Option.some.injEq]
      constructor
      · rintro rfl
        refine ⟨Nat.succ_pos _, by simpa using hreach, fun j hj => absurd hj (Nat.not_lt_zero j)⟩
      · rintro ⟨-, -, hbefore⟩
        by_contra hne
        have hfirst := hbefore 0 (Nat.pos_of_ne_zero (Ne.symm hne))
        rw [partialSum_zero, add_zero] at hfirst
        exact absurd hreach (not_le.mpr hfirst)
    · rw [if_neg hreach, Option.map_eq_some_iff]
      constructor
      · rintro ⟨k, hk, rfl⟩
        obtain ⟨hlt, hle, hbefore⟩ := ih.mp hk
        refine ⟨Nat.succ_lt_succ hlt, hle, fun j hj => ?_⟩
        cases j with
        | zero => simpa using not_le.mp hreach
        | succ j => exact hbefore j (Nat.lt_of_succ_lt_succ hj)
      · rintro ⟨hlt, hle, hbefore⟩
        cases i with
        | zero => exact absurd (by simpa using hle) hreach
        | succ k =>
          refine ⟨k, ih.mpr ⟨Nat.lt_of_succ_lt_succ hlt, hle, fun j hj => ?_⟩, rfl⟩
          exact hbefore (j + 1) (Nat.succ_lt_succ hj)

/-- A bound below the whole sum is reached. -/
theorem firstReach_exists (hne : terms ≠ []) (h : bound ≤ start + terms.sum) :
    ∃ i, firstReach bound terms start = some i := by
  induction terms generalizing start with
  | nil => exact absurd rfl hne
  | cons term terms ih =>
    rw [firstReach]
    by_cases hreach : bound ≤ start + term
    · exact ⟨0, if_pos hreach⟩
    · rw [if_neg hreach]
      rw [List.sum_cons, ← add_assoc] at h
      cases terms with
      | nil => exact absurd (by simpa using h) hreach
      | cons next terms =>
        obtain ⟨i, hi⟩ := ih (List.cons_ne_nil _ _) h
        exact ⟨i + 1, by rw [hi]; rfl⟩

/-- A higher bound stops the loop at the same term or later. -/
theorem firstReach_mono {bound' : R} (hle : bound ≤ bound') {i j : ℕ}
    (hi : firstReach bound terms start = some i) (hj : firstReach bound' terms start = some j) :
    i ≤ j := by
  obtain ⟨-, -, hbefore⟩ := firstReach_eq_some.mp hi
  obtain ⟨-, hreach, -⟩ := firstReach_eq_some.mp hj
  by_contra hlt
  exact absurd (hle.trans hreach) (not_le.mpr (hbefore j (by omega)))

section Ordered

variable [IsOrderedAddMonoid R]

/-- Positive terms have a positive sum. -/
theorem sum_map_pos {α : Type} {items : List α} {term : α → R} (h : ∀ item, 0 < term item)
    (hne : items ≠ []) : 0 < (items.map term).sum := by
  refine List.sum_pos _ (fun x hx => ?_) fun hnil => hne (List.map_eq_nil_iff.mp hnil)
  obtain ⟨item, -, rfl⟩ := List.mem_map.mp hx
  exact h item

/-- Sums of terms that are not negative grow. -/
theorem partialSum_mono (hnonneg : ∀ term ∈ terms, 0 ≤ term) {m n : ℕ} (hmn : m ≤ n) :
    partialSum terms m ≤ partialSum terms n := by
  induction hmn with
  | refl => exact le_refl _
  | @step n _ ih =>
    by_cases hn : n < terms.length
    · rw [partialSum_succ hn]
      exact ih.trans (le_add_of_nonneg_right (hnonneg _ (List.getElem_mem hn)))
    · have hall : partialSum terms (n + 1) = partialSum terms n := by
        rw [partialSum, partialSum, List.take_of_length_le (by omega),
          List.take_of_length_le (by omega)]
      rwa [hall]

/-- The loop stops at a term exactly for the bounds between the sums before
and with it; the first term also takes the bounds below its interval. -/
theorem firstReach_eq_some_iff (hnonneg : ∀ term ∈ terms, 0 ≤ term) {i : ℕ}
    (hi : i < terms.length) :
    firstReach bound terms start = some i ↔
      (i = 0 ∨ start + partialSum terms i < bound) ∧ bound ≤ start + partialSum terms (i + 1) := by
  rw [firstReach_eq_some]
  constructor
  · rintro ⟨-, hle, hbefore⟩
    refine ⟨?_, hle⟩
    cases i with
    | zero => exact .inl rfl
    | succ i => exact .inr (hbefore i (Nat.lt_succ_self i))
  · rintro ⟨hlow, hle⟩
    refine ⟨hi, hle, fun j hj => ?_⟩
    rcases hlow with rfl | hlow
    · exact absurd hj (Nat.not_lt_zero j)
    · exact lt_of_le_of_lt (add_le_add_right (partialSum_mono hnonneg hj) start) hlow

end Ordered

end LayerInference.RunningSums
