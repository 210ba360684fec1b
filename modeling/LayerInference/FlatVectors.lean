import Mathlib.Data.List.GetD

/-!
# Matrices and caches stored as flat vectors

Rows of a matrix lie one behind the other in one vector. The operations are
the ones used on such vectors: taking a section, overwriting a section, and
changing the size with a fill value. Each comes with its length and with what
it leaves untouched.
-/

namespace LayerInference.FlatVectors

variable {α : Type}

/-- The `width` entries from `offset` on. -/
def slice (xs : List α) (offset width : ℕ) : List α := (xs.drop offset).take width

/-- Overwrite the entries from `offset` on. -/
def writeAt (xs : List α) (offset : ℕ) (ys : List α) : List α :=
  xs.take offset ++ ys ++ xs.drop (offset + ys.length)

/-- Cut to `n` entries, or fill up to them. -/
def resize (xs : List α) (n : ℕ) (fill : α) : List α :=
  xs.take n ++ List.replicate (n - xs.length) fill

theorem slice_length {xs : List α} {offset width : ℕ} (h : offset + width ≤ xs.length) :
    (slice xs offset width).length = width := by
  rw [slice, List.length_take, List.length_drop]
  omega

theorem writeAt_length {xs ys : List α} {offset : ℕ} (h : offset + ys.length ≤ xs.length) :
    (writeAt xs offset ys).length = xs.length := by
  simp only [writeAt, List.length_append, List.length_take, List.length_drop]
  omega

/-- A section of the first of two vectors. -/
theorem slice_append_left {xs : List α} {offset width : ℕ} (h : offset + width ≤ xs.length)
    (ys : List α) : slice (xs ++ ys) offset width = slice xs offset width := by
  rw [slice, slice, List.drop_append_of_le_length (by omega),
    List.take_append_of_le_length (by rw [List.length_drop]; omega)]

/-- A section of the second of two vectors. -/
theorem slice_append_right (xs ys : List α) (offset width : ℕ) :
    slice (xs ++ ys) (xs.length + offset) width = slice ys offset width := by
  rw [slice, slice, List.drop_append, List.drop_eq_nil_of_le (Nat.le_add_right _ _),
    Nat.add_sub_cancel_left, List.nil_append]

/-- Overwriting inside the first of two vectors. -/
theorem writeAt_append_left {xs zs : List α} {offset : ℕ} (h : offset + zs.length ≤ xs.length)
    (ys : List α) : writeAt (xs ++ ys) offset zs = writeAt xs offset zs ++ ys := by
  rw [writeAt, writeAt, List.take_append_of_le_length (by omega),
    List.drop_append_of_le_length h]
  simp only [List.append_assoc]

/-- Overwriting inside the second of two vectors. -/
theorem writeAt_append_right (xs ys zs : List α) (offset : ℕ) :
    writeAt (xs ++ ys) (xs.length + offset) zs = xs ++ writeAt ys offset zs := by
  rw [writeAt, writeAt, List.take_append, List.drop_append, List.take_of_length_le (by omega),
    List.drop_eq_nil_of_le (by omega), Nat.add_sub_cancel_left, Nat.add_assoc,
    Nat.add_sub_cancel_left, List.nil_append]
  simp only [List.append_assoc]

@[simp] theorem resize_length (xs : List α) (n : ℕ) (fill : α) : (resize xs n fill).length = n := by
  simp only [resize, List.length_append, List.length_take, List.length_replicate]
  omega

/-- Sections of equal width: dropping whole sections. -/
theorem flatMap_drop_mul {β : Type} {f : β → List α} {width : ℕ} (hf : ∀ b, (f b).length = width)
    (xs : List β) (i : ℕ) : (xs.flatMap f).drop (i * width) = (xs.drop i).flatMap f := by
  induction i generalizing xs with
  | zero => rw [Nat.zero_mul, List.drop_zero, List.drop_zero]
  | succ i ih =>
    cases xs with
    | nil => simp
    | cons x xs =>
      rw [List.flatMap_cons, Nat.succ_mul, Nat.add_comm, List.drop_append, hf x,
        List.drop_eq_nil_of_le (by rw [hf x]; omega), Nat.add_sub_cancel_left, ih]
      rfl

theorem flatMap_length_mul {β : Type} {f : β → List α} {width : ℕ}
    (hf : ∀ b, (f b).length = width) (xs : List β) :
    (xs.flatMap f).length = xs.length * width := by
  rw [List.length_flatMap, List.map_congr_left fun b _ => hf b, List.map_const',
    List.sum_replicate_nat]

/-- Sections of equal width that lie in order: taking one of them. -/
theorem slice_flatMap {β : Type} {f : β → List α} {width : ℕ} (hf : ∀ b, (f b).length = width)
    (xs : List β) {i : ℕ} (hi : i < xs.length) :
    slice (xs.flatMap f) (i * width) width = f xs[i] := by
  rw [slice, flatMap_drop_mul hf, List.drop_eq_getElem_cons hi, List.flatMap_cons,
    List.take_left' (hf _)]

/-- A section, entry by entry. -/
theorem slice_eq_map {xs : List α} {offset width : ℕ} (h : offset + width ≤ xs.length) (fill : α) :
    slice xs offset width = (List.range width).map fun i => xs.getD (offset + i) fill := by
  refine List.ext_getElem ?_ fun i hi hi' => ?_
  · rw [slice_length h, List.length_map, List.length_range]
  · rw [List.length_map, List.length_range] at hi'
    simp only [slice, List.getElem_take, List.getElem_drop, List.getElem_map, List.getElem_range]
    rw [List.getD_eq_getElem _ _ (by omega)]

theorem range_map_getD (xs : List α) (fill : α) :
    ((List.range xs.length).map fun i => xs.getD i fill) = xs := by
  refine List.ext_getElem (by simp) fun i h₁ h₂ => ?_
  simp [List.getElem?_eq_getElem h₂]

/-- An entry of a vector after a section was overwritten. -/
theorem writeAt_getD {xs ys : List α} {offset : ℕ} (h : offset + ys.length ≤ xs.length) (i : ℕ)
    (fill : α) : (writeAt xs offset ys).getD i fill =
      if offset ≤ i ∧ i < offset + ys.length then ys.getD (i - offset) fill
      else xs.getD i fill := by
  have htake : (xs.take offset).length = offset := by
    rw [List.length_take]
    omega
  rw [writeAt, List.append_assoc]
  by_cases hbefore : i < offset
  · rw [if_neg (by omega), List.getD_append _ _ _ _ (by omega)]
    simp only [List.getD_eq_getElem?_getD, List.getElem?_take_of_lt hbefore]
  · rw [List.getD_append_right _ _ _ _ (by omega), htake]
    by_cases hinside : i < offset + ys.length
    · rw [if_pos (by omega), List.getD_append _ _ _ _ (by omega)]
    · rw [if_neg (by omega), List.getD_append_right _ _ _ _ (by omega)]
      simp only [List.getD_eq_getElem?_getD, List.getElem?_drop]
      rw [show offset + ys.length + (i - offset - ys.length) = i by omega]

/-- An entry of a vector that was lengthened. -/
theorem resize_getD {xs : List α} {n : ℕ} (h : xs.length ≤ n) (i : ℕ) (fill : α) :
    (resize xs n fill).getD i fill = xs.getD i fill := by
  rw [resize, List.take_of_length_le h]
  by_cases hi : i < xs.length
  · rw [List.getD_append _ _ _ _ hi]
  · rw [List.getD_append_right _ _ _ _ (by omega), List.getD_eq_default xs fill (by omega)]
    by_cases hfill : i - xs.length < n - xs.length
    · rw [List.getD_replicate _ hfill]
    · rw [List.getD_eq_default _ _ (by rw [List.length_replicate]; omega)]

section Scatter

variable {ι : Type} {place : ι → ℕ} {value : ι → α}

@[simp] theorem scatter_length (items : List ι) (xs : List α) :
    (items.foldl (fun out item => out.set (place item) (value item)) xs).length = xs.length := by
  induction items generalizing xs with
  | nil => rfl
  | cons item items ih => rw [List.foldl_cons, ih, List.length_set]

/-- Where no entry is stored, a vector keeps its entry. -/
theorem scatter_getD_of_ne {items : List ι} {i : ℕ} (h : ∀ item ∈ items, place item ≠ i)
    (xs : List α) (fill : α) :
    (items.foldl (fun out item => out.set (place item) (value item)) xs).getD i fill =
      xs.getD i fill := by
  induction items generalizing xs with
  | nil => rfl
  | cons item items ih =>
    have hne : place item ≠ i := h item List.mem_cons_self
    rw [List.foldl_cons, ih fun other hother => h other (List.mem_cons_of_mem item hother)]
    simp only [List.getD_eq_getElem?_getD, List.getElem?_set_ne hne]

/-- An entry that was stored, when all entries stored at its place agree. -/
theorem scatter_getD {items : List ι} {i : ℕ} {x : α} (hstored : ∃ item ∈ items, place item = i)
    (hagree : ∀ item ∈ items, place item = i → value item = x) {xs : List α} (hi : i < xs.length)
    (fill : α) :
    (items.foldl (fun out item => out.set (place item) (value item)) xs).getD i fill = x := by
  induction items generalizing xs with
  | nil =>
    obtain ⟨item, hitem, -⟩ := hstored
    cases hitem
  | cons first items ih =>
    rw [List.foldl_cons]
    by_cases hlater : ∃ item ∈ items, place item = i
    · exact ih hlater (fun item hitem => hagree item (List.mem_cons_of_mem first hitem))
        (by rwa [List.length_set])
    · have hnone : ∀ item ∈ items, place item ≠ i := fun item hitem h => hlater ⟨item, hitem, h⟩
      obtain ⟨item, hitem, hplace⟩ := hstored
      have hfirst : item = first := by
        rcases List.mem_cons.mp hitem with rfl | hitem
        · rfl
        · exact absurd hplace (hnone item hitem)
      subst hfirst
      rw [scatter_getD_of_ne hnone, hplace, hagree item List.mem_cons_self hplace]
      simp only [List.getD_eq_getElem?_getD, List.getElem?_set_self hi, Option.getD_some]

end Scatter

end LayerInference.FlatVectors
