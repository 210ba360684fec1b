import LayerInference.FlatVectors
import LayerInference.FloatArithmetic

/-!
# Tensors as strided views

A tensor of the kernel library is a buffer with extents and strides. The first
extent is the row; a product takes the inner product of each row of one
tensor with each row of the other in the same slice, and writes its result
contiguously. Strides are counted in elements. Nothing here belongs to one
program.
-/

namespace LayerInference.StridedViews

open FlatVectors FloatArithmetic

variable {R : Type} [FloatArith R]

/-- A buffer seen with three extents and three strides. -/
structure View (R : Type) where
  data : List R
  ne0 : ℕ
  ne1 : ℕ
  ne2 : ℕ
  nb0 : ℕ
  nb1 : ℕ
  nb2 : ℕ

namespace View

/-- An element of a view. -/
def get (v : View R) (i0 i1 i2 : ℕ) : R := v.data.getD (i0 * v.nb0 + i1 * v.nb1 + i2 * v.nb2) 0

/-- A row of a view. -/
def row (v : View R) (i1 i2 : ℕ) : List R := (List.range v.ne0).map fun i0 => v.get i0 i1 i2

/-- A buffer that lies in order. -/
def contiguous (data : List R) (ne0 ne1 ne2 : ℕ) : View R :=
  ⟨data, ne0, ne1, ne2, 1, ne0, ne0 * ne1⟩

/-- A new tensor with the given rows. -/
def ofRows (ne0 ne1 ne2 : ℕ) (rows : ℕ → ℕ → List R) : View R :=
  contiguous ((List.range ne2).flatMap fun i2 => (List.range ne1).flatMap fun i1 => rows i1 i2)
    ne0 ne1 ne2

section Kernels

variable [Kernels R]

/-- The product of two tensors, row by row. -/
def mulMat (a b : View R) : View R :=
  ofRows a.ne1 b.ne1 b.ne2 fun i1 i2 =>
    (List.range a.ne1).map fun j => Kernels.vecDot (a.row j i2) (b.row i1 i2)

omit [Kernels R] in
/-- All elements times a number. -/
def scale (a : View R) (s : R) : View R :=
  ofRows a.ne0 a.ne1 a.ne2 fun i1 i2 => (a.row i1 i2).map (· * s)

/-- The softmax of each row. -/
def softMax (a : View R) : View R :=
  ofRows a.ne0 a.ne1 a.ne2 fun i1 i2 => Kernels.softMax (a.row i1 i2)

end Kernels

/-- A row of a contiguous tensor is a section of its buffer. -/
theorem contiguous_row {data : List R} {ne0 ne1 ne2 i1 i2 : ℕ} (hlength : data.length = ne0 * ne1 * ne2)
    (h1 : i1 < ne1) (h2 : i2 < ne2) :
    (contiguous data ne0 ne1 ne2).row i1 i2 = slice data ((i2 * ne1 + i1) * ne0) ne0 := by
  have hfits : (i2 * ne1 + i1) * ne0 + ne0 ≤ data.length := by
    have hslice : (i2 + 1) * ne1 ≤ ne2 * ne1 := Nat.mul_le_mul_right _ h2
    have hrow : (i2 * ne1 + i1 + 1) * ne0 ≤ ne2 * ne1 * ne0 :=
      Nat.mul_le_mul_right _ (by rw [Nat.add_mul, Nat.one_mul] at hslice; omega)
    rw [Nat.add_mul, Nat.one_mul] at hrow
    have hproduct : ne0 * ne1 * ne2 = ne2 * ne1 * ne0 := by ring
    rw [hlength, hproduct]
    exact hrow
  rw [slice_eq_map hfits 0]
  refine List.map_congr_left fun i0 _ => ?_
  have hindex : i0 * 1 + i1 * ne0 + i2 * (ne0 * ne1) = (i2 * ne1 + i1) * ne0 + i0 := by ring
  simp only [get, contiguous, hindex]

/-- The rows of a new tensor. -/
theorem ofRows_row {ne0 ne1 ne2 i1 i2 : ℕ} {rows : ℕ → ℕ → List R}
    (hrows : ∀ i1 i2, (rows i1 i2).length = ne0) (h1 : i1 < ne1) (h2 : i2 < ne2) :
    (ofRows ne0 ne1 ne2 rows).row i1 i2 = rows i1 i2 := by
  have hslices (i2 : ℕ) : ((List.range ne1).flatMap fun i1 => rows i1 i2).length = ne1 * ne0 := by
    rw [flatMap_length_mul (fun i1 => hrows i1 i2), List.length_range]
  have hlength : ((List.range ne2).flatMap fun i2 =>
      (List.range ne1).flatMap fun i1 => rows i1 i2).length = ne0 * ne1 * ne2 := by
    rw [flatMap_length_mul hslices, List.length_range, Nat.mul_comm, Nat.mul_comm ne1]
  have hslice := slice_flatMap hslices (List.range ne2)
    (by rwa [List.length_range] : i2 < (List.range ne2).length)
  have hrow := slice_flatMap (fun i1 => hrows i1 i2) (List.range ne1)
    (by rwa [List.length_range] : i1 < (List.range ne1).length)
  rw [List.getElem_range] at hslice hrow
  rw [ofRows, contiguous_row hlength h1 h2, ← hrow, ← hslice]
  have hend : i1 * ne0 + ne0 ≤ ne1 * ne0 := by
    rw [← Nat.succ_mul]
    exact Nat.mul_le_mul_right _ h1
  rw [slice, slice, slice, List.drop_take, List.take_take, List.drop_drop, Nat.add_mul,
    Nat.mul_assoc, min_eq_left (by omega)]

theorem row_length (v : View R) (i1 i2 : ℕ) : (v.row i1 i2).length = v.ne0 := by
  rw [row, List.length_map, List.length_range]

theorem mulMat_row [Kernels R] (a b : View R) {i1 i2 : ℕ} (h1 : i1 < b.ne1) (h2 : i2 < b.ne2) :
    (a.mulMat b).row i1 i2 =
      (List.range a.ne1).map fun j => Kernels.vecDot (a.row j i2) (b.row i1 i2) :=
  ofRows_row (fun _ _ => by rw [List.length_map, List.length_range]) h1 h2

theorem scale_row (a : View R) (s : R) {i1 i2 : ℕ} (h1 : i1 < a.ne1) (h2 : i2 < a.ne2) :
    (a.scale s).row i1 i2 = (a.row i1 i2).map (· * s) :=
  ofRows_row (fun _ _ => by rw [List.length_map, row_length]) h1 h2

theorem softMax_row [Kernels R] (hsoft : ∀ xs : List R, (Kernels.softMax xs).length = xs.length)
    (a : View R) {i1 i2 : ℕ} (h1 : i1 < a.ne1) (h2 : i2 < a.ne2) :
    a.softMax.row i1 i2 = Kernels.softMax (a.row i1 i2) :=
  ofRows_row (fun _ _ => by rw [hsoft, row_length]) h1 h2

end View

end LayerInference.StridedViews
