import LayerInference.Rounding
import Mathlib.Data.List.Forall2

/-!
# Activations as eight-bit integers

The sender divides a tensor by a scale, rounds to even and clamps, and the
receiver multiplies again. The scale is the largest magnitude over 127 with a
floor for small tensors. So every quotient is between -127 and 127, the clamp
does nothing, and an entry comes back within half a scale. Numbers are exact;
what a cast does to a number is a parameter.
-/

namespace LayerInference.PayloadPrecision

open Rounding

section Module

inductive ActivationPrecision where
  | fp32
  | fp16
  | bf16
  | int8
  deriving DecidableEq

inductive Dtype where
  | float64
  | float32
  | float16
  | bfloat16
  | int64
  | int8
  deriving DecidableEq

def Dtype.isFloatingPoint : Dtype → Bool
  | .float64 | .float32 | .float16 | .bfloat16 => true
  | .int64 | .int8 => false

/-- The entries of a tensor in the order of its storage. -/
structure Tensor where
  dtype : Dtype
  values : List ℚ

/-- The entries of the metadata that both sides use. -/
structure PayloadMetadata where
  mode : Option ActivationPrecision := none
  sourceDtype : Option Dtype := none
  applied : Option Bool := none
  scale : Option ℚ := none
  restoredDtype : Option Dtype := none

variable (cast : Dtype → ℚ → ℚ)

/-- A tensor of another type. -/
def Tensor.to (tensor : Tensor) (dtype : Dtype) : Tensor := ⟨dtype, tensor.values.map (cast dtype)⟩

/-- The largest magnitude; there is none in an empty tensor. -/
def maxAbs (values : List ℚ) : Option ℚ := (values.map abs).max?

/-- The scale has a floor. -/
def quantizationScale (maxAbs : ℚ) : ℚ := max (maxAbs / 127) (1 / 10 ^ 8)

def clamp (low high x : ℚ) : ℚ := min (max x low) high

/-- The tensor that is sent; an error is raised when an empty tensor has no largest entry. -/
def prepareTensor (tensor : Tensor) (mode : ActivationPrecision) :
    Option (Tensor × PayloadMetadata) :=
  let base : PayloadMetadata := { mode := some mode, sourceDtype := some tensor.dtype }
  if !tensor.dtype.isFloatingPoint || mode == .fp32 then
    some (tensor, { base with applied := some false })
  else
    match mode with
    | .fp16 => some (tensor.to cast .float16, { base with applied := some true })
    | .bf16 => some (tensor.to cast .bfloat16, { base with applied := some true })
    | .int8 =>
      let tensorFp32 := tensor.to cast .float32
      match maxAbs tensorFp32.values with
      | none => none
      | some largest =>
        let scale := quantizationScale largest
        let rounded := tensorFp32.values.map fun x => clamp (-127) 127 (roundEven (x / scale))
        some (Tensor.to cast ⟨.float32, rounded⟩ .int8, { base with
          applied := some true
          scale := some scale
          restoredDtype := some tensor.dtype })
    | .fp32 => some (tensor, { base with applied := some false })

/-- The type that the sender named; an unknown one is read as 32-bit. -/
def dtypeFromName : Dtype → Dtype
  | .float16 => .float16
  | .bfloat16 => .bfloat16
  | .float64 => .float64
  | .float32 | .int64 | .int8 => .float32

/-- The tensor that the receiver goes on with. -/
def restoreTensor (tensor : Tensor) (metadata : PayloadMetadata) : Tensor :=
  if !metadata.applied.getD false then tensor
  else
    match metadata.mode.getD .fp32 with
    | .int8 =>
      let scale := metadata.scale.getD 1
      ⟨.float32, (tensor.to cast .float32).values.map (· * scale)⟩
    | .fp16 => tensor.to cast (dtypeFromName (metadata.sourceDtype.getD .float32))
    | .bf16 => tensor.to cast (dtypeFromName (metadata.sourceDtype.getD .float32))
    | .fp32 => tensor

end Module

section Quantization

/-- Casts that lose nothing: to 32 bits, and of a small integer to 8 bits. -/
structure ExactCasts (cast : Dtype → ℚ → ℚ) : Prop where
  float32 : ∀ x, cast .float32 x = x
  int8 : ∀ n : ℤ, -128 ≤ n → n ≤ 127 → cast .int8 n = n

theorem quantizationScale_pos (largest : ℚ) : 0 < quantizationScale largest :=
  lt_of_lt_of_le (by norm_num) (le_max_right _ _)

theorem abs_le_scale {largest x : ℚ} (h : |x| ≤ largest) :
    |x / quantizationScale largest| ≤ 127 := by
  have hpos := quantizationScale_pos largest
  have hscale : largest / 127 ≤ quantizationScale largest := le_max_left _ _
  rw [abs_div, abs_of_pos hpos, div_le_iff₀ hpos]
  linarith

/-- The rounded quotient is between the bounds already. -/
theorem roundEven_bounds {largest x : ℚ} (h : |x| ≤ largest) :
    -127 ≤ roundEven (x / quantizationScale largest) ∧
      roundEven (x / quantizationScale largest) ≤ 127 := by
  have hbounds := abs_le.mp (abs_le_scale h)
  have hlow := roundEven_mono hbounds.1
  have hhigh := roundEven_mono hbounds.2
  have hleft : roundEven (-127) = -127 := roundEven_intCast (-127)
  have hright : roundEven 127 = 127 := roundEven_intCast 127
  rw [hleft] at hlow
  rw [hright] at hhigh
  exact ⟨hlow, hhigh⟩

/-- So the clamp leaves it. -/
theorem clamp_roundEven {largest x : ℚ} (h : |x| ≤ largest) :
    clamp (-127) 127 (roundEven (x / quantizationScale largest)) =
      roundEven (x / quantizationScale largest) := by
  obtain ⟨hlow, hhigh⟩ := roundEven_bounds h
  unfold clamp
  rw [max_eq_left (by exact_mod_cast hlow), min_eq_left (by exact_mod_cast hhigh)]

/-- The eight-bit integers of the entries. -/
def quantized (largest : ℚ) (values : List ℚ) : List ℤ :=
  values.map fun x => roundEven (x / quantizationScale largest)

theorem abs_le_of_maxAbs {values : List ℚ} {largest : ℚ} (h : maxAbs values = some largest) :
    ∀ x ∈ values, |x| ≤ largest := by
  intro x hx
  have hall := (List.max?_eq_some_iff.mp h).2
  exact hall |x| (List.mem_map_of_mem hx)

variable {cast : Dtype → ℚ → ℚ}

/-- What the sender sends of a tensor with a largest entry. -/
theorem prepareTensor_int8 (hcast : ExactCasts cast) {tensor : Tensor}
    (hfloat : tensor.dtype.isFloatingPoint = true) {largest : ℚ}
    (hlargest : maxAbs tensor.values = some largest) :
    prepareTensor cast tensor .int8 =
      some (⟨.int8, (quantized largest tensor.values).map Int.cast⟩,
        { mode := some .int8
          sourceDtype := some tensor.dtype
          applied := some true
          scale := some (quantizationScale largest)
          restoredDtype := some tensor.dtype }) := by
  have hsame : tensor.values.map (cast .float32) = tensor.values :=
    (List.map_congr_left fun x _ => hcast.float32 x).trans (List.map_id _)
  have hvalues : (tensor.values.map fun x =>
      cast .int8 (clamp (-127) 127 (roundEven (x / quantizationScale largest)))) =
      (quantized largest tensor.values).map Int.cast := by
    unfold quantized
    rw [List.map_map]
    refine List.map_congr_left fun x hx => ?_
    have hbound := abs_le_of_maxAbs hlargest x hx
    obtain ⟨hlow, hhigh⟩ := roundEven_bounds hbound
    rw [clamp_roundEven hbound]
    exact hcast.int8 _ (by omega) (by omega)
  unfold prepareTensor
  rw [hfloat]
  simp only [Bool.not_true, Bool.false_or, Tensor.to, hsame, hlargest, List.map_map]
  rw [← hvalues]
  rfl

/-- What the receiver makes of it. -/
theorem restoreTensor_int8 (hcast : ExactCasts cast) (integers : List ℤ) (metadata : PayloadMetadata)
    (hmode : metadata.mode = some .int8) (happlied : metadata.applied = some true) :
    restoreTensor cast ⟨.int8, integers.map Int.cast⟩ metadata =
      ⟨.float32, integers.map fun n : ℤ => (n : ℚ) * metadata.scale.getD 1⟩ := by
  have hsame : (integers.map Int.cast).map (cast .float32) = integers.map Int.cast :=
    (List.map_congr_left fun x _ => hcast.float32 x).trans (List.map_id _)
  unfold restoreTensor
  rw [hmode, happlied]
  simp only [Option.getD_some, Bool.not_true, Bool.false_eq_true, if_false, Tensor.to, hsame,
    List.map_map]
  rfl

/-- The entries with the other sign. -/
def Tensor.neg (tensor : Tensor) : Tensor := ⟨tensor.dtype, tensor.values.map (-·)⟩

theorem maxAbs_neg (values : List ℚ) : maxAbs (values.map (-·)) = maxAbs values := by
  unfold maxAbs
  rw [List.map_map]
  exact congrArg _ (List.map_congr_left fun x _ => abs_neg x)

theorem quantized_neg (largest : ℚ) (values : List ℚ) :
    quantized largest (values.map (-·)) = (quantized largest values).map (-·) := by
  unfold quantized
  rw [List.map_map, List.map_map]
  refine List.map_congr_left fun x _ => ?_
  change roundEven (-x / quantizationScale largest) = -roundEven (x / quantizationScale largest)
  rw [neg_div, roundEven_neg]

/-- An entry comes back within half a scale. -/
theorem abs_restored_sub_le (largest x : ℚ) :
    |(roundEven (x / quantizationScale largest) : ℚ) * quantizationScale largest - x| ≤
      quantizationScale largest / 2 :=
  abs_roundTo_sub_le (quantizationScale_pos largest) x

/-- A tensor sent as eight-bit integers: the scale, the bounds of the integers,
the error of every entry, and what the other sign changes. -/
structure Int8Payload (cast : Dtype → ℚ → ℚ) (tensor : Tensor) (largest : ℚ) (sent : Tensor)
    (metadata : PayloadMetadata) : Prop where
  attained : largest ∈ tensor.values.map abs
  bound : ∀ x ∈ tensor.values, |x| ≤ largest
  prepared : prepareTensor cast tensor .int8 = some (sent, metadata)
  scale : metadata.scale = some (max (largest / 127) (1 / 10 ^ 8))
  integers : ∀ q ∈ sent.values, ∃ n : ℤ, q = n ∧ -127 ≤ n ∧ n ≤ 127
  error : List.Forall₂ (fun x y => |y - x| ≤ max (largest / 127) (1 / 10 ^ 8) / 2) tensor.values
    (restoreTensor cast sent metadata).values
  preparedNeg : prepareTensor cast tensor.neg .int8 = some (sent.neg, metadata)
  restoredNeg : restoreTensor cast sent.neg metadata = (restoreTensor cast sent metadata).neg

/-- Every tensor that is not empty is sent so, also one of zeros or of tiny entries. -/
theorem int8_round_trip (hcast : ExactCasts cast) {tensor : Tensor}
    (hfloat : tensor.dtype.isFloatingPoint = true) (hne : tensor.values ≠ []) :
    ∃ largest sent metadata, Int8Payload cast tensor largest sent metadata := by
  obtain ⟨largest, hlargest⟩ : ∃ largest, maxAbs tensor.values = some largest := by
    cases hmax : maxAbs tensor.values with
    | some largest => exact ⟨largest, rfl⟩
    | none => exact absurd (List.map_eq_nil_iff.mp (List.max?_eq_none_iff.mp hmax)) hne
  have hbound := abs_le_of_maxAbs hlargest
  have hnegated : (quantized largest tensor.values).map (fun n : ℤ => -(n : ℚ)) =
      ((quantized largest tensor.values).map (-·)).map Int.cast := by
    rw [List.map_map]
    exact List.map_congr_left fun n _ => (Int.cast_neg (R := ℚ) n).symm
  have hsentNeg : Tensor.neg ⟨.int8, (quantized largest tensor.values).map Int.cast⟩ =
      ⟨.int8, ((quantized largest tensor.values).map (-·)).map Int.cast⟩ := by
    rw [← hnegated, Tensor.neg, List.map_map]
    rfl
  refine ⟨largest, _, _, List.max?_mem hlargest, hbound, prepareTensor_int8 hcast hfloat hlargest,
    rfl, ?_, ?_, ?_, ?_⟩
  · intro q hq
    obtain ⟨n, hn, rfl⟩ := List.mem_map.mp hq
    obtain ⟨x, hx, rfl⟩ := List.mem_map.mp hn
    exact ⟨_, rfl, roundEven_bounds (hbound x hx)⟩
  · rw [restoreTensor_int8 hcast _ _ rfl rfl, quantized]
    dsimp only [Option.getD_some]
    rw [List.map_map, List.forall₂_map_right_iff]
    exact List.forall₂_same.mpr fun x _ => abs_restored_sub_le largest x
  · rw [hsentNeg, ← quantized_neg]
    have hneg : maxAbs tensor.neg.values = some largest := (maxAbs_neg tensor.values).trans hlargest
    exact @prepareTensor_int8 cast hcast tensor.neg hfloat _ hneg
  · rw [hsentNeg, restoreTensor_int8 hcast _ _ rfl rfl, restoreTensor_int8 hcast _ _ rfl rfl,
      Tensor.neg, List.map_map, List.map_map]
    congr 1
    refine List.map_congr_left fun n _ => ?_
    change ((-n : ℤ) : ℚ) * _ = -((n : ℚ) * _)
    rw [Int.cast_neg, neg_mul]

/-- Casts that lose nothing, and a tensor with a tie. -/
theorem int8_round_trip_tie : ∃ largest sent metadata,
    Int8Payload (fun _ x => x) ⟨.float32, [127, 1 / 2, -3 / 2]⟩ largest sent metadata :=
  int8_round_trip ⟨fun _ => rfl, fun _ _ _ => rfl⟩ rfl (List.cons_ne_nil _ _)

end Quantization

end LayerInference.PayloadPrecision
