import LayerInference.FrameTensors
import LayerInference.ZeroModel

/-!
# The bytes behind a validated shape

The validators compare the payload with the product of the dimensions and the
element size, computed modulo 2^64. A payload is always shorter than 2^64
bytes, so an accepted tensor has the bytes of its shape exactly when the true
product stays below 2^64. A wrapped product lets a short payload through under
a shape that the conversions cannot fill.
-/

namespace LayerInference.TensorSizes

open ByteStrings FallibleRuns FloatArithmetic TensorAbi CpuExecutor PartitionExecution FrameTensors
  ZeroModel

variable {F D G : Type} [FloatArith F] [FloatArith D] [Numerics F D G] {tensor : TensorBuffer}
  {hp : LlamaExecutorHyperparams F} {size : ℕ}

/-- Accepted by one of the two validators. -/
def Validated (tensor : TensorBuffer) : Prop :=
  validateTokenIdsTensor tensor = .ok () ∨
    ∃ hiddenSize f16, validateHiddenStatesTensor tensor hiddenSize f16 = .ok ()

/-- The bytes of the shape in exact arithmetic, and conversions of batch one
that fill as many elements as were received. -/
structure ExactlySized (hp : LlamaExecutorHyperparams F) (tensor : TensorBuffer) : Prop where
  positive : ∀ dim ∈ tensor.metadata.shape, 0 < dim
  bytes : ∃ size, dtypeSizeBytes tensor.metadata.dtype = .ok size ∧
    (tensor.bytes.length : ℤ) = tensor.metadata.shape.prod * size
  tokens : validateTokenIdsTensor tensor = .ok () → tensor.metadata.shape.getD 0 0 = 1 →
    ∃ tokens, tensorToTokenIds tensor = .ok tokens ∧ tokens.length * 8 = tensor.bytes.length
  hidden : validateHiddenStatesTensor tensor hp.hiddenSize true = .ok () →
    tensor.metadata.shape.getD 0 0 = 1 → ∃ values size, tensorToHiddenF32 hp tensor = .ok values ∧
      dtypeSizeBytes tensor.metadata.dtype = .ok size ∧ values.length * size = tensor.bytes.length

/-- The size of the shape needs no more than 64 bits. -/
def SizeFits (tensor : TensorBuffer) : Prop :=
  ∃ size, dtypeSizeBytes tensor.metadata.dtype = .ok size ∧
    tensor.metadata.shape.prod * size < 2 ^ 64

/-- The element count of a shape with an element is its product modulo 2^64. -/
theorem productShape_prod {shape : List ℤ} {elements : ℤ} (hne : shape ≠ [])
    (h : productShape shape = .ok elements) : elements = toInt64 shape.prod := by
  have hfold (dims : List ℤ) (product : ℤ)
      (hdims : dims.foldlM productStep (toInt64 product) = .ok elements) :
      elements = toInt64 (product * dims.prod) := by
    induction dims generalizing product with
    | nil =>
      rw [List.prod_nil, mul_one]
      exact (Except.ok.inj hdims).symm
    | cons d dims ih =>
      rw [List.foldlM_cons] at hdims
      unfold productStep at hdims
      split at hdims
      · cases hdims
      · have hwrap : toInt64 (toInt64 product * d) = toInt64 (product * d) := Int.bmod_mul_bmod
        rw [hwrap] at hdims
        rw [List.prod_cons, ← mul_assoc]
        exact ih (product * d) hdims
  rw [productShape, if_neg (by simpa using hne)] at h
  have hone : toInt64 1 = 1 := by decide
  rw [hfold shape 1 (hone.symm ▸ h), one_mul]

theorem prod_pos {shape : List ℤ} (h : ∀ dim ∈ shape, 0 < dim) : 0 < shape.prod := by
  induction shape with
  | nil => exact one_pos
  | cons dim dims ih =>
    rw [List.prod_cons]
    exact mul_pos (h dim List.mem_cons_self) (ih fun d hd => h d (List.mem_cons_of_mem dim hd))

/-- What the check of the byte size establishes. -/
theorem validateTensorByteSize_spec (hne : tensor.metadata.shape ≠ [])
    (h : validateTensorByteSize tensor = .ok ()) :
    (∀ dim ∈ tensor.metadata.shape, 0 < dim) ∧
      ∃ size, dtypeSizeBytes tensor.metadata.dtype = .ok size ∧
        (tensor.bytes.length : ℤ) = tensor.metadata.shape.prod * size % 2 ^ 64 := by
  refine ⟨validateTensorByteSize_pos h, ?_⟩
  unfold validateTensorByteSize at h
  obtain ⟨elements, helements, h⟩ := ok_of_bind h
  have hprod := productShape_prod hne helements
  split at h
  · cases h
  · next hnonneg =>
    obtain ⟨size, hsize, h⟩ := ok_of_bind h
    refine ⟨size, hsize, ?_⟩
    dsimp only at h
    split at h
    · cases h
    · next hbytes =>
      have hmod : (elements * size) % 2 ^ 64 = tensor.metadata.shape.prod * size % 2 ^ 64 := by
        rw [Int.mul_emod, hprod, toInt64]
        exact (congrArg (· * _ % _) (Int.bmod_emod)).trans (Int.mul_emod _ _ _).symm
      rw [not_not.mp hbytes, ← hmod]
      push_cast
      rw [Int.toNat_of_nonneg (by omega)]

/-- The parts of an accepted tensor of tokens. -/
theorem validateTokenIds_parts (h : validateTokenIdsTensor tensor = .ok ()) :
    tensor.metadata.dtype = dtypeTokenIds ∧ tensor.metadata.shape.length = 2 ∧
      validateTensorByteSize tensor = .ok () := by
  unfold validateTokenIdsTensor at h
  obtain ⟨-, -, h⟩ := ok_of_bind h
  split at h
  · cases h
  · next htype =>
    split at h
    · cases h
    · next hrank => exact ⟨not_not.mp htype, not_not.mp hrank, h⟩

/-- The parts of an accepted tensor of hidden states. -/
theorem validateHiddenStates_parts {hiddenSize : ℤ} {f16 : Bool}
    (h : validateHiddenStatesTensor tensor hiddenSize f16 = .ok ()) :
    (tensor.metadata.dtype = dtypeHiddenF32 ∨ tensor.metadata.dtype = dtypeHiddenF16) ∧
      tensor.metadata.shape.length = 3 ∧ validateTensorByteSize tensor = .ok () := by
  unfold validateHiddenStatesTensor at h
  obtain ⟨-, -, h⟩ := ok_of_bind h
  dsimp only at h
  split at h
  · cases h
  · next htype =>
    split at h
    · cases h
    · next hrank =>
      split at h
      · cases h
      · refine ⟨?_, not_not.mp hrank, h⟩
        by_cases hsingle : tensor.metadata.dtype = dtypeHiddenF32
        · exact .inl hsingle
        · by_contra hnone
          exact htype ⟨hsingle, fun hhalf => hnone (.inr hhalf.2)⟩

/-- An accepted tensor passed the check of its byte size. -/
theorem Validated.byteSize (h : Validated tensor) :
    tensor.metadata.shape ≠ [] ∧ validateTensorByteSize tensor = .ok () := by
  rcases h with h | ⟨hiddenSize, f16, h⟩
  · obtain ⟨-, hrank, hsize⟩ := validateTokenIds_parts h
    exact ⟨List.ne_nil_of_length_pos (by omega), hsize⟩
  · obtain ⟨-, hrank, hsize⟩ := validateHiddenStates_parts h
    exact ⟨List.ne_nil_of_length_pos (by omega), hsize⟩

/-- Reading elements that the payload holds. -/
theorem mapM_reads {α : Type} (count : ℕ) (read : ℕ → Except Bytes α)
    (hread : ∀ i < count, ∃ value, read i = .ok value) :
    ∃ values, (List.range count).mapM read = .ok values ∧ values.length = count := by
  obtain ⟨values, hvalues, hlength⟩ := mapM_exists fun i hi => hread i (List.mem_range.mp hi)
  exact ⟨values, hvalues, hlength.trans List.length_range⟩

/-- Tokens of batch one are all read when the payload has their bytes. -/
theorem tensorToTokenIds_filled (h : validateTokenIdsTensor tensor = .ok ())
    (hbatch : tensor.metadata.shape.getD 0 0 = 1)
    (hbytes : (tensor.bytes.length : ℤ) = tensor.metadata.shape.prod * 8) :
    ∃ tokens, tensorToTokenIds tensor = .ok tokens ∧ tokens.length * 8 = tensor.bytes.length := by
  obtain ⟨-, hrank, -⟩ := validateTokenIds_parts h
  obtain ⟨batch, seq, hshape⟩ := List.length_eq_two.mp hrank
  simp only [hshape, List.getD_cons_zero] at hbatch
  simp only [hshape, List.prod_cons, List.prod_nil, hbatch, one_mul, mul_one] at hbytes
  obtain ⟨tokens, htokens, hlength⟩ := mapM_reads seq.toNat
    (fun i => readI64Le tensor.bytes (i * 8)) fun i hi => ⟨_, by rw [readI64Le, if_neg (by omega)]⟩
  refine ⟨tokens, ?_, by omega⟩
  simp only [tensorToTokenIds, h, hshape, hbatch, List.getD_cons_zero, List.getD_cons_succ, bind,
    Except.bind, ne_eq, not_true_eq_false, if_false]
  exact htokens

/-- Hidden states of batch one are all read when the payload has their bytes. -/
theorem tensorToHiddenF32_filled (h : validateHiddenStatesTensor tensor hp.hiddenSize true = .ok ())
    (hbatch : tensor.metadata.shape.getD 0 0 = 1)
    (hsize : dtypeSizeBytes tensor.metadata.dtype = .ok size)
    (hbytes : (tensor.bytes.length : ℤ) = tensor.metadata.shape.prod * size)
    (hfits : tensor.metadata.shape.prod * size < 2 ^ 64) :
    ∃ values : List F, tensorToHiddenF32 hp tensor = .ok values ∧
      values.length * size = tensor.bytes.length := by
  obtain ⟨htype, hrank, -⟩ := validateHiddenStates_parts h
  obtain ⟨batch, seq, hidden, hshape⟩ := List.length_eq_three.mp hrank
  simp only [hshape, List.getD_cons_zero] at hbatch
  simp only [hshape, List.prod_cons, List.prod_nil, hbatch, one_mul, mul_one] at hbytes hfits
  generalize hcount : seq * hidden = count at hbytes hfits
  rcases htype with htype | htype
  · obtain rfl : 4 = size := by
      rw [htype] at hsize
      exact Except.ok.inj hsize
    have hwrap : toInt64 count = count := by
      rw [toInt64, Int.bmod_eq_of_le] <;> omega
    obtain ⟨values, hvalues, hlength⟩ := mapM_reads count.toNat
      (fun i => (readF32Le tensor.bytes (i * 4) : Except Bytes F)) fun i hi =>
        ⟨_, by rw [readF32Le, if_neg (by omega)]⟩
    refine ⟨values, ?_, by omega⟩
    simp only [tensorToHiddenF32, h, hshape, hbatch, htype, List.getD_cons_zero,
      List.getD_cons_succ, bind, Except.bind, ne_eq, not_true_eq_false, if_false, if_true, one_mul,
      hcount, hwrap]
    exact hvalues
  · obtain rfl : 2 = size := by
      rw [htype] at hsize
      exact Except.ok.inj hsize
    have hwrap : toInt64 count = count := by
      rw [toInt64, Int.bmod_eq_of_le] <;> omega
    have hother : dtypeHiddenF16 ≠ dtypeHiddenF32 := by decide
    obtain ⟨values, hvalues, hlength⟩ := mapM_reads count.toNat
      (fun i => (readF16Le tensor.bytes (i * 2) : Except Bytes F)) fun i hi =>
        ⟨_, by rw [readF16Le, if_neg (by omega)]⟩
    refine ⟨values, ?_, by omega⟩
    simp only [tensorToHiddenF32, h, hshape, hbatch, htype, List.getD_cons_zero,
      List.getD_cons_succ, bind, Except.bind, ne_eq, not_true_eq_false, if_false, if_true, one_mul,
      hcount, hwrap, if_neg hother]
    exact hvalues

/-- A validated tensor has exactly the bytes of its shape, and its conversions
stay inside them, exactly when the size of the shape fits 64 bits. -/
theorem exactly_sized_iff (hp : LlamaExecutorHyperparams F) (h : Validated tensor) :
    ExactlySized hp tensor ↔ SizeFits tensor := by
  obtain ⟨hne, hchecked⟩ := h.byteSize
  obtain ⟨hpositive, size, hsize, hbytes⟩ := validateTensorByteSize_spec hne hchecked
  constructor
  · intro hexact
    obtain ⟨size', hsize', hbytes'⟩ := hexact.bytes
    exact ⟨size', hsize', by omega⟩
  · rintro ⟨size', hsize', hfits⟩
    obtain rfl : size = size' := Except.ok.inj (hsize.symm.trans hsize')
    have hprod := prod_pos hpositive
    have hnonneg : 0 ≤ tensor.metadata.shape.prod * (size : ℤ) :=
      mul_nonneg hprod.le (Int.natCast_nonneg size)
    rw [Int.emod_eq_of_lt hnonneg hfits] at hbytes
    refine ⟨hpositive, ⟨size, hsize, hbytes⟩, fun htokens hbatch => ?_, fun hhidden hbatch => ?_⟩
    · obtain ⟨htype, -, -⟩ := validateTokenIds_parts htokens
      obtain rfl : 8 = size := by
        rw [htype] at hsize
        exact Except.ok.inj hsize
      exact tensorToTokenIds_filled htokens hbatch hbytes
    · obtain ⟨values, hvalues, hlength⟩ :=
        tensorToHiddenF32_filled hhidden hbatch hsize hbytes hfits
      exact ⟨values, size, hvalues, hsize, hlength⟩

/-- No payload at all, under a shape of 2^61 tokens. -/
def wrappedTensor : TensorBuffer where
  metadata := { dtype := dtypeTokenIds, shape := [1, 2 ^ 61] }

/-- The shape passes the validation, and its tokens cannot be read. -/
theorem wrapped_shape_accepted :
    validateTokenIdsTensor wrappedTensor = .ok () ∧ ¬ExactlySized tinyHyperparams wrappedTensor := by
  refine ⟨by decide, fun hexact => ?_⟩
  obtain ⟨size, hsize, hbytes⟩ := hexact.bytes
  obtain rfl : 8 = size := Except.ok.inj hsize
  revert hbytes
  decide

/-- One token in eight bytes. -/
theorem exactly_sized_iff_one_token :
    ExactlySized tinyHyperparams (tokenTensor [7]) ↔ SizeFits (tokenTensor [7]) :=
  exactly_sized_iff tinyHyperparams (.inl (by decide))

end LayerInference.TensorSizes
