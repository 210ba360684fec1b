import LayerInference.ByteStrings
import Mathlib.Data.Int.Order.Basic

/-!
# Tensor buffers and their validation

A tensor travels as metadata and raw bytes. Both endpoints accept a buffer
only after the checks below: byte order, element type, rank, hidden size, and
the byte count computed from the shape. Dimensions are 64-bit integers, so the
element count is a product modulo 2^64 and is taken as such.
-/

namespace LayerInference.TensorAbi

open ByteStrings

/-- Element type, dimensions and byte order. -/
structure TensorMetadata where
  dtype : Bytes := []
  /-- Signed 64-bit dimensions. -/
  shape : List ℤ := []
  byteOrder : Bytes := ascii "little"
  deriving DecidableEq

/-- Metadata with the raw payload it describes. -/
structure TensorBuffer where
  metadata : TensorMetadata := {}
  bytes : Bytes := []
  deriving DecidableEq

/-- What a payload contains, judged by its element type. -/
inductive Dli2PayloadKind where
  | tokenIds
  | hiddenStates
  | empty
  deriving DecidableEq

def dtypeTokenIds : Bytes := ascii "int64"
def dtypeHiddenF32 : Bytes := ascii "float32"
def dtypeHiddenF16 : Bytes := ascii "float16"
def byteOrderLittle : Bytes := ascii "little"

/-- Conversion to a signed 64-bit integer. -/
def toInt64 (value : ℤ) : ℤ := value.bmod (2 ^ 64)

/-- Conversion to `int`. -/
def toInt32 (value : ℤ) : ℤ := value.bmod (2 ^ 32)

/-- One factor of the element count, refused unless positive. -/
def productStep (product dim : ℤ) : Except Bytes ℤ :=
  if dim ≤ 0 then .error (ascii "DLI2 tensor shape contains non-positive dimension")
  else .ok (toInt64 (product * dim))

/-- The element count of a shape in 64-bit arithmetic. -/
def productShape (shape : List ℤ) : Except Bytes ℤ :=
  if shape.isEmpty then .ok 0 else shape.foldlM productStep 1

def dtypeSizeBytes (dtype : Bytes) : Except Bytes ℕ :=
  if dtype = dtypeTokenIds then .ok 8
  else if dtype = dtypeHiddenF32 then .ok 4
  else if dtype = dtypeHiddenF16 then .ok 2
  else .error (ascii "unsupported DLI2 dtype: " ++ dtype)

/-- Compare the payload size with the one that shape and type announce. -/
def validateTensorByteSize (tensor : TensorBuffer) : Except Bytes Unit := do
  let elements ← productShape tensor.metadata.shape
  if elements < 0 then
    .error (ascii "invalid DLI2 tensor element count")
  else
    let size ← dtypeSizeBytes tensor.metadata.dtype
    let expected := elements.toNat * size % 2 ^ 64
    if tensor.bytes.length ≠ expected then
      .error (ascii "DLI2 tensor byte size mismatch: expected " ++ decimalNat expected ++
        ascii " bytes, got " ++ decimalNat tensor.bytes.length)
    else
      .ok ()

def validateLittleEndian (tensor : TensorBuffer) : Except Bytes Unit :=
  if tensor.metadata.byteOrder.isEmpty ∨ tensor.metadata.byteOrder = byteOrderLittle then .ok ()
  else .error (ascii "unsupported DLI2 tensor byte_order: " ++ tensor.metadata.byteOrder)

/-- Token ids are 64-bit integers of shape batch by sequence. -/
def validateTokenIdsTensor (tensor : TensorBuffer) : Except Bytes Unit := do
  validateLittleEndian tensor
  if tensor.metadata.dtype ≠ dtypeTokenIds then
    .error (ascii "DLI2 token ids tensor must have dtype=int64, got " ++ tensor.metadata.dtype)
  else if tensor.metadata.shape.length ≠ 2 then
    .error (ascii "DLI2 token ids tensor must have shape [batch, seq]")
  else
    validateTensorByteSize tensor

/-- Hidden states are floats of shape batch by sequence by hidden size. The
second type test of the source repeats the first and cannot fire. -/
def validateHiddenStatesTensor (tensor : TensorBuffer) (expectedHiddenSize : ℤ)
    (allowFloat16 : Bool) : Except Bytes Unit := do
  validateLittleEndian tensor
  let isF32 := tensor.metadata.dtype = dtypeHiddenF32
  let isF16 := tensor.metadata.dtype = dtypeHiddenF16
  if ¬isF32 ∧ ¬(allowFloat16 ∧ isF16) then
    .error (ascii
      "DLI2 hidden states tensor must have dtype=float32 during correctness phase")
  else if tensor.metadata.shape.length ≠ 3 then
    .error (ascii "DLI2 hidden states tensor must have shape [batch, seq, hidden_size]")
  else if expectedHiddenSize > 0 ∧ tensor.metadata.shape.getD 2 0 ≠ expectedHiddenSize then
    .error (ascii "DLI2 hidden_size mismatch: expected " ++ decimal expectedHiddenSize ++
      ascii ", got " ++ decimal (tensor.metadata.shape.getD 2 0))
  else
    validateTensorByteSize tensor

def inferDli2PayloadKind (tensor : TensorBuffer) : Except Bytes Dli2PayloadKind :=
  if tensor.bytes.isEmpty ∧ tensor.metadata.shape.isEmpty then .ok .empty
  else if tensor.metadata.dtype = dtypeTokenIds then .ok .tokenIds
  else if tensor.metadata.dtype = dtypeHiddenF32 ∨ tensor.metadata.dtype = dtypeHiddenF16 then
    .ok .hiddenStates
  else
    .error (ascii "cannot infer DLI2 payload kind for dtype: " ++ tensor.metadata.dtype)

/-- The second dimension, or zero for a lower rank. -/
def dli2SequenceLength (tensor : TensorBuffer) : ℤ :=
  if tensor.metadata.shape.length < 2 then 0 else tensor.metadata.shape.getD 1 0

/-- A shape with an element count has positive dimensions. -/
theorem productShape_pos {shape : List ℤ} {elements : ℤ} (h : productShape shape = .ok elements) :
    ∀ dim ∈ shape, 0 < dim := by
  have hfold (dims : List ℤ) (product : ℤ) (hdims : dims.foldlM productStep product = .ok elements) :
      ∀ dim ∈ dims, 0 < dim := by
    induction dims generalizing product with
    | nil => simp
    | cons d dims ih =>
      rw [List.foldlM_cons] at hdims
      unfold productStep at hdims
      split at hdims
      · cases hdims
      · next hd =>
        intro dim hdim
        rcases List.mem_cons.mp hdim with rfl | hdim
        · omega
        · exact ih _ hdims dim hdim
  unfold productShape at h
  split at h
  · next hempty =>
    rw [List.isEmpty_iff] at hempty
    simp [hempty]
  · exact hfold shape 1 h

/-- What an accepted byte size implies about the shape. -/
theorem validateTensorByteSize_pos {tensor : TensorBuffer}
    (h : validateTensorByteSize tensor = .ok ()) : ∀ dim ∈ tensor.metadata.shape, 0 < dim := by
  unfold validateTensorByteSize at h
  cases hp : productShape tensor.metadata.shape with
  | error message =>
    rw [hp] at h
    cases h
  | ok elements => exact productShape_pos hp

/-- An accepted token tensor has two positive dimensions. -/
theorem shape_of_validateTokenIds {tensor : TensorBuffer}
    (h : validateTokenIdsTensor tensor = .ok ()) :
    tensor.metadata.shape.length = 2 ∧ ∀ dim ∈ tensor.metadata.shape, 0 < dim := by
  unfold validateTokenIdsTensor at h
  cases hv : validateLittleEndian tensor with
  | error message =>
    rw [hv] at h
    cases h
  | ok u =>
    rw [hv] at h
    simp only [bind, Except.bind] at h
    split at h
    · cases h
    · split at h
      · cases h
      · next hrank => exact ⟨not_not.mp hrank, validateTensorByteSize_pos h⟩

/-- An accepted hidden state tensor has three positive dimensions. -/
theorem shape_of_validateHiddenStates {tensor : TensorBuffer} {hiddenSize : ℤ} {f16 : Bool}
    (h : validateHiddenStatesTensor tensor hiddenSize f16 = .ok ()) :
    tensor.metadata.shape.length = 3 ∧ ∀ dim ∈ tensor.metadata.shape, 0 < dim := by
  unfold validateHiddenStatesTensor at h
  cases hv : validateLittleEndian tensor with
  | error message =>
    rw [hv] at h
    cases h
  | ok u =>
    rw [hv] at h
    simp only [bind, Except.bind] at h
    split at h
    · cases h
    · split at h
      · cases h
      · next hrank =>
        split at h
        · cases h
        · exact ⟨not_not.mp hrank, validateTensorByteSize_pos h⟩

end LayerInference.TensorAbi
