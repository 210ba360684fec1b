import LayerInference.PartitionExecution

/-!
# Tensors that cross a stage boundary

What one side writes into a frame the other side reads back. Token ids come
back as they were. Hidden states in single precision come back as they were
whenever the frame is accepted, and whether it is accepted depends on the
number of rows only. At half precision the rows come back rounded.
-/

namespace LayerInference.FrameTensors

open ByteStrings FallibleRuns FlatVectors FloatArithmetic FrameProtocol TensorAbi CpuExecutor
  PartitionExecution

variable {F D G : Type} [FloatArith F] [FloatArith D] [Numerics F D G]

/-- The bytes of 64-bit tokens. -/
def int64TokensToBytes (tokens : List ℤ) : Bytes :=
  tokens.flatMap fun token => wordBytes 8 (token % 2 ^ 64).toNat

/-- Token ids of one sequence. -/
def tokenTensor (tokens : List ℤ) : TensorBuffer where
  metadata := { dtype := dtypeTokenIds, shape := [1, (tokens.length : ℤ)] }
  bytes := int64TokensToBytes tokens

/-- A request for half precision. -/
def IsHalf (precision : Bytes) : Prop := precision = ascii "fp16" ∨ precision = ascii "float16"

instance (precision : Bytes) : Decidable (IsHalf precision) := inferInstanceAs (Decidable (_ ∨ _))

theorem toInt64_of_lt {value : ℕ} (h : value < 2 ^ 63) : toInt64 value = value := by
  rw [toInt64, Int.bmod_eq_of_le] <;> omega

theorem productStep_of_pos (product : ℤ) {dim : ℕ} (h : 0 < dim) :
    productStep product dim = .ok (toInt64 (product * dim)) := by
  rw [productStep, if_neg (by omega)]

theorem productStep_one : productStep 1 1 = .ok 1 := by decide

/-- A row count that fits a frame survives the conversion to `int`. -/
theorem toInt32_of_fits {rows : ℕ} (h : rows * 8 ≤ dli2MaxTensorBytes) : toInt32 rows = rows := by
  simp only [dli2MaxTensorBytes] at h
  rw [toInt32, Int.bmod_eq_of_le] <;> omega

/-- The element count of positive dimensions behind a batch of one. -/
theorem productShape_two {rows : ℕ} (hrows : 0 < rows) :
    productShape [1, (rows : ℤ)] = .ok (toInt64 rows) := by
  simp only [productShape, List.isEmpty_cons, Bool.false_eq_true, if_false, List.foldlM_cons,
    List.foldlM_nil, productStep_one, productStep_of_pos _ hrows, one_mul, bind, Except.bind, pure,
    Except.pure]

theorem productShape_three {rows width : ℕ} (hrows : 0 < rows) (hwidth : 0 < width) :
    productShape [1, (rows : ℤ), (width : ℤ)] = .ok (toInt64 (rows * width)) := by
  have hmul : toInt64 (toInt64 rows * width) = toInt64 (rows * width) := Int.bmod_mul_bmod
  simp only [productShape, List.isEmpty_cons, Bool.false_eq_true, if_false, List.foldlM_cons,
    List.foldlM_nil, productStep_one, productStep_of_pos _ hrows, productStep_of_pos _ hwidth,
    one_mul, hmul, bind, Except.bind, pure, Except.pure]

section Tokens

theorem int64TokensToBytes_length (tokens : List ℤ) :
    (int64TokensToBytes tokens).length = tokens.length * 8 :=
  flatMap_length_mul (fun _ => wordBytes_length _ _) tokens

/-- Reading back one token. -/
theorem readI64Le_token {tokens : List ℤ} {i : ℕ} (hi : i < tokens.length)
    (hrange : -2 ^ 63 ≤ tokens[i] ∧ tokens[i] < 2 ^ 63) :
    readI64Le (int64TokensToBytes tokens) (i * 8) = .ok tokens[i] := by
  have hlength := int64TokensToBytes_length tokens
  have hdrop : (int64TokensToBytes tokens).drop (i * 8) =
      wordBytes 8 (tokens[i] % 2 ^ 64).toNat ++ int64TokensToBytes (tokens.drop (i + 1)) := by
    rw [int64TokensToBytes, flatMap_drop_mul fun _ => wordBytes_length _ _,
      List.drop_eq_getElem_cons hi, List.flatMap_cons]
    rfl
  have hword : (tokens[i] % 2 ^ 64).toNat < 256 ^ 8 := by omega
  rw [readI64Le, if_neg (by omega), hdrop]
  refine congrArg Except.ok ?_
  rw [readU64Le_toNat (by rw [List.length_append, wordBytes_length]; omega),
    List.take_left' (wordBytes_length _ _), bytesWord_wordBytes hword, toInt64,
    Int.toNat_of_nonneg (by omega)]
  rw [show ((2 : ℤ) ^ 64) = ((2 ^ 64 : ℕ) : ℤ) by norm_num, Int.emod_bmod, Int.bmod_eq_of_le] <;>
    omega

/-- A prompt that fits a frame is accepted and read back. -/
theorem tensorToTokenIds_tokenTensor {tokens : List ℤ} (hne : 0 < tokens.length)
    (hfits : tokens.length * 8 ≤ dli2MaxTensorBytes)
    (hrange : ∀ token ∈ tokens, -2 ^ 63 ≤ token ∧ token < 2 ^ 63) :
    validateTokenIdsTensor (tokenTensor tokens) = .ok () ∧
      tensorToTokenIds (tokenTensor tokens) = .ok tokens := by
  have hcount : tokens.length * 8 < 2 ^ 64 := lt_of_le_of_lt hfits (by decide)
  have hvalid : validateTokenIdsTensor (tokenTensor tokens) = .ok () := by
    have hsize : validateTensorByteSize (tokenTensor tokens) = .ok () := by
      simp only [validateTensorByteSize, tokenTensor, productShape_two hne,
        toInt64_of_lt (show tokens.length < 2 ^ 63 by omega), dtypeSizeBytes, if_true, bind,
        Except.bind, int64TokensToBytes_length, Int.toNat_natCast, Nat.mod_eq_of_lt hcount]
      rw [if_neg (by omega), if_neg (by simp)]
    simp only [validateTokenIdsTensor, validateLittleEndian, tokenTensor, byteOrderLittle, or_true,
      if_true, bind, Except.bind, ne_eq, not_true_eq_false, if_false, List.length_cons,
      List.length_nil]
    exact hsize
  refine ⟨hvalid, ?_⟩
  simp only [tensorToTokenIds, hvalid, bind, Except.bind]
  rw [if_neg (by simp [tokenTensor])]
  have hmap := mapM_ok (l := List.range tokens.length)
    (f := fun i => readI64Le (int64TokensToBytes tokens) (i * 8)) (g := fun i => tokens.getD i 0)
    fun i hi => by
      have hlt := List.mem_range.mp hi
      rw [readI64Le_token hlt (hrange _ (List.getElem_mem hlt)), List.getD_eq_getElem _ _ hlt]
  rw [range_map_getD] at hmap
  exact hmap

end Tokens

section Hidden

variable {hp : LlamaExecutorHyperparams F} {hidden : List F} {rows : ℕ} {precision : Bytes}

@[simp] theorem writeF32Le_length (value : F) : (writeF32Le value).length = 4 := by
  rw [writeF32Le, appendU32Le_eq, List.nil_append, wordBytes_length]

@[simp] theorem writeF16Le_length (value : F) : (writeF16Le value).length = 2 := rfl

/-- Whether hidden states are accepted depends on metadata and size. -/
theorem validateHiddenStatesTensor_congr {tensor tensor' : TensorBuffer}
    (hmetadata : tensor.metadata = tensor'.metadata)
    (hlength : tensor.bytes.length = tensor'.bytes.length) (size : ℤ) (f16 : Bool) :
    validateHiddenStatesTensor tensor size f16 = validateHiddenStatesTensor tensor' size f16 := by
  simp only [validateHiddenStatesTensor, validateLittleEndian, validateTensorByteSize, hmetadata,
    hlength]

/-- Reading back one float. -/
theorem readF32Le_hidden {i : ℕ} (hi : i < hidden.length) :
    readF32Le (hidden.flatMap writeF32Le) (i * 4) = .ok hidden[i] := by
  have hlength := flatMap_length_mul (f := writeF32Le) (fun x : F => writeF32Le_length x) hidden
  have hdrop : (hidden.flatMap writeF32Le).drop (i * 4) =
      writeF32Le hidden[i] ++ (hidden.drop (i + 1)).flatMap writeF32Le := by
    rw [flatMap_drop_mul fun x : F => writeF32Le_length x, List.drop_eq_getElem_cons hi,
      List.flatMap_cons]
  rw [readF32Le, if_neg (by omega), hdrop]
  refine congrArg Except.ok ?_
  have hbits : readU32Le (writeF32Le hidden[i] ++ (hidden.drop (i + 1)).flatMap writeF32Le) =
      Numerics.bits hidden[i] := by
    apply UInt32.toNat_inj.mp
    rw [readU32Le_toNat (by rw [List.length_append, writeF32Le_length]; omega),
      List.take_left' (writeF32Le_length _), writeF32Le, appendU32Le_eq, List.nil_append,
      bytesWord_wordBytes (Numerics.bits hidden[i]).toNat_lt]
  rw [hbits, Numerics.ofBits_bits]

/-- The size check of an accepted hidden state tensor. -/
theorem byteSize_of_validateHidden {tensor : TensorBuffer} {size : ℤ} {f16 : Bool}
    (h : validateHiddenStatesTensor tensor size f16 = .ok ()) :
    validateTensorByteSize tensor = .ok () := by
  unfold validateHiddenStatesTensor at h
  cases hv : validateLittleEndian tensor with
  | error message =>
    rw [hv] at h
    cases h
  | ok u =>
    rw [hv] at h
    simp only [bind, Except.bind] at h
    split at h
    · cases h
    · split at h
      · cases h
      · split at h
        · cases h
        · exact h

/-- A size that was accepted is the element count without overflow. -/
theorem count_of_byteSize {tensor : TensorBuffer} {rows width : ℕ}
    (hshape : tensor.metadata.shape = [1, (rows : ℤ), (width : ℤ)])
    (hdtype : tensor.metadata.dtype = dtypeHiddenF32)
    (hlength : tensor.bytes.length = rows * width * 4)
    (h : validateTensorByteSize tensor = .ok ()) :
    (toInt64 (rows * width)).toNat = rows * width := by
  have hdims := validateTensorByteSize_pos h
  rw [hshape] at hdims
  have hrows : 0 < rows := by simpa using hdims rows (by simp)
  have hwidth : 0 < width := by simpa using hdims width (by simp)
  have hsize : dtypeSizeBytes dtypeHiddenF32 = .ok 4 := by decide
  simp only [validateTensorByteSize, hshape, productShape_three hrows hwidth, hdtype, hsize, bind,
    Except.bind, hlength] at h
  split at h
  · cases h
  · split at h
    · cases h
    · next hne =>
      by_cases hsmall : rows * width < 2 ^ 63
      · rw [← Nat.cast_mul, toInt64_of_lt hsmall, Int.toNat_natCast]
      · have hlt := Nat.mod_lt ((toInt64 (rows * width)).toNat * 4) (show 0 < 2 ^ 64 by norm_num)
        omega

/-- Rows in single precision come back as they were, if they are accepted. -/
theorem tensorToHiddenF32_self (hp : LlamaExecutorHyperparams F) {hidden : List F} {rows : ℕ}
    {precision : Bytes} (hprecision : ¬IsHalf precision)
    (hlength : hidden.length = rows * hp.hiddenSize)
    (hvalid : validateHiddenStatesTensor (floatHiddenToTensor hp hidden 1 rows precision)
      hp.hiddenSize true = .ok ()) :
    tensorToHiddenF32 hp (floatHiddenToTensor hp hidden 1 rows precision) = .ok hidden := by
  have hdtype : (floatHiddenToTensor hp hidden 1 rows precision).metadata.dtype =
      dtypeHiddenF32 := if_neg hprecision
  have hbytes : (floatHiddenToTensor hp hidden 1 rows precision).bytes =
      hidden.flatMap writeF32Le := if_neg hprecision
  have hcount : (toInt64 (1 * rows * hp.hiddenSize)).toNat = hidden.length := by
    rw [one_mul, hlength]
    refine count_of_byteSize rfl hdtype ?_ (byteSize_of_validateHidden hvalid)
    rw [hbytes, flatMap_length_mul (fun x : F => writeF32Le_length x), hlength]
  have hmap := mapM_ok (l := List.range hidden.length)
    (f := fun i => readF32Le (hidden.flatMap writeF32Le) (i * 4)) (g := fun i => hidden.getD i 0)
    fun i hi => by
      have hlt := List.mem_range.mp hi
      rw [readF32Le_hidden hlt, List.getD_eq_getElem _ _ hlt]
  rw [range_map_getD] at hmap
  simp only [tensorToHiddenF32, hvalid, bind, Except.bind]
  rw [if_neg (by simp [floatHiddenToTensor]), if_pos hdtype, hbytes]
  rw [show (floatHiddenToTensor hp hidden 1 rows precision).metadata.shape =
    [1, (rows : ℤ), (hp.hiddenSize : ℤ)] from rfl]
  simp only [List.getD_cons_zero, List.getD_cons_succ]
  rw [hcount, hmap]

/-- The tensor of some rows at a precision. -/
structure HiddenRows (hp : LlamaExecutorHyperparams F) (rows : ℕ) (tensor : TensorBuffer) :
    Prop where
  shape : tensor.metadata.shape = [1, (rows : ℤ), (hp.hiddenSize : ℤ)]
  byteOrder : tensor.metadata.byteOrder = byteOrderLittle
  bytes : tensor.metadata.dtype = dtypeHiddenF32 ∧
      tensor.bytes.length = rows * hp.hiddenSize * 4 ∨
    tensor.metadata.dtype = dtypeHiddenF16 ∧ tensor.bytes.length = rows * hp.hiddenSize * 2

theorem hiddenRows_floatHiddenToTensor (hlength : hidden.length = rows * hp.hiddenSize)
    (precision : Bytes) : HiddenRows hp rows (floatHiddenToTensor hp hidden 1 rows precision) := by
  refine ⟨rfl, rfl, ?_⟩
  by_cases hhalf : IsHalf precision
  · refine .inr ⟨if_pos hhalf, ?_⟩
    have hbytes : (floatHiddenToTensor hp hidden 1 rows precision).bytes =
        hidden.flatMap writeF16Le := if_pos hhalf
    rw [hbytes, flatMap_length_mul (fun x : F => writeF16Le_length x), hlength]
  · refine .inl ⟨if_neg hhalf, ?_⟩
    have hbytes : (floatHiddenToTensor hp hidden 1 rows precision).bytes =
        hidden.flatMap writeF32Le := if_neg hhalf
    rw [hbytes, flatMap_length_mul (fun x : F => writeF32Le_length x), hlength]

theorem count_of_lt {width : ℕ} (hsize : rows * width * 4 < 2 ^ 63) :
    toInt64 (rows * width) = ((rows * width : ℕ) : ℤ) := by
  rw [← Nat.cast_mul, toInt64_of_lt (by omega)]

theorem size_of_fits {width : ℕ} (hfits : rows * width * 4 ≤ dli2MaxTensorBytes) :
    rows * width * 4 < 2 ^ 63 := lt_of_le_of_lt hfits (by norm_num [dli2MaxTensorBytes])

omit [FloatArith F] in
/-- Rows that fit the memory are accepted, at either precision. -/
theorem HiddenRows.valid {tensor : TensorBuffer} (h : HiddenRows hp rows tensor)
    (hrows : 0 < rows) (hwidth : 0 < hp.hiddenSize)
    (hbound : rows * hp.hiddenSize * 4 < 2 ^ 63) :
    validateHiddenStatesTensor tensor hp.hiddenSize true = .ok () := by
  have hsize : validateTensorByteSize tensor = .ok () := by
    have hproduct := productShape_three hrows hwidth
    have hf32 : dtypeSizeBytes dtypeHiddenF32 = .ok 4 := by decide
    have hf16 : dtypeSizeBytes dtypeHiddenF16 = .ok 2 := by decide
    rcases h.bytes with ⟨hdtype, hlength⟩ | ⟨hdtype, hlength⟩
    · simp only [validateTensorByteSize, h.shape, hproduct, count_of_lt hbound, hdtype, hf32,
        hlength, bind, Except.bind, Int.toNat_natCast]
      rw [if_neg (by omega), if_neg (by omega)]
    · simp only [validateTensorByteSize, h.shape, hproduct, count_of_lt hbound, hdtype, hf16,
        hlength, bind, Except.bind, Int.toNat_natCast]
      rw [if_neg (by omega), if_neg (by omega)]
  have hdtype : tensor.metadata.dtype = dtypeHiddenF32 ∨
      tensor.metadata.dtype = dtypeHiddenF16 := h.bytes.imp And.left And.left
  simp only [validateHiddenStatesTensor, validateLittleEndian, h.byteOrder, or_true, if_true,
    bind, Except.bind, h.shape, List.length_cons, List.length_nil, List.getD_cons_succ,
    List.getD_cons_zero]
  rw [if_neg fun hnot => hdtype.elim hnot.1 fun h16 => hnot.2 ⟨trivial, h16⟩, if_neg (by simp),
    if_neg (by simp)]
  exact hsize

/-- Rows that fit the memory are read, at either precision. -/
theorem HiddenRows.accepted {tensor : TensorBuffer} (h : HiddenRows hp rows tensor)
    (hrows : 0 < rows) (hwidth : 0 < hp.hiddenSize)
    (hbound : rows * hp.hiddenSize * 4 < 2 ^ 63) :
    ∃ hidden, tensorToHiddenF32 hp tensor = .ok hidden ∧
      hidden.length = rows * hp.hiddenSize := by
  have htoNat : (toInt64 (1 * rows * hp.hiddenSize)).toNat = rows * hp.hiddenSize := by
    rw [one_mul, count_of_lt hbound, Int.toNat_natCast]
  simp only [tensorToHiddenF32, h.valid hrows hwidth hbound, bind, Except.bind, h.shape,
    List.getD_cons_zero, List.getD_cons_succ, htoNat, ne_eq, not_true_eq_false, if_false]
  rcases h.bytes with ⟨hf32, hlength⟩ | ⟨hf16, hlength⟩
  · rw [if_pos hf32]
    obtain ⟨hidden, hhidden, hl⟩ := mapM_exists (l := List.range (rows * hp.hiddenSize))
      (f := fun i => (readF32Le tensor.bytes (i * 4) : Except Bytes F)) fun i hi => by
        have hlt := List.mem_range.mp hi
        exact ⟨_, if_neg (by omega)⟩
    exact ⟨hidden, hhidden, by rw [hl, List.length_range]⟩
  · rw [if_neg (by rw [hf16]; decide), if_pos hf16]
    obtain ⟨hidden, hhidden, hl⟩ := mapM_exists (l := List.range (rows * hp.hiddenSize))
      (f := fun i => (readF16Le tensor.bytes (i * 2) : Except Bytes F)) fun i hi => by
        have hlt := List.mem_range.mp hi
        exact ⟨_, if_neg (by omega)⟩
    exact ⟨hidden, hhidden, by rw [hl, List.length_range]⟩

end Hidden

end LayerInference.FrameTensors
