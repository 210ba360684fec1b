import LayerInference.CacheGrowth
import LayerInference.FrameTensors

/-!
# Complete shards execute every frame

With the tensors of its layers in the dimensions of the model, a partition
fails on no frame of a fitting shape, whatever its caches hold. The one
failure that depends on numbers is a softmax denominator that is not positive,
which the scalar attention checks; the kernel attention has no such check.
-/

namespace LayerInference.ExecutionTotality

open ByteStrings FallibleRuns FlatVectors FloatArithmetic FrameProtocol TensorAbi CpuExecutor
  PartitionExecution CacheGrowth FrameTensors

variable {F D G : Type} [FloatArith F] [FloatArith D] [Numerics F D G]

/-- The shard holds a weight of these dimensions that the kernels can read. -/
structure HoldsTensor (tensors : TensorContext F) (name : Bytes) (ne0 ne1 : ℕ) : Prop where
  present : ∃ t, tensors name = some t ∧ t.hasData = true ∧ t.ne0 = ne0 ∧ t.ne1 = ne1 ∧
    (∀ row < ne1, ∃ xs, t.getRow row = .ok xs) ∧ ∀ x, x.length = ne0 → ∃ y, t.mulMat x = .ok y

/-- The tensors of one layer. -/
structure HoldsLayer (tensors : TensorContext F) (hp : LlamaExecutorHyperparams F) (layerId : ℤ) :
    Prop where
  attnNorm : HoldsTensor tensors (layerPrefix layerId ++ ascii "attn_norm.weight") hp.hiddenSize 1
  ffnNorm : HoldsTensor tensors (layerPrefix layerId ++ ascii "ffn_norm.weight") hp.hiddenSize 1
  attnQ : HoldsTensor tensors (layerPrefix layerId ++ ascii "attn_q.weight") hp.hiddenSize
    (hp.nHead * hp.headDim)
  attnK : HoldsTensor tensors (layerPrefix layerId ++ ascii "attn_k.weight") hp.hiddenSize
    (hp.nHeadKv * hp.headDim)
  attnV : HoldsTensor tensors (layerPrefix layerId ++ ascii "attn_v.weight") hp.hiddenSize
    (hp.nHeadKv * hp.headDim)
  attnOutput : HoldsTensor tensors (layerPrefix layerId ++ ascii "attn_output.weight")
    (hp.nHead * hp.headDim) hp.hiddenSize
  ffnGate : HoldsTensor tensors (layerPrefix layerId ++ ascii "ffn_gate.weight") hp.hiddenSize
    hp.ffnSize
  ffnUp : HoldsTensor tensors (layerPrefix layerId ++ ascii "ffn_up.weight") hp.hiddenSize
    hp.ffnSize
  ffnDown : HoldsTensor tensors (layerPrefix layerId ++ ascii "ffn_down.weight") hp.ffnSize
    hp.hiddenSize

/-- The dimensions that the constructor accepts. -/
structure GoodDims (hp : LlamaExecutorHyperparams F) : Prop where
  hiddenSize : 0 < hp.hiddenSize
  ffnSize : 0 < hp.ffnSize
  nHead : 0 < hp.nHead
  nHeadKv : 0 < hp.nHeadKv
  headDim : 0 < hp.headDim
  vocabSize : 0 < hp.vocabSize
  groups : hp.nHead % hp.nHeadKv = 0
  heads : hp.nHead * hp.headDim = hp.hiddenSize

omit [FloatArith F] in
theorem goodDims_of_check {hp : LlamaExecutorHyperparams F} (h : checkHyperparams hp = .ok ()) :
    GoodDims hp := by
  unfold checkHyperparams at h
  split at h
  · cases h
  · split at h
    · cases h
    · next hzero =>
      split at h
      · cases h
      · next hgroups =>
        split at h
        · cases h
        · next hheads =>
          simp only [not_or] at hzero
          obtain ⟨h1, h2, h3, h4, h5, h6⟩ := hzero
          exact ⟨Nat.pos_of_ne_zero h1, Nat.pos_of_ne_zero h2, Nat.pos_of_ne_zero h3,
            Nat.pos_of_ne_zero h4, Nat.pos_of_ne_zero h5, Nat.pos_of_ne_zero h6,
            not_not.mp hgroups, not_not.mp hheads⟩

/-- The sum of the shifted exponentials of some scores. -/
def softmaxDenominator (scores : List F) : F :=
  let maxScore := scores.foldl (fun best score =>
    if FloatArith.lt best score then score else best) Kernels.negInf
  (scores.map fun score => FloatArith.exp (score - maxScore)).foldl (· + ·) 0

/-- Attention cannot fail on its denominator: the kernels do not check it, and
on the scalar path it never compares as non-positive. -/
def SoftmaxSafe (context : ExecutorContext F) : Prop :=
  context.attentionBackendIsGgml = true ∨
    ∀ scores : List F, scores ≠ [] → FloatArith.le (softmaxDenominator scores) 0 = false

section Tensors

variable {tensors : TensorContext F} {name : Bytes} {ne0 ne1 : ℕ}

omit [FloatArith F] in
theorem HoldsTensor.matvec (h : HoldsTensor tensors name ne0 ne1) (hne0 : 0 < ne0) (hne1 : 0 < ne1)
    {x : List F} (hx : x.length = ne0) :
    ∃ y, CpuExecutor.matvec tensors name x = .ok y ∧ y.length = ne1 := by
  obtain ⟨t, ht, hdata, rfl, rfl, -, hmul⟩ := h.present
  obtain ⟨y, hy⟩ := hmul x hx
  refine ⟨y, ?_, t.mulMat_length x y hy⟩
  simp only [CpuExecutor.matvec, requireTensor, ht, hdata, if_true, bind, Except.bind]
  rw [if_neg (by omega), if_neg (not_not.mpr hx), hy]

omit [FloatArith F] in
theorem HoldsTensor.row (h : HoldsTensor tensors name ne0 ne1) (hne0 : 0 < ne0) :
    ∃ t, requireTensor tensors name = .ok t ∧ t.ne0 = ne0 ∧ t.ne1 = ne1 ∧
      ∀ row : ℤ, 0 ≤ row → row < ne1 → ∃ xs, tensorRowToFloat t row = .ok xs ∧ xs.length = ne0 := by
  obtain ⟨t, ht, hdata, rfl, rfl, hrow, -⟩ := h.present
  refine ⟨t, by simp only [requireTensor, ht, hdata, if_true], rfl, rfl, fun row hpos hlt => ?_⟩
  obtain ⟨xs, hxs⟩ := hrow row.toNat (by omega)
  refine ⟨xs, ?_, t.getRow_length _ xs hxs⟩
  have hcount : 0 < t.ne1 := by omega
  simp only [tensorRowToFloat, hcount, if_true]
  rw [if_neg (by omega), if_neg (by omega), hxs]

omit [FloatArith F] in
theorem HoldsTensor.vector (h : HoldsTensor tensors name ne0 1) (hne0 : 0 < ne0) :
    ∃ xs, tensorVectorToFloat tensors name ne0 = .ok xs ∧ xs.length = ne0 := by
  obtain ⟨t, ht, hwidth, -, hrow⟩ := h.row hne0
  obtain ⟨xs, hxs, hlength⟩ := hrow 0 le_rfl Int.one_pos
  refine ⟨xs, ?_, hlength⟩
  simp only [tensorVectorToFloat, ht, bind, Except.bind]
  rw [if_neg (not_not.mpr hwidth), hxs]

theorem rmsNorm_ok (hp : LlamaExecutorHyperparams F) {x weight : List F} {n : ℕ}
    (hx : x.length = n) (hweight : weight.length = n) :
    ∃ y, rmsNorm hp x weight = .ok y ∧ y.length = n := by
  unfold rmsNorm
  rw [if_neg (not_not.mpr (hx.trans hweight.symm))]
  exact ⟨_, rfl, by rw [List.length_zipWith, hx, hweight, min_self]⟩

end Tensors

section Attention

variable {context : ExecutorContext F}

theorem headContext_ok (hp : LlamaExecutorHyperparams F) (q kCache vCache : List F)
    {requiredSeq : ℕ} (qh : ℕ) (hseq : 0 < requiredSeq)
    (hsafe : ∀ scores : List F, scores ≠ [] → FloatArith.le (softmaxDenominator scores) 0 = false) :
    ∃ out, headContext hp q kCache vCache requiredSeq qh = .ok out ∧ out.length = hp.headDim := by
  unfold headContext
  dsimp only
  rw [if_neg]
  · exact ⟨_, rfl, by rw [List.length_map, List.length_range]⟩
  · rw [Bool.not_eq_true]
    refine hsafe _ fun hnil => ?_
    rw [List.map_eq_nil_iff, List.range_eq_nil] at hnil
    omega

omit [FloatArith F] in
/-- Heads one behind the other. -/
theorem mapM_range_flatten {f : ℕ → Except Bytes (List F)} {width : ℕ}
    (hf : ∀ i, ∃ xs, f i = .ok xs ∧ xs.length = width) (n : ℕ) :
    ∃ rows, (List.range n).mapM f = .ok rows ∧ rows.flatten.length = n * width := by
  have hlist (is : List ℕ) :
      ∃ rows, is.mapM f = .ok rows ∧ rows.flatten.length = is.length * width := by
    induction is with
    | nil => exact ⟨[], rfl, by simp⟩
    | cons i is ih =>
      obtain ⟨xs, hxs, hwidth⟩ := hf i
      obtain ⟨rows, hrows, hlength⟩ := ih
      refine ⟨xs :: rows, by rw [List.mapM_cons, hxs, hrows]; rfl, ?_⟩
      rw [List.flatten_cons, List.length_append, hwidth, hlength, List.length_cons, Nat.succ_mul,
        Nat.add_comm]
  obtain ⟨rows, hrows, hlength⟩ := hlist (List.range n)
  exact ⟨rows, hrows, by rw [hlength, List.length_range]⟩

theorem returns_attention (hdims : GoodDims context.hp) (hsafe : SoftmaxSafe context)
    (layerId : ℤ) {q k v : List F} (position : ℕ)
    (hq : q.length = context.hp.nHead * context.hp.headDim)
    (hk : k.length = context.hp.nHeadKv * context.hp.headDim)
    (hv : v.length = context.hp.nHeadKv * context.hp.headDim) :
    Returns (attention context layerId q k v position)
      fun out => out.length = context.hp.nHead * context.hp.headDim := by
  refine returns_onPart fun cache => ?_
  unfold attentionOnCache
  dsimp only
  rw [if_neg (not_not.mpr hq), if_neg (by simp [hk, hv])]
  cases hbackend : context.attentionBackendIsGgml with
  | true =>
    refine ⟨_, _, rfl, ?_⟩
    have hgroups : context.hp.nHeadKv * (context.hp.nHead / context.hp.nHeadKv) =
        context.hp.nHead := Nat.mul_div_cancel' (Nat.dvd_of_mod_eq_zero hdims.groups)
    unfold computeAttentionGgmlViews
    dsimp only
    rw [flatMap_length_mul fun kvh => flatMap_length_mul (fun g => by
      rw [List.length_map, List.length_range]) _, List.length_range, List.length_range,
      ← Nat.mul_assoc, hgroups]
  | false =>
    have hscalar := hsafe.resolve_left (by rw [hbackend]; exact Bool.false_ne_true)
    let stored := cache.store (context.hp.nHeadKv * context.hp.headDim) position k v
    obtain ⟨rows, hrows, hlength⟩ := mapM_range_flatten
      (fun qh => headContext_ok context.hp q stored.k stored.v qh (Nat.succ_pos position) hscalar)
      context.hp.nHead
    refine ⟨rows.flatten, stored, ?_, hlength⟩
    simp only [Bool.false_eq_true, if_false]
    rw [computeAttentionScalar, hrows]
    rfl

end Attention

section Layers

variable {context : ExecutorContext F}

theorem returns_applyRope {hp : LlamaExecutorHyperparams F} (q k : List F) (position : ℕ) :
    Returns (applyRope q k position : ExecM hp _)
      fun rotated => rotated.1.length = q.length ∧ rotated.2.length = k.length :=
  fun _ => ⟨_, _, rfl, rotate_length _ _ _ _ _, rotate_length _ _ _ _ _⟩

theorem returns_runRow (hdims : GoodDims context.hp) (hsafe : SoftmaxSafe context) {layerId : ℤ}
    (hlayer : HoldsLayer context.tensorContext context.hp layerId)
    {attnNormWeight ffnNormWeight x : List F} (position : ℕ)
    (hattn : attnNormWeight.length = context.hp.hiddenSize)
    (hffn : ffnNormWeight.length = context.hp.hiddenSize) (hx : x.length = context.hp.hiddenSize) :
    Returns (runRow context layerId attnNormWeight ffnNormWeight x position)
      fun row => row.length = context.hp.hiddenSize := by
  have hqDim : 0 < context.hp.nHead * context.hp.headDim := Nat.mul_pos hdims.nHead hdims.headDim
  have hkvDim : 0 < context.hp.nHeadKv * context.hp.headDim :=
    Nat.mul_pos hdims.nHeadKv hdims.headDim
  unfold runRow
  dsimp only
  obtain ⟨xn, hxn, hxnLength⟩ := rmsNorm_ok context.hp hx hattn
  obtain ⟨q, hq, hqLength⟩ := hlayer.attnQ.matvec hdims.hiddenSize hqDim hxnLength
  obtain ⟨k, hk, hkLength⟩ := hlayer.attnK.matvec hdims.hiddenSize hkvDim hxnLength
  obtain ⟨v, hv, hvLength⟩ := hlayer.attnV.matvec hdims.hiddenSize hkvDim hxnLength
  refine returns_stateless_bind hxn ?_
  refine returns_stateless_bind hq ?_
  refine returns_stateless_bind hk ?_
  refine returns_stateless_bind hv ?_
  refine returns_bind (returns_applyRope q k position) fun rotated hrotated => ?_
  refine returns_bind (returns_attention hdims hsafe layerId position
    (hrotated.1.trans hqLength) (hrotated.2.trans hkLength) hvLength) fun ctx hctx => ?_
  obtain ⟨attnOut, hattnOut, -⟩ := hlayer.attnOutput.matvec hqDim hdims.hiddenSize hctx
  refine returns_stateless_bind hattnOut ?_
  have hresidual (xs ys : List F) : ((List.range context.hp.hiddenSize).map fun i =>
      xs.getD i 0 + ys.getD i 0).length = context.hp.hiddenSize := by
    rw [List.length_map, List.length_range]
  obtain ⟨fn, hfn, hfnLength⟩ := rmsNorm_ok context.hp (hresidual x attnOut) hffn
  obtain ⟨gate, hgate, hgateLength⟩ := hlayer.ffnGate.matvec hdims.hiddenSize hdims.ffnSize hfnLength
  obtain ⟨up, hup, hupLength⟩ := hlayer.ffnUp.matvec hdims.hiddenSize hdims.ffnSize hfnLength
  refine returns_stateless_bind hfn ?_
  refine returns_stateless_bind hgate ?_
  refine returns_stateless_bind hup ?_
  have hintermediate : ((List.range context.hp.ffnSize).map fun i =>
      silu (gate.getD i 0) * up.getD i 0).length = context.hp.ffnSize := by
    rw [List.length_map, List.length_range]
  obtain ⟨down, hdown, -⟩ := hlayer.ffnDown.matvec hdims.ffnSize hdims.hiddenSize hintermediate
  refine returns_stateless_bind (if_neg (by simp [hgateLength, hupLength])) ?_
  refine returns_stateless_bind hdown ?_
  exact returns_pure (hresidual _ down)

/-- A layer maps rows to rows. -/
theorem returns_runLayer (hdims : GoodDims context.hp) (hsafe : SoftmaxSafe context) {layerId : ℤ}
    (hlayer : HoldsLayer context.tensorContext context.hp layerId) {input : List F} {rows : ℕ}
    (n : ℕ) (hinput : input.length = rows * context.hp.hiddenSize) :
    Returns (runLayer context layerId input rows n)
      fun out => out.length = rows * context.hp.hiddenSize := by
  obtain ⟨attnNorm, hattn, hattnLength⟩ := hlayer.attnNorm.vector hdims.hiddenSize
  obtain ⟨ffnNorm, hffn, hffnLength⟩ := hlayer.ffnNorm.vector hdims.hiddenSize
  unfold runLayer
  dsimp only
  refine returns_stateless_bind hattn ?_
  refine returns_stateless_bind hffn ?_
  refine returns_foldlM hinput fun output houtput t ht => ?_
  have hfits : t * context.hp.hiddenSize + context.hp.hiddenSize ≤ output.length := by
    rw [houtput, ← Nat.succ_mul]
    exact Nat.mul_le_mul_right _ (List.mem_range.mp ht)
  refine returns_bind (returns_runRow hdims hsafe hlayer (n + t) hattnLength hffnLength
    (slice_length hfits)) fun row hrow => returns_pure ?_
  rw [writeAt_length (by rw [hrow]; exact hfits), houtput]

theorem returns_runLayers (hdims : GoodDims context.hp) (hsafe : SoftmaxSafe context)
    {layers : List ℤ} (hlayers : ∀ l ∈ layers, HoldsLayer context.tensorContext context.hp l)
    {hidden : List F} {rows : ℕ} (n : ℕ) (hhidden : hidden.length = rows * context.hp.hiddenSize) :
    Returns (runLayers context layers hidden rows n)
      fun out => out.length = rows * context.hp.hiddenSize :=
  returns_foldlM hhidden fun _ hb l hl => returns_runLayer hdims hsafe (hlayers l hl) n hb

end Layers

/-- Frames with this many rows are within the limits of the transport. -/
structure Fits (hp : LlamaExecutorHyperparams F) (rows : ℕ) : Prop where
  nonempty : 0 < rows
  tokens : rows * 8 ≤ dli2MaxTensorBytes
  hidden : rows * hp.hiddenSize * 4 ≤ dli2MaxTensorBytes

/-- A token of the vocabulary. -/
def InVocab (hp : LlamaExecutorHyperparams F) (token : ℤ) : Prop := 0 ≤ token ∧ token < hp.vocabSize

section Roles

variable {context : ExecutorContext F}

omit [FloatArith F] in
theorem getD_mem_or {tokens : List ℤ} {t : ℕ} (ht : t < tokens.length) :
    tokens.getD t 0 ∈ tokens := by
  rw [List.getD_eq_getElem _ _ ht]
  exact List.getElem_mem ht

theorem embedTokens_ok (hdims : GoodDims context.hp)
    (hembedding : HoldsTensor context.tensorContext (ascii "token_embd.weight")
      context.hp.hiddenSize context.hp.vocabSize) {tokens : List ℤ}
    (htokens : ∀ t ∈ tokens, InVocab context.hp t) (hfits : tokens.length * 8 ≤ dli2MaxTensorBytes) :
    ∃ hidden, embedTokens context tokens (toInt32 tokens.length) = .ok hidden ∧
      hidden.length = tokens.length * context.hp.hiddenSize := by
  obtain ⟨embedding, hrequire, hne0, hne1, hrow⟩ := hembedding.row hdims.hiddenSize
  rw [toInt32_of_fits hfits]
  simp only [embedTokens, hrequire, bind, Except.bind, Int.toNat_natCast]
  rw [if_neg (not_not.mpr hne0), if_neg (not_not.mpr hne1), if_neg (by omega)]
  refine foldlM_exists (by rw [List.length_replicate]) fun hidden hhidden t ht => ?_
  have hlt := List.mem_range.mp ht
  obtain ⟨hpos, hvocab⟩ := htokens _ (getD_mem_or hlt)
  obtain ⟨row, hget, hlength⟩ := hrow (tokens.getD t 0) hpos hvocab
  have hembed : embeddingRow context.hp embedding (tokens.getD t 0) = .ok row := by
    rw [embeddingRow, if_neg (by omega), hget]
  refine ⟨_, by simp only [hembed]; rfl, ?_⟩
  rw [writeAt_length (by
    rw [hlength, hhidden, ← Nat.succ_mul]
    exact Nat.mul_le_mul_right _ hlt), hhidden]

/-- A source maps tokens of the vocabulary to hidden rows. -/
theorem returns_executeSource (hdims : GoodDims context.hp) (hsafe : SoftmaxSafe context)
    {layers : List ℤ} (hlayers : ∀ l ∈ layers, HoldsLayer context.tensorContext context.hp l)
    (hembedding : HoldsTensor context.tensorContext (ascii "token_embd.weight")
      context.hp.hiddenSize context.hp.vocabSize) (hvocab : context.hp.vocabSize < 2 ^ 31)
    {tokens : List ℤ} (htokens : ∀ t ∈ tokens, InVocab context.hp t)
    (hfits : Fits context.hp tokens.length) (n : ℕ) (precision : Bytes) :
    Returns (executeSource context (tokenTensor tokens) layers n precision)
      (HiddenRows context.hp tokens.length) := by
  obtain ⟨-, hread⟩ := tensorToTokenIds_tokenTensor hfits.nonempty hfits.tokens fun t ht => by
    obtain ⟨hpos, hlt⟩ := htokens t ht
    constructor <;> omega
  obtain ⟨hidden, hembed, hlength⟩ := embedTokens_ok hdims hembedding htokens hfits.tokens
  refine returns_stateless_bind hread ?_
  dsimp only
  refine returns_stateless_bind hembed ?_
  rw [toInt32_of_fits hfits.tokens, Int.toNat_natCast]
  exact returns_bind (returns_runLayers hdims hsafe hlayers n hlength)
    fun out hout => returns_pure (hiddenRows_floatHiddenToTensor hout precision)

theorem returns_executeIntermediate (hdims : GoodDims context.hp) (hsafe : SoftmaxSafe context)
    {layers : List ℤ} (hlayers : ∀ l ∈ layers, HoldsLayer context.tensorContext context.hp l)
    {tensor : TensorBuffer} {rows : ℕ} (htensor : HiddenRows context.hp rows tensor)
    (hfits : Fits context.hp rows) (n : ℕ) (precision : Bytes) :
    Returns (executeIntermediate context tensor layers n precision)
      (HiddenRows context.hp rows) := by
  obtain ⟨hidden, hread, hlength⟩ :=
    htensor.accepted hfits.nonempty hdims.hiddenSize (size_of_fits hfits.hidden)
  unfold executeIntermediate
  rw [htensor.shape, List.getD_cons_succ, List.getD_cons_zero]
  dsimp only
  refine returns_stateless_bind hread ?_
  rw [toInt32_of_fits hfits.tokens, Int.toNat_natCast]
  exact returns_bind (returns_runLayers hdims hsafe hlayers n hlength)
    fun out hout => returns_pure (hiddenRows_floatHiddenToTensor hout precision)

/-- The chosen index is one of the logits. -/
theorem greedyToken_lt {logits : List F} (hne : logits ≠ []) :
    greedyToken logits < logits.length := by
  have hfold (items : List (F × ℕ)) (hitems : ∀ item ∈ items, item.2 < logits.length)
      (best : ℕ × F) (hbest : best.1 < logits.length) :
      (items.foldl (fun (best : ℕ × F) item =>
        if FloatArith.lt best.2 item.1 then (item.2, item.1) else best) best).1 <
          logits.length := by
    induction items generalizing best with
    | nil => exact hbest
    | cons item items ih =>
      rw [List.foldl_cons]
      refine ih (fun i hi => hitems i (List.mem_cons_of_mem item hi)) _ ?_
      split
      · exact hitems item List.mem_cons_self
      · exact hbest
  refine hfold _ (fun item hitem => ?_) _ (List.length_pos_iff.mpr hne)
  have hmem := List.mem_zipIdx (List.mem_of_mem_drop hitem)
  omega

/-- Every candidate of the distribution is one of the logits. -/
theorem samplingDistribution_lt (logits : List F) (sampling : LlamaSamplingParams F) :
    ∀ c ∈ (samplingDistribution logits sampling : List (ℕ × D)), c.1 < logits.length := by
  let sorted := Numerics.sortByLogit
    (logits.zipIdx.map fun item => (item.2, item.1 * (1 / sampling.temperature)))
  have hsorted : ∀ c ∈ sorted, c.1 < logits.length := by
    intro c hc
    obtain ⟨item, hitem, rfl⟩ := List.mem_map.mp ((Numerics.sortByLogit_perm _).mem_iff.mp hc)
    have hmem := List.mem_zipIdx hitem
    dsimp only
    omega
  have hkept (candidates : List (ℕ × F)) (hc : ∀ c ∈ candidates, c.1 < logits.length)
      (probs : List D) : ∀ c ∈ (candidates.map Prod.fst).zip probs, c.1 < logits.length := by
    intro c hmem
    obtain ⟨candidate, hcandidate, heq⟩ := List.mem_map.mp (List.of_mem_zip hmem).1
    rw [← heq]
    exact hc candidate hcandidate
  intro c hc
  unfold samplingDistribution at hc
  dsimp only at hc
  split at hc
  · have hc := List.mem_of_mem_take hc
    refine hkept _ (fun c hc => ?_) _ c hc
    split at hc
    · exact hsorted c (List.mem_of_mem_take hc)
    · exact hsorted c hc
  · refine hkept _ (fun c hc => ?_) _ c hc
    split at hc
    · exact hsorted c (List.mem_of_mem_take hc)
    · exact hsorted c hc

theorem pickCandidate_mem {draw : D} {candidates : List (ℕ × D)} {cumulative : D} {token : ℕ}
    (h : pickCandidate draw candidates cumulative = some token) :
    ∃ c ∈ candidates, c.1 = token := by
  induction candidates generalizing cumulative with
  | nil => cases h
  | cons candidate rest ih =>
    obtain ⟨t, p⟩ := candidate
    unfold pickCandidate at h
    split at h
    · cases h
      exact ⟨_, List.mem_cons_self, rfl⟩
    · obtain ⟨c, hc, hfst⟩ := ih h
      exact ⟨c, List.mem_cons_of_mem _ hc, hfst⟩

/-- The picked token is one of the logits, by either method. -/
theorem returns_sampleFromLogits {hp : LlamaExecutorHyperparams F} {logits : List F}
    (hne : logits ≠ []) (sampling : LlamaSamplingParams F) :
    Returns (sampleFromLogits logits sampling : ExecM hp ℕ) (· < logits.length) := by
  intro s
  unfold sampleFromLogits
  split
  · exact ⟨_, _, rfl, greedyToken_lt hne⟩
  · refine ⟨_, _, rfl, ?_⟩
    generalize hdistribution : (samplingDistribution logits sampling : List (ℕ × D)) = distribution
    have hbelow := samplingDistribution_lt (D := D) logits sampling
    rw [hdistribution] at hbelow
    change (pickCandidate (Numerics.uniform F s.rng).1 distribution 0).getD _ < _
    cases hpick : pickCandidate (Numerics.uniform F s.rng).1 distribution 0 with
    | some token =>
      obtain ⟨c, hc, rfl⟩ := pickCandidate_mem hpick
      exact hbelow c hc
    | none =>
      cases distribution with
      | nil => exact List.length_pos_iff.mpr hne
      | cons c rest => exact hbelow c List.mem_cons_self

theorem lastRowLogits_ok (hdims : GoodDims context.hp)
    (hnorm : HoldsTensor context.tensorContext (ascii "output_norm.weight") context.hp.hiddenSize 1)
    (houtput : HoldsTensor context.tensorContext (ascii "output.weight") context.hp.hiddenSize
      context.hp.vocabSize) {hidden : List F} {rows : ℕ} (hrows : 0 < rows)
    (hlength : hidden.length = rows * context.hp.hiddenSize) :
    ∃ logits, lastRowLogits context hidden rows true true = .ok logits ∧
      logits.length = context.hp.vocabSize := by
  obtain ⟨weight, hweight, hweightLength⟩ := hnorm.vector hdims.hiddenSize
  have hoffset : (((rows : ℤ) - 1) * context.hp.hiddenSize).toNat =
      (rows - 1) * context.hp.hiddenSize := by
    rw [← Nat.cast_one, ← Nat.cast_sub hrows, ← Nat.cast_mul, Int.toNat_natCast]
  have hslice : (slice hidden ((rows - 1) * context.hp.hiddenSize)
      context.hp.hiddenSize).length = context.hp.hiddenSize := by
    refine slice_length ?_
    rw [hlength, ← Nat.succ_mul]
    exact Nat.mul_le_mul_right _ (by omega)
  obtain ⟨normed, hnormed, hnormedLength⟩ := rmsNorm_ok context.hp hslice hweightLength
  obtain ⟨logits, hlogits, hlogitsLength⟩ :=
    houtput.matvec hdims.hiddenSize hdims.vocabSize hnormedLength
  refine ⟨logits, ?_, hlogitsLength⟩
  have hnonempty : logits.isEmpty = false := by
    rw [List.isEmpty_eq_false_iff, ← List.length_pos_iff, hlogitsLength]
    exact hdims.vocabSize
  simp only [lastRowLogits, Bool.not_true, Bool.false_eq_true, if_false, hweight, hoffset, hnormed,
    hlogits, hnonempty, bind, Except.bind]

/-- A terminal partition maps hidden rows to a token of the vocabulary. -/
theorem returns_executeTerminal (hdims : GoodDims context.hp) (hsafe : SoftmaxSafe context)
    {layers : List ℤ} (hlayers : ∀ l ∈ layers, HoldsLayer context.tensorContext context.hp l)
    (hnorm : HoldsTensor context.tensorContext (ascii "output_norm.weight") context.hp.hiddenSize 1)
    (houtput : HoldsTensor context.tensorContext (ascii "output.weight") context.hp.hiddenSize
      context.hp.vocabSize) {tensor : TensorBuffer} {rows : ℕ}
    (htensor : HiddenRows context.hp rows tensor) (hfits : Fits context.hp rows) (n : ℕ)
    (sampling : LlamaSamplingParams F) (entropy : UInt32) :
    Returns (executeTerminal context tensor layers n true true sampling entropy)
      (· < context.hp.vocabSize) := by
  obtain ⟨hidden, hread, hlength⟩ :=
    htensor.accepted hfits.nonempty hdims.hiddenSize (size_of_fits hfits.hidden)
  have hreseed : Returns (reseed sampling n entropy : ExecM context.hp Unit) fun _ => True := by
    intro s
    unfold reseed
    split <;> exact ⟨_, _, rfl, trivial⟩
  unfold executeTerminal
  refine returns_bind hreseed fun _ _ => ?_
  rw [htensor.shape, List.getD_cons_succ, List.getD_cons_zero]
  dsimp only
  refine returns_stateless_bind hread ?_
  rw [toInt32_of_fits hfits.tokens, Int.toNat_natCast]
  refine returns_bind (returns_runLayers hdims hsafe hlayers n hlength) fun out hout => ?_
  obtain ⟨logits, hlogits, hlogitsLength⟩ :=
    lastRowLogits_ok hdims hnorm houtput hfits.nonempty hout
  refine returns_stateless_bind hlogits ?_
  have hne : logits ≠ [] := by
    rw [← List.length_pos_iff, hlogitsLength]
    exact hdims.vocabSize
  rw [← hlogitsLength]
  exact returns_sampleFromLogits hne sampling

end Roles

end LayerInference.ExecutionTotality
