import LayerInference.CacheGrowth
import LayerInference.ExecutorLockstep
import LayerInference.SessionMachine
import LayerInference.StagePipeline

/-!
# The whole model in one process

What a deployment computes does not mention stages: the embedding rows of the
tokens go through all layers, the last row through the output matrix, and the
first index of a greatest logit is the next token. One session keeps position
and caches. The row count must be one that a stage boundary would accept,
since every deployment with a second stage has a boundary.
-/

namespace LayerInference.WholeModel

open ByteStrings FallibleRuns FlatVectors FloatArithmetic FrameProtocol TensorAbi CpuExecutor
  PartitionExecution PartialRuntime CacheGrowth ExecutorLockstep FrameTensors GenerationLoop
  StagePipeline

variable {F D G : Type} [FloatArith F] [FloatArith D] [Numerics F D G]

/-- All tensors of a model, its layers, and the attention path in use. -/
structure ModelWeights (F : Type) where
  tensors : TensorContext F
  numLayers : ℕ
  attentionBackendIsGgml : Bool

def ModelWeights.layers (w : ModelWeights F) : List ℤ :=
  (List.range w.numLayers).map fun layer : ℕ => (layer : ℤ)

abbrev ModelWeights.context (w : ModelWeights F) (hp : LlamaExecutorHyperparams F) :
    ExecutorContext F := ⟨w.tensors, hp, w.attentionBackendIsGgml⟩

/-- What a stage boundary says about a number of rows. -/
def boundaryCheck (hp : LlamaExecutorHyperparams F) (rows : ℤ) : Except Bytes Unit :=
  validateHiddenStatesTensor
    { metadata := { dtype := dtypeHiddenF32, shape := [1, rows, hp.hiddenSize],
                    byteOrder := byteOrderLittle }
      bytes := List.replicate (rows.toNat * hp.hiddenSize * 4) 0 } hp.hiddenSize true

/-- Token ids and their embedding through some first layers. -/
def beginWhole (w : ModelWeights F) (hp : LlamaExecutorHyperparams F) (layers tokens : List ℤ)
    (kvSeqBefore : ℕ) : ExecM hp (List F) := do
  let ids ← stateless (tensorToTokenIds (tokenTensor tokens))
  let seqLen := toInt32 ids.length
  let embedded ← stateless (embedTokens (w.context hp) ids seqLen)
  runLayers (w.context hp) layers embedded seqLen.toNat kvSeqBefore

/-- Some last layers, and the token behind them. -/
def finishWhole (w : ModelWeights F) (hp : LlamaExecutorHyperparams F) (layers : List ℤ)
    (hidden : List F) (rows : ℕ) (kvSeqBefore : ℕ) : ExecM hp ℕ := do
  let hidden ← runLayers (w.context hp) layers hidden rows kvSeqBefore
  let logits ← stateless (lastRowLogits (w.context hp) hidden rows true true)
  pure (greedyToken logits)

/-- The next token, greedily. -/
def executeWhole (w : ModelWeights F) (hp : LlamaExecutorHyperparams F) (tokens : List ℤ)
    (kvSeqBefore : ℕ) : ExecM hp ℕ := do
  let seqLen := toInt32 tokens.length
  stateless (boundaryCheck hp seqLen)
  let hidden ← beginWhole w hp w.layers tokens kvSeqBefore
  finishWhole w hp [] hidden seqLen.toNat kvSeqBefore

/-- A call, as far as the whole model looks at it. -/
def wholeRequest (D : Type) (call : PipelineCall) : RuntimeRequest D where
  requestId := []
  tokenIndex := call.tokenIndex
  generationMode := call.generationMode
  inputTensor := tokenTensor call.tokens
  kvCacheEnabled := true

/-- The session of a generation: the first prefill starts a new one. -/
def openWhole (hp : LlamaExecutorHyperparams F) (request : RuntimeRequest D)
    (stored : Option (LlamaRequestSession hp)) : Except Bytes (LlamaRequestSession hp) :=
  if resetsSession request then
    match checkHyperparams hp with
    | .ok () => .ok (.fresh hp 0)
    | .error message => .error message
  else
    match stored with
    | some session => .ok session
    | none => .error (ascii "no session")

variable (D) in
/-- The pipeline of a generation without any stages. -/
def wholePipeline (w : ModelWeights F) (hp : LlamaExecutorHyperparams F) :
    Pipeline (Option (LlamaRequestSession hp)) ℕ where
  call c := fun stored =>
    match openWhole hp (wholeRequest D c) stored with
    | .error message => .error message stored
    | .ok session =>
      match stepSession (wholeRequest D c) (executeWhole w hp c.tokens) session with
      | .ok answer session => .ok answer.2 (some session)
      | .error message session => .error message (some session)
  nextTokenId token := .ok token

section Lengths

omit [FloatArith F] in
/-- Reading a token tensor keeps the number of tokens. -/
theorem tensorToTokenIds_length {tokens ids : List ℤ}
    (h : tensorToTokenIds (tokenTensor tokens) = .ok ids) : ids.length = tokens.length := by
  unfold tensorToTokenIds at h
  cases hv : validateTokenIdsTensor (tokenTensor tokens) with
  | error message =>
    rw [hv] at h
    cases h
  | ok u =>
    rw [hv] at h
    simp only [bind, Except.bind] at h
    rw [if_neg (by simp [tokenTensor])] at h
    rw [length_of_mapM h, List.length_range]
    rfl

omit [FloatArith F] in
/-- The row of a weight has its width. -/
theorem tensorRowToFloat_length {tensor : GgmlTensor F} {row : ℤ} {xs : List F}
    (h : tensorRowToFloat tensor row = .ok xs) : xs.length = tensor.ne0 := by
  simp only [tensorRowToFloat] at h
  by_cases hwidth : tensor.ne0 = 0
  · rw [if_pos hwidth] at h
    cases h
  · rw [if_neg hwidth] at h
    by_cases hrow : row < 0 ∨ row ≥ (if tensor.ne1 > 0 then tensor.ne1 else 1 : ℕ)
    · rw [if_pos hrow] at h
      cases h
    · rw [if_neg hrow] at h
      exact tensor.getRow_length _ _ h

/-- Gathered rows have the width of the model. -/
theorem embedTokens_length {context : ExecutorContext F} {tokens : List ℤ} {seqLen : ℤ}
    {hidden : List F} (h : embedTokens context tokens seqLen = .ok hidden) :
    0 ≤ seqLen ∧ hidden.length = seqLen.toNat * context.hp.hiddenSize := by
  unfold embedTokens at h
  cases hrequire : requireTensor context.tensorContext (ascii "token_embd.weight") with
  | error message =>
    rw [hrequire] at h
    cases h
  | ok embedding =>
    rw [hrequire] at h
    simp only [bind, Except.bind] at h
    split at h
    · cases h
    · next hwidth =>
      split at h
      · cases h
      · split at h
        · cases h
        · next hseq =>
          refine ⟨not_lt.mp hseq, foldlM_keeps (S := fun hidden : List F =>
            hidden.length = seqLen.toNat * context.hp.hiddenSize) h List.length_replicate ?_⟩
          intro hidden hhidden t ht hidden' hstep
          cases hrow : embeddingRow context.hp embedding (tokens.getD t 0) with
          | error message =>
            rw [hrow] at hstep
            cases hstep
          | ok row =>
            rw [hrow] at hstep
            cases hstep
            have hlength : row.length = context.hp.hiddenSize := by
              unfold embeddingRow at hrow
              split at hrow
              · cases hrow
              · rw [tensorRowToFloat_length hrow, not_not.mp hwidth]
            rw [writeAt_length (by
              rw [hlength, hhidden, ← Nat.succ_mul]
              exact Nat.mul_le_mul_right _ (List.mem_range.mp ht)), hhidden]

theorem satisfies_runRow_length (context : ExecutorContext F) (layerId : ℤ)
    (attnNormWeight ffnNormWeight x : List F) (position : ℕ) :
    Satisfies (fun _ => True) (runRow context layerId attnNormWeight ffnNormWeight x position)
      (fun row _ => row.length = context.hp.hiddenSize) fun _ _ => True := by
  have hbind {α : Type} (y : ExecM context.hp α) {f : α → ExecM context.hp (List F)}
      (hf : ∀ a, Satisfies (fun _ => True) (f a)
        (fun row _ => row.length = context.hp.hiddenSize) fun _ _ => True) :
      Satisfies (fun _ => True) (y >>= f)
        (fun row _ => row.length = context.hp.hiddenSize) fun _ _ => True := by
    refine satisfies_bind (Q := fun _ _ => True) (fun s _ => ?_) hf
    cases y s <;> trivial
  unfold runRow
  dsimp only
  refine hbind _ fun xn => hbind _ fun q => hbind _ fun k => hbind _ fun v => ?_
  refine hbind _ fun rotated => hbind _ fun ctx => hbind _ fun attnOut => ?_
  refine hbind _ fun fn => hbind _ fun gate => hbind _ fun up => hbind _ fun ffn => ?_
  refine hbind _ fun down => satisfies_pure fun _ _ => ?_
  rw [List.length_map, List.length_range]

/-- Running layers keeps the number of rows. -/
theorem satisfies_runLayers_length (context : ExecutorContext F) (layers : List ℤ)
    {hidden : List F} {rows : ℕ} (n : ℕ) (hlength : hidden.length = rows * context.hp.hiddenSize) :
    Satisfies (fun _ => True) (runLayers context layers hidden rows n)
      (fun out _ => out.length = rows * context.hp.hiddenSize) fun _ _ => True := by
  have hlayer (layerId : ℤ) (input : List F) :
      Satisfies (fun _ => input.length = rows * context.hp.hiddenSize)
        (runLayer context layerId input rows n)
        (fun out _ => out.length = rows * context.hp.hiddenSize) fun _ _ => True := by
    unfold runLayer
    dsimp only
    refine satisfies_stateless_bind (fun _ _ _ _ => trivial) fun attnNorm _ => ?_
    refine satisfies_stateless_bind (fun _ _ _ _ => trivial) fun ffnNorm _ => ?_
    refine satisfies_foldlM (I := fun output _ =>
      output.length = rows * context.hp.hiddenSize) (fun output t ht s houtput => ?_) input
    have hfits : t * context.hp.hiddenSize + context.hp.hiddenSize ≤ output.length := by
      rw [houtput, ← Nat.succ_mul]
      exact Nat.mul_le_mul_right _ (List.mem_range.mp ht)
    refine satisfies_bind (satisfies_runRow_length context layerId attnNorm ffnNorm _ _)
      (fun row => ?_) s trivial
    refine satisfies_pure fun _ hrow => ?_
    rw [writeAt_length (by rw [hrow]; exact hfits), houtput]
  have hlayers : Satisfies (fun _ => hidden.length = rows * context.hp.hiddenSize)
      (layers.foldlM (fun hidden layerId => runLayer context layerId hidden rows n) hidden)
      (fun out _ => out.length = rows * context.hp.hiddenSize) fun _ _ => True :=
    satisfies_foldlM (I := fun (hidden : List F) (_ : LlamaCpuExecutor context.hp) =>
      hidden.length = rows * context.hp.hiddenSize)
      (fun input layerId _ => hlayer layerId input) hidden
  exact fun s _ => hlayers s hlength

end Lengths

section Cuts

variable {w : ModelWeights F} {hp : LlamaExecutorHyperparams F}

/-- Layers in two parts, one part after the other. -/
theorem runLayers_append (context : ExecutorContext F) (first second : List ℤ) (hidden : List F)
    (rows n : ℕ) :
    runLayers context (first ++ second) hidden rows n =
      runLayers context first hidden rows n >>= fun hidden =>
        runLayers context second hidden rows n :=
  List.foldlM_append

theorem finishWhole_append (first second : List ℤ) (hidden : List F) (rows n : ℕ) :
    finishWhole w hp (first ++ second) hidden rows n =
      runLayers (w.context hp) first hidden rows n >>= fun hidden =>
        finishWhole w hp second hidden rows n := by
  simp only [finishWhole, runLayers_append, bind_assoc]

/-- The whole model, cut between two layers. -/
theorem executeWhole_cut {first second : List ℤ} (h : first ++ second = w.layers)
    (tokens : List ℤ) (n : ℕ) :
    executeWhole w hp tokens n =
      stateless (boundaryCheck hp (toInt32 tokens.length)) >>= fun _ =>
        beginWhole w hp first tokens n >>= fun hidden =>
          finishWhole w hp second hidden (toInt32 tokens.length).toNat n := by
  have hbegin : beginWhole w hp w.layers tokens n =
      beginWhole w hp first tokens n >>= fun hidden =>
        runLayers (w.context hp) second hidden (toInt32 tokens.length).toNat n := by
    unfold beginWhole
    cases hread : tensorToTokenIds (tokenTensor tokens) with
    | error message => rfl
    | ok ids =>
      simp only [stateless_ok_bind, tensorToTokenIds_length hread, ← h, runLayers_append,
        bind_assoc]
  have hfinish (hidden : List F) : finishWhole w hp second hidden (toInt32 tokens.length).toNat n =
      runLayers (w.context hp) second hidden (toInt32 tokens.length).toNat n >>= fun hidden =>
        finishWhole w hp [] hidden (toInt32 tokens.length).toNat n := by
    rw [← finishWhole_append, List.append_nil]
  simp only [executeWhole, hbegin, hfinish, bind_assoc]

end Cuts

end LayerInference.WholeModel
