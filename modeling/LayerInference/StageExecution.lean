import LayerInference.ExecutionTotality
import LayerInference.SessionMachine
import LayerInference.StagePipeline

/-!
# Stages with complete shards answer

A stage that holds the shard of its partition answers every frame of the kind
its role expects, from every session map: the embedding owner and the stages
in the middle with hidden states and no token, the owner of the output matrix
with a token of the vocabulary. Which of these a stage does is decided by its
role alone.
-/

namespace LayerInference.StageExecution

open ByteStrings FallibleRuns FloatArithmetic FrameProtocol TensorAbi CpuExecutor
  PartitionExecution PartialRuntime SessionMachine PartitionRouting StagePipeline FrameTensors
  ExecutionTotality

variable {F D G : Type} [FloatArith F] [FloatArith D] [Numerics F D G]

/-- The shard of a partition: the tensors of its layers and components. -/
structure HoldsShard (tensors : TensorContext F) (hp : LlamaExecutorHyperparams F)
    (components : PartitionComponents) : Prop where
  layers : ∀ l ∈ components.layers, HoldsLayer tensors hp l
  embedding : components.embedding = true →
    HoldsTensor tensors (ascii "token_embd.weight") hp.hiddenSize hp.vocabSize
  norm : components.norm = true →
    HoldsTensor tensors (ascii "output_norm.weight") hp.hiddenSize 1
  lmHead : components.lmHead = true →
    HoldsTensor tensors (ascii "output.weight") hp.hiddenSize hp.vocabSize

/-- A stage that can serve its partition. -/
structure Ready (d : Deployment F D) (i : ℕ) : Prop where
  dims : checkHyperparams d.hp = .ok ()
  vocab : d.hp.vocabSize < 2 ^ 31
  shard : HoldsShard (d.tensors i) d.hp (d.partitions.getD i noPartition).components
  softmax : SoftmaxSafe (d.runtime i).executor

/-- The answer of a stage that passes its frame on. -/
def PassesOn (hp : LlamaExecutorHyperparams F) (rows : ℕ) (response : RuntimeResponse) : Prop :=
  response.isFinalStage = false ∧ response.nextTokenId = -1 ∧
    HiddenRows hp rows response.outputTensor

/-- The answer of a stage that ends the route. -/
def PicksToken (hp : LlamaExecutorHyperparams F) (response : RuntimeResponse) : Prop :=
  response.isFinalStage = true ∧ InVocab hp response.nextTokenId

/-- The counter update cannot fail, so a session answers if its executor does. -/
theorem returns_stepSession {hp : LlamaExecutorHyperparams F} {α : Type} {Q : α → Prop}
    (request : RuntimeRequest D) {execute : ℕ → ExecM hp α}
    (h : ∀ seqBefore, Returns (execute seqBefore) Q) :
    Returns (stepSession request execute) fun answer => Q answer.2 := by
  intro session
  obtain ⟨a, executor, hrun, ha⟩ :=
    h (updateKvCacheForRequest request session.kvCache).1.seqBefore session.executor
  refine ⟨((updateKvCacheForRequest request session.kvCache).1, a),
    ⟨(updateKvCacheForRequest request session.kvCache).2, executor⟩, ?_, ha⟩
  simp only [stepSession, hrun]

theorem returns_sessionForRequest {hp : LlamaExecutorHyperparams F}
    (hdims : checkHyperparams hp = .ok ()) (env : ForwardEnv) (request : RuntimeRequest D) :
    Returns (sessionForRequest env request : EStateM Bytes (Sessions hp) Unit) fun _ => True := by
  intro sessions
  unfold sessionForRequest
  rw [hdims]
  dsimp only
  split <;> exact ⟨(), _, rfl, trivial⟩

/-- A runtime answers an admitted frame if the body of its role does. -/
theorem returns_forward {rt : LlamaPartialRuntime F} {request : RuntimeRequest D}
    {Q : RuntimeResponse → Prop} (hdims : checkHyperparams rt.executor.hp = .ok ())
    (hadmission : admission rt request = .ok ()) (env : ForwardEnv)
    (hbody : Returns (roleBody rt env request) Q) : Returns (forward rt env request) Q := by
  rw [forward_eq]
  refine returns_stateless_bind hadmission ?_
  exact returns_bind (returns_sessionForRequest hdims env request) fun _ _ => returns_onPart hbody

section Bodies

variable {rt : LlamaPartialRuntime F} (env : ForwardEnv) (request : RuntimeRequest D)

theorem roleBody_source (hembedding : rt.shard.ownsEmbedding = true) :
    roleBody rt env request =
      stepSession request (fun n => executeSource rt.executor request.inputTensor rt.shard.layers n
        request.activationPrecision) >>= fun answer =>
          pure ⟨false, -1, answer.2, answer.1, rt.backendMetadataJson⟩ := by
  rw [roleBody, if_pos hembedding]
  rfl

theorem roleBody_intermediate (hembedding : rt.shard.ownsEmbedding = false)
    (hlmHead : rt.shard.ownsLmHead = false) (hnext : rt.shard.nextStageUrl ≠ []) :
    roleBody rt env request =
      stepSession request (fun n => executeIntermediate rt.executor request.inputTensor
        rt.shard.layers n request.activationPrecision) >>= fun answer =>
          pure ⟨false, -1, answer.2, answer.1, rt.backendMetadataJson⟩ := by
  rw [roleBody, hembedding, hlmHead, List.isEmpty_eq_false_iff.mpr hnext]
  rfl

theorem roleBody_terminal (hembedding : rt.shard.ownsEmbedding = false)
    (hlmHead : rt.shard.ownsLmHead = true) (hnorm : rt.shard.ownsNorm = true) :
    roleBody rt env request =
      stepSession request (fun n => executeTerminal rt.executor request.inputTensor
        rt.shard.layers n true true (samplingParams request) env.reseedEntropy) >>= fun answer =>
          pure ⟨true, (answer.2 : ℕ), {}, answer.1, rt.backendMetadataJson⟩ := by
  rw [roleBody, hembedding, hlmHead]
  simp only [Bool.false_eq_true, if_false, Bool.true_or, if_true, terminalBody, hnorm, hlmHead]

end Bodies

section Admission

variable {rt : LlamaPartialRuntime F} {request : RuntimeRequest D}

omit [FloatArith F] [FloatArith D] in
/-- Which check token ids have to pass. -/
theorem admission_tokenTensor (hloaded : rt.shard.shardLoaded = true)
    (hrole : rt.shard.ownsEmbedding = true) {tokens : List ℤ}
    (hinput : request.inputTensor = tokenTensor tokens) :
    admission rt request = validateTokenIdsTensor (tokenTensor tokens) := by
  have hkind : inferDli2PayloadKind (tokenTensor tokens) = .ok .tokenIds := by
    simp [inferDli2PayloadKind, tokenTensor]
  simp only [admission, hloaded, Bool.not_true, Bool.false_eq_true, if_false, hinput,
    validateRuntimeRequestMatchesPartition, hkind, hrole, if_true, bind, Except.bind, ne_eq,
    not_true_eq_false]

omit [FloatArith F] [FloatArith D] in
/-- Which check hidden states have to pass. -/
theorem admission_hiddenTensor (hloaded : rt.shard.shardLoaded = true)
    (hrole : rt.shard.ownsEmbedding = false) (hshape : request.inputTensor.metadata.shape ≠ [])
    (hdtype : request.inputTensor.metadata.dtype = dtypeHiddenF32 ∨
      request.inputTensor.metadata.dtype = dtypeHiddenF16) :
    admission rt request = validateHiddenStatesTensor request.inputTensor rt.shard.hiddenSize true := by
  have hnot : request.inputTensor.metadata.dtype ≠ dtypeTokenIds := by
    rcases hdtype with h | h <;> rw [h] <;> decide
  have hkind : inferDli2PayloadKind request.inputTensor = .ok .hiddenStates := by
    rw [inferDli2PayloadKind, if_neg (by simp [hshape]), if_neg hnot, if_pos hdtype]
  simp only [admission, hloaded, Bool.not_true, Bool.false_eq_true, if_false,
    validateRuntimeRequestMatchesPartition, hkind, hrole, bind, Except.bind, ne_eq,
    not_true_eq_false]

end Admission

section Roles

variable {d : Deployment F D} {i : ℕ}

omit [FloatArith F] [FloatArith D] in
/-- Token ids are admitted by the owner of the embedding. -/
theorem admission_tokens {tokens : List ℤ}
    (hrole : (d.partitions.getD i noPartition).components.embedding = true)
    (htokens : ∀ t ∈ tokens, InVocab d.hp t) (hvocab : d.hp.vocabSize < 2 ^ 31)
    (hfits : Fits d.hp tokens.length) {request : RuntimeRequest D}
    (hinput : request.inputTensor = tokenTensor tokens) :
    admission (d.runtime i) request = .ok () := by
  obtain ⟨hvalid, -⟩ := tensorToTokenIds_tokenTensor hfits.nonempty hfits.tokens fun t ht => by
    obtain ⟨hpos, hlt⟩ := htokens t ht
    constructor <;> omega
  rw [admission_tokenTensor rfl hrole hinput, hvalid]

omit [FloatArith F] [FloatArith D] in
/-- Hidden states are admitted by every other partition. -/
theorem admission_hidden {rows : ℕ}
    (hrole : (d.partitions.getD i noPartition).components.embedding = false)
    (hdims : GoodDims d.hp) (hfits : Fits d.hp rows) {request : RuntimeRequest D}
    (hinput : HiddenRows d.hp rows request.inputTensor) :
    admission (d.runtime i) request = .ok () := by
  have hvalid := hinput.valid hfits.nonempty hdims.hiddenSize (size_of_fits hfits.hidden)
  rw [admission_hiddenTensor rfl hrole (by rw [hinput.shape]; exact List.cons_ne_nil _ _)
    (hinput.bytes.imp And.left And.left)]
  exact hvalid

/-- The owner of the embedding passes on the rows of its tokens. -/
theorem returns_serve_source (hready : Ready d i)
    (hrole : (d.partitions.getD i noPartition).components.embedding = true) {tokens : List ℤ}
    (htokens : ∀ t ∈ tokens, InVocab d.hp t) (hfits : Fits d.hp tokens.length)
    {request : RuntimeRequest D} (hinput : request.inputTensor = tokenTensor tokens) :
    Returns (d.serve i request) (PassesOn d.hp tokens.length) := by
  have howns : (d.runtime i).shard.ownsEmbedding = true := hrole
  refine returns_onPart (returns_forward hready.dims
    (admission_tokens hrole htokens hready.vocab hfits hinput) _ ?_)
  rw [roleBody_source _ _ howns, hinput]
  refine returns_bind (returns_stepSession request fun seqBefore =>
    returns_executeSource (goodDims_of_check hready.dims) hready.softmax hready.shard.layers
      (hready.shard.embedding hrole) hready.vocab htokens hfits seqBefore _) fun answer hrows => ?_
  exact returns_pure ⟨rfl, rfl, hrows⟩

/-- A stage in the middle passes on as many rows as it was given. -/
theorem returns_serve_intermediate (hready : Ready d i)
    (hembedding : (d.partitions.getD i noPartition).components.embedding = false)
    (hlmHead : (d.partitions.getD i noPartition).components.lmHead = false)
    (hnext : (d.partitions.getD i noPartition).nextStageUrl ≠ []) {rows : ℕ}
    (hfits : Fits d.hp rows) {request : RuntimeRequest D}
    (hinput : HiddenRows d.hp rows request.inputTensor) :
    Returns (d.serve i request) (PassesOn d.hp rows) := by
  have hdims := goodDims_of_check hready.dims
  refine returns_onPart (returns_forward hready.dims (admission_hidden hembedding hdims hfits hinput) _ ?_)
  rw [roleBody_intermediate _ _ hembedding hlmHead hnext]
  refine returns_bind (returns_stepSession request fun seqBefore =>
    returns_executeIntermediate hdims hready.softmax hready.shard.layers hinput hfits seqBefore _)
    fun answer hrows => ?_
  exact returns_pure ⟨rfl, rfl, hrows⟩

/-- The owner of norm and output matrix picks a token of the vocabulary. -/
theorem returns_serve_terminal (hready : Ready d i)
    (hembedding : (d.partitions.getD i noPartition).components.embedding = false)
    (hnorm : (d.partitions.getD i noPartition).components.norm = true)
    (hlmHead : (d.partitions.getD i noPartition).components.lmHead = true) {rows : ℕ}
    (hfits : Fits d.hp rows) {request : RuntimeRequest D}
    (hinput : HiddenRows d.hp rows request.inputTensor) :
    Returns (d.serve i request) (PicksToken d.hp) := by
  have hdims := goodDims_of_check hready.dims
  refine returns_onPart (returns_forward hready.dims (admission_hidden hembedding hdims hfits hinput) _ ?_)
  rw [roleBody_terminal _ _ hembedding hlmHead hnorm]
  refine returns_bind (returns_stepSession request fun seqBefore =>
    returns_executeTerminal hdims hready.softmax hready.shard.layers (hready.shard.norm hnorm)
      (hready.shard.lmHead hlmHead) hinput hfits seqBefore _ _) fun answer hlt => ?_
  refine returns_pure ⟨rfl, ?_, ?_⟩
  · exact Int.natCast_nonneg _
  · exact Int.ofNat_lt.mpr hlt

end Roles

end LayerInference.StageExecution
