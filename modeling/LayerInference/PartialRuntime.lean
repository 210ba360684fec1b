import LayerInference.PartitionExecution
import Mathlib.Data.List.AList

/-!
# The partition runtime and its sessions

A stage serves frames of many requests. Each request identifier has a session
with a position counter and an executor of its own. Sessions are created on
demand, reset by the first prefill, and pruned above a maximum in the
iteration order of a hash map, which is left open. Serving a frame advances
the counter first and executes the partition afterwards.
-/

namespace LayerInference.PartialRuntime

open ByteStrings FallibleRuns FloatArithmetic TensorAbi CpuExecutor PartitionExecution

variable {F D G : Type} [FloatArith F] [FloatArith D] [Numerics F D G]

/-- A decoded frame as the runtime receives it. -/
structure RuntimeRequest (D : Type) where
  requestId : Bytes
  tokenIndex : ℤ
  generationMode : Bytes := ascii "legacy"
  inputMetadataJson : Bytes := []
  inputTensor : TensorBuffer
  kvCacheEnabled : Bool := false
  activationPrecision : Bytes := ascii "fp32"
  transportMode : Bytes := ascii "binary_octet_stream"
  persistentSessionsEnabled : Bool := false
  metadataLevel : Bytes := ascii "debug"
  nativeStageChainingEnabled : Bool := false
  temperature : Option D := none
  topK : Option ℤ := none
  topP : Option D := none
  seed : Option ℤ := none

/-- What the counter update reports about one frame. -/
structure PartitionKvCacheStep where
  seqBefore : ℕ
  seqAfter : ℕ
  valid : Bool
  deriving DecidableEq

/-- The answer of the runtime; the step is part of its metrics. -/
structure RuntimeResponse where
  isFinalStage : Bool
  nextTokenId : ℤ
  outputTensor : TensorBuffer
  kvStep : PartitionKvCacheStep
  backendMetadataJson : Bytes
  deriving DecidableEq

/-- What a shard says about its partition. -/
structure LlamaShardMetadata where
  shardLoaded : Bool := true
  layers : List ℤ
  ownsEmbedding : Bool
  ownsNorm : Bool
  ownsLmHead : Bool
  nextStageUrl : Bytes
  hiddenSize : ℤ

/-- The immutable part of a runtime: the shard and its executor context. -/
structure LlamaPartialRuntime (F : Type) where
  shard : LlamaShardMetadata
  executor : ExecutorContext F
  backendMetadataJson : Bytes := []

/-- The position counter of a session. -/
structure PartitionKvCacheState where
  seqLen : ℕ := 0
  valid : Bool := true
  deriving DecidableEq

/-- One request's counter and executor. -/
structure LlamaRequestSession (hp : LlamaExecutorHyperparams F) where
  kvCache : PartitionKvCacheState
  executor : LlamaCpuExecutor hp

/-- The session map. -/
abbrev Sessions (hp : LlamaExecutorHyperparams F) := AList fun _ : Bytes => LlamaRequestSession hp

/-- What one call reads from its surroundings: the session maximum, the
iteration order of the map for each key set, and the random device. -/
structure ForwardEnv where
  maxSessions : ℕ
  order : List Bytes → List Bytes
  order_perm : ∀ keys, (order keys).Perm keys
  executorEntropy : UInt32
  reseedEntropy : UInt32

/-- The surroundings in which the map iterates over its newest key first. -/
def ForwardEnv.newestFirst (maxSessions : ℕ) : ForwardEnv where
  maxSessions := maxSessions
  order := id
  order_perm := fun _ => .refl _
  executorEntropy := 0
  reseedEntropy := 0

/-- A source partition expects token ids, every other one hidden states. -/
def validateRuntimeRequestMatchesPartition (tensor : TensorBuffer) (shard : LlamaShardMetadata) :
    Except Bytes Unit := do
  let kind ← inferDli2PayloadKind tensor
  if shard.ownsEmbedding then
    if kind ≠ .tokenIds then
      .error (ascii "source partition owns embedding and expects DLI2 token ids input")
    else validateTokenIdsTensor tensor
  else if kind ≠ .hiddenStates then
    .error (ascii "non-source partition expects DLI2 hidden states input")
  else validateHiddenStatesTensor tensor shard.hiddenSize true

/-- The first key in iteration order that is not the kept one. -/
def pruneVictim (env : ForwardEnv) (keys : List Bytes) (keepRequestId : Bytes) : Option Bytes :=
  match env.order keys with
  | [] => none
  | key :: rest => if keepRequestId ≠ [] ∧ key = keepRequestId then rest.head? else some key

/-- The pruning loop; one pass removes one session. -/
def pruneLoop {hp : LlamaExecutorHyperparams F} (env : ForwardEnv) (keepRequestId : Bytes) :
    ℕ → Sessions hp → Sessions hp
  | 0, sessions => sessions
  | fuel + 1, sessions =>
    if sessions.keys.length > max 1 env.maxSessions then
      match pruneVictim env sessions.keys keepRequestId with
      | none => sessions
      | some victim => pruneLoop env keepRequestId fuel (sessions.erase victim)
    else sessions

/-- Remove sessions until the maximum holds; there are at most as many passes
as sessions. -/
def pruneSessionsExcept {hp : LlamaExecutorHyperparams F} (env : ForwardEnv)
    (keepRequestId : Bytes) (sessions : Sessions hp) : Sessions hp :=
  pruneLoop env keepRequestId sessions.keys.length sessions

/-- The map key of a request. -/
def sessionKey (request : RuntimeRequest D) : Bytes :=
  if request.requestId.isEmpty then ascii "__default__" else request.requestId

/-- The first prefill discards an existing session. -/
def resetsSession (request : RuntimeRequest D) : Bool :=
  decide (request.generationMode = ascii "prefill") && request.tokenIndex == 0

/-- A session before its first frame. -/
def LlamaRequestSession.fresh (hp : LlamaExecutorHyperparams F) (entropy : UInt32) :
    LlamaRequestSession hp :=
  ⟨{}, .fresh hp entropy⟩

/-- Find or create the session of a request, then prune the others. -/
def sessionForRequest {hp : LlamaExecutorHyperparams F} (env : ForwardEnv)
    (request : RuntimeRequest D) : EStateM Bytes (Sessions hp) Unit := fun sessions =>
  let key := sessionKey request
  let sessions := if resetsSession request then sessions.erase key else sessions
  match sessions.lookup key with
  | some _ => .ok () (pruneSessionsExcept env key sessions)
  | none =>
    match checkHyperparams hp with
    | .error message => .error message sessions
    | .ok () =>
      .ok () (pruneSessionsExcept env key
        (sessions.insert key (.fresh hp env.executorEntropy)))

/-- Advance the counter of a session for one frame. -/
def updateKvCacheForRequest (request : RuntimeRequest D) (kvCache : PartitionKvCacheState) :
    PartitionKvCacheStep × PartitionKvCacheState :=
  let inputSeq := toInt32 (dli2SequenceLength request.inputTensor)
  if !request.kvCacheEnabled then (⟨kvCache.seqLen, kvCache.seqLen, true⟩, kvCache)
  else
    let advance : Option ℕ :=
      if request.generationMode = ascii "prefill" then
        if inputSeq ≤ 0 then none else some inputSeq.toNat
      else if request.generationMode = ascii "decode" then
        if inputSeq ≠ 1 then none else some 1
      else none
    let seqAfter := kvCache.seqLen + advance.getD 0
    let valid := kvCache.valid && advance.isSome
    (⟨kvCache.seqLen, seqAfter, valid⟩, ⟨seqAfter, valid⟩)

/-- Advance the counter, then execute on the session's executor. -/
def stepSession {hp : LlamaExecutorHyperparams F} {α : Type} (request : RuntimeRequest D)
    (execute : ℕ → ExecM hp α) : EStateM Bytes (LlamaRequestSession hp) (PartitionKvCacheStep × α) :=
  fun session =>
    let (step, kvCache) := updateKvCacheForRequest request session.kvCache
    match execute step.seqBefore session.executor with
    | .ok result executor => .ok (step, result) ⟨kvCache, executor⟩
    | .error message executor => .error message ⟨kvCache, executor⟩

/-- Run on the session of a request. The session exists by then; the default
is never read. -/
def onSession {hp : LlamaExecutorHyperparams F} {α : Type} (env : ForwardEnv) (key : Bytes)
    (x : EStateM Bytes (LlamaRequestSession hp) α) : EStateM Bytes (Sessions hp) α :=
  onPart (fun sessions => (sessions.lookup key).getD (.fresh hp env.executorEntropy))
    (fun sessions session => sessions.insert key session) x

/-- The sampling controls of a request. Sampling needs a positive temperature. -/
def samplingParams (request : RuntimeRequest D) : LlamaSamplingParams F where
  enabled := request.temperature.elim false fun t => FloatArith.lt 0 t
  temperature := request.temperature.elim 1 Numerics.toFloat
  topK := request.topK.getD 0
  topP := request.topP.elim 1 Numerics.toFloat
  hasSeed := request.seed.isSome
  seed := request.seed.getD 0

/-- Serve a frame on a source partition's session. -/
def sourceBody (rt : LlamaPartialRuntime F) (request : RuntimeRequest D) :
    EStateM Bytes (LlamaRequestSession rt.executor.hp) RuntimeResponse := do
  let (step, output) ← stepSession request fun seqBefore =>
    executeSource rt.executor request.inputTensor rt.shard.layers seqBefore
      request.activationPrecision
  pure ⟨false, -1, output, step, rt.backendMetadataJson⟩

/-- Serve a frame on an intermediate partition's session. -/
def intermediateBody (rt : LlamaPartialRuntime F) (request : RuntimeRequest D) :
    EStateM Bytes (LlamaRequestSession rt.executor.hp) RuntimeResponse := do
  let (step, output) ← stepSession request fun seqBefore =>
    executeIntermediate rt.executor request.inputTensor rt.shard.layers seqBefore
      request.activationPrecision
  pure ⟨false, -1, output, step, rt.backendMetadataJson⟩

/-- Serve a frame on a terminal partition's session. -/
def terminalBody (rt : LlamaPartialRuntime F) (env : ForwardEnv) (request : RuntimeRequest D) :
    EStateM Bytes (LlamaRequestSession rt.executor.hp) RuntimeResponse := do
  let (step, token) ← stepSession request fun seqBefore =>
    executeTerminal rt.executor request.inputTensor rt.shard.layers seqBefore rt.shard.ownsNorm
      rt.shard.ownsLmHead (samplingParams request) env.reseedEntropy
  pure ⟨true, token, {}, step, rt.backendMetadataJson⟩

def forwardSourcePartition (rt : LlamaPartialRuntime F) (env : ForwardEnv)
    (request : RuntimeRequest D) : EStateM Bytes (Sessions rt.executor.hp) RuntimeResponse := do
  sessionForRequest env request
  onSession env (sessionKey request) (sourceBody rt request)

def forwardIntermediatePartition (rt : LlamaPartialRuntime F) (env : ForwardEnv)
    (request : RuntimeRequest D) : EStateM Bytes (Sessions rt.executor.hp) RuntimeResponse := do
  sessionForRequest env request
  onSession env (sessionKey request) (intermediateBody rt request)

def forwardTerminalPartition (rt : LlamaPartialRuntime F) (env : ForwardEnv)
    (request : RuntimeRequest D) : EStateM Bytes (Sessions rt.executor.hp) RuntimeResponse := do
  sessionForRequest env request
  onSession env (sessionKey request) (terminalBody rt env request)

/-- The admission checks of a frame, before any session is touched. -/
def admission (rt : LlamaPartialRuntime F) (request : RuntimeRequest D) : Except Bytes Unit :=
  if !rt.shard.shardLoaded then
    .error (ascii "LlamaPartialRuntime has no loaded DLI GGUF shard")
  else validateRuntimeRequestMatchesPartition request.inputTensor rt.shard

/-- Serve one frame: an embedding owner is a source, otherwise the owner of
the output matrix or the end of the route is terminal. -/
def forward (rt : LlamaPartialRuntime F) (env : ForwardEnv) (request : RuntimeRequest D) :
    EStateM Bytes (Sessions rt.executor.hp) RuntimeResponse := do
  stateless (admission rt request)
  if rt.shard.ownsEmbedding then forwardSourcePartition rt env request
  else if rt.shard.ownsLmHead || rt.shard.nextStageUrl.isEmpty then
    forwardTerminalPartition rt env request
  else forwardIntermediatePartition rt env request

end LayerInference.PartialRuntime
