import LayerInference.JsonPieces
import LayerInference.ManifestTexts
import LayerInference.TensorAbi

/-!
# Control metadata in its texts

A frame carries its control data as JSON. The gateway writes a request in one of
two forms, a stage writes its answer with its metrics and a description of its
backend, and every stage reads what it needs back by one search a field. The
writers are given piece by piece in the order of the streams, and the reader with
its aliases, defaults and errors.
-/

namespace LayerInference.MetadataTexts

open ByteStrings TextStreams JsonText QuotedTexts JsonFields ManifestTexts NumberTexts JsonPieces
  TensorAbi

section Pieces

/-- A key with its colon. -/
def keyPiece (name : String) (h : IsName (ascii name) := by decide) : Piece := .key (ascii name) h

def openBrace : Piece := .plain [0x7b] (by decide)

/-- A comma behind the end of an inner object. -/
def comma : Piece := .plain [44] (by decide)

/-- The end of an object. -/
def lastBrace : Piece := .plain [0x7d] (by decide)

/-- A list of integers and what stands behind it. -/
def shapePiece (shape : List ℤ) (mark : Mark) : Piece :=
  .plain (intVectorJson shape ++ [mark.byte]) (by
    unfold intVectorJson
    rw [List.mem_append, List.mem_cons, List.mem_append, not_or, not_or, not_or]
    refine ⟨⟨by decide, quote_not_mem_joinInts shape, by decide⟩, ?_⟩
    cases mark <;> decide)

end Pieces

section Requests

/-- The arguments of the gateway's writer. -/
structure RequestMetadata where
  requestId : Bytes
  tokenIndex : ℤ
  generationMode : Bytes
  dtype : Bytes
  shape : List ℤ
  activationPrecision : Bytes
  persistentSessionsEnabled : Bool
  nativeStageChainingEnabled : Bool
  minNewTokens : ℤ
  applyChatTemplate : Bool
  metadataLevel : Bytes
  temperature : ℚ
  topK : ℤ
  topP : Option ℚ
  seed : Option ℤ

def metadataLevelIsCompact (metadataLevel : Bytes) : Bool :=
  metadataLevel == ascii "compact" || metadataLevel == ascii "minimal"

/-- Six decimals, or `null` for an absent value. -/
def topPText (topP : Option ℚ) : Bytes :=
  match topP with
  | some p => toStringDouble p
  | none => ascii "null"

def topPPiece (topP : Option ℚ) : Piece :=
  .plain (topPText topP ++ [44]) (by
    rw [List.mem_append, not_or]
    refine ⟨?_, by decide⟩
    cases topP with
    | none => decide
    | some p => exact quote_not_mem_literal (toStringLiteral_spec p).1)

/-- The seed is only written when there is one. -/
def seedPieces (seed : Option ℤ) : List Piece :=
  match seed with
  | some s => [keyPiece "seed", integerPiece s .comma]
  | none => []

/-- The short form up to the seed. -/
def compactHeadPieces (m : RequestMetadata) : List Piece :=
  [openBrace,
    keyPiece "rid", .string m.requestId .comma,
    keyPiece "ti", integerPiece m.tokenIndex .comma,
    keyPiece "gm", .string m.generationMode .comma,
    keyPiece "dt", .string m.dtype .comma,
    keyPiece "sh", shapePiece m.shape .comma,
    keyPiece "bo", .string (ascii "little") .comma,
    keyPiece "ap", .string m.activationPrecision .comma,
    keyPiece "kv", flagPiece true .comma,
    keyPiece "ps", flagPiece m.persistentSessionsEnabled .comma,
    keyPiece "nsc", flagPiece m.nativeStageChainingEnabled .comma,
    keyPiece "temperature", doublePiece m.temperature .comma,
    keyPiece "top_k", integerPiece m.topK .comma,
    keyPiece "top_p", topPPiece m.topP]

/-- The short form. -/
def compactPieces (m : RequestMetadata) : List Piece :=
  compactHeadPieces m ++
    (seedPieces m.seed ++ [keyPiece "m", integerPiece m.minNewTokens .close])

/-- The long form up to the seed. -/
def debugHeadPieces (m : RequestMetadata) : List Piece :=
  let sequenceLength := if 2 ≤ m.shape.length then m.shape.getD 1 0 else 0
  [openBrace,
    keyPiece "request_id", .string m.requestId .comma,
    keyPiece "token_index", integerPiece m.tokenIndex .comma,
    keyPiece "generation_mode", .string m.generationMode .comma,
    keyPiece "sequence_length", integerPiece sequenceLength .comma,
    keyPiece "tensor", openBrace,
    keyPiece "dtype", .string m.dtype .comma,
    keyPiece "shape", shapePiece m.shape .comma,
    keyPiece "byte_order", .string (ascii "little") .close, comma,
    keyPiece "feature_flags", openBrace,
    keyPiece "kv_cache_enabled", flagPiece true .comma,
    keyPiece "transport_mode", .string (ascii "binary_octet_stream") .comma,
    keyPiece "activation_precision", .string m.activationPrecision .comma,
    keyPiece "persistent_sessions_enabled", flagPiece m.persistentSessionsEnabled .comma,
    keyPiece "native_stage_chaining_enabled", flagPiece m.nativeStageChainingEnabled .comma,
    keyPiece "metadata_level", .string m.metadataLevel .comma,
    keyPiece "apply_chat_template", flagPiece m.applyChatTemplate .close, comma,
    keyPiece "sampling", openBrace,
    keyPiece "temperature", doublePiece m.temperature .comma,
    keyPiece "top_k", integerPiece m.topK .comma,
    keyPiece "top_p", topPPiece m.topP]

/-- The long form. -/
def debugPieces (m : RequestMetadata) : List Piece :=
  debugHeadPieces m ++ (seedPieces m.seed ++
    [keyPiece "min_new_tokens", integerPiece m.minNewTokens .close, lastBrace])

def requestMetadataPieces (m : RequestMetadata) : List Piece :=
  if metadataLevelIsCompact m.metadataLevel then compactPieces m else debugPieces m

def requestMetadataJson (m : RequestMetadata) : Bytes := piecesText (requestMetadataPieces m)

end Requests

section Answers

/-- What a stage reports about one call. -/
structure StageMetrics where
  backend : Bytes := ascii "stub"
  status : Bytes := ascii "ok"
  computeTimeMs : ℚ := 0
  trueCommMs : ℚ := 0
  rpcWallTimeMs : ℚ := 0
  inputTensorBytes : ℕ := 0
  outputTensorBytes : ℕ := 0
  stageInputTokenCount : ℤ := 0
  stageOutputTokenCount : ℤ := 0
  kvCacheStepValid : Bool := true
  kvCacheSeqBefore : ℤ := 0
  kvCacheSeqAfter : ℤ := 0
  kvCacheBytes : ℕ := 0
  kvCacheValid : Bool := true
  modelLoadMs : ℚ := 0
  memoryRssMb : ℕ := 0
  memoryCgroupCurrentMb : ℕ := 0
  memoryCgroupLimitMb : ℕ := 0
  memoryCgroupPercent : ℚ := 0
  modelFileSizeMb : ℕ := 0
  sessionCount : ℕ := 0
  sessionKvCacheBytes : ℕ := 0
  processCpuPercent : ℚ := 0
  systemCpuPercent : ℚ := 0
  processThreads : ℕ := 0
  ctxSwitchesVoluntary : ℕ := 0
  ctxSwitchesInvoluntary : ℕ := 0
  ioReadBytesDelta : ℕ := 0
  ioWriteBytesDelta : ℕ := 0
  ioReadCountDelta : ℕ := 0
  ioWriteCountDelta : ℕ := 0
  matmulMs : ℚ := 0
  attentionMs : ℚ := 0
  ggmlThreads : ℤ := 0

def metricsPieces (metrics : StageMetrics) : List Piece :=
  [openBrace,
    keyPiece "backend", .string metrics.backend .comma,
    keyPiece "status", .string metrics.status .comma,
    keyPiece "compute_time_ms", doublePiece metrics.computeTimeMs .comma,
    keyPiece "true_comm_ms", doublePiece metrics.trueCommMs .comma,
    keyPiece "rpc_wall_time_ms", doublePiece metrics.rpcWallTimeMs .comma,
    keyPiece "input_tensor_bytes", integerPiece metrics.inputTensorBytes .comma,
    keyPiece "output_tensor_bytes", integerPiece metrics.outputTensorBytes .comma,
    keyPiece "stage_input_token_count", integerPiece metrics.stageInputTokenCount .comma,
    keyPiece "stage_output_token_count", integerPiece metrics.stageOutputTokenCount .comma,
    keyPiece "kv_cache_step_valid", flagPiece metrics.kvCacheStepValid .comma,
    keyPiece "kv_cache_seq_before", integerPiece metrics.kvCacheSeqBefore .comma,
    keyPiece "kv_cache_seq_after", integerPiece metrics.kvCacheSeqAfter .comma,
    keyPiece "kv_cache_bytes", integerPiece metrics.kvCacheBytes .comma,
    keyPiece "kv_cache_valid", flagPiece metrics.kvCacheValid .comma,
    keyPiece "model_load_ms", doublePiece metrics.modelLoadMs .comma,
    keyPiece "memory_rss_mb", integerPiece metrics.memoryRssMb .comma,
    keyPiece "memory_cgroup_current_mb", integerPiece metrics.memoryCgroupCurrentMb .comma,
    keyPiece "memory_cgroup_limit_mb", integerPiece metrics.memoryCgroupLimitMb .comma,
    keyPiece "memory_cgroup_percent", doublePiece metrics.memoryCgroupPercent .comma,
    keyPiece "model_file_size_mb", integerPiece metrics.modelFileSizeMb .comma,
    keyPiece "session_count", integerPiece metrics.sessionCount .comma,
    keyPiece "session_kv_cache_bytes", integerPiece metrics.sessionKvCacheBytes .comma,
    keyPiece "process_cpu_percent", doublePiece metrics.processCpuPercent .comma,
    keyPiece "system_cpu_percent", doublePiece metrics.systemCpuPercent .comma,
    keyPiece "process_threads", integerPiece metrics.processThreads .comma,
    keyPiece "process_context_switches", openBrace,
    keyPiece "voluntary", integerPiece metrics.ctxSwitchesVoluntary .comma,
    keyPiece "involuntary", integerPiece metrics.ctxSwitchesInvoluntary .close, comma,
    keyPiece "process_io_delta", openBrace,
    keyPiece "read_bytes", integerPiece metrics.ioReadBytesDelta .comma,
    keyPiece "write_bytes", integerPiece metrics.ioWriteBytesDelta .comma,
    keyPiece "read_count", integerPiece metrics.ioReadCountDelta .comma,
    keyPiece "write_count", integerPiece metrics.ioWriteCountDelta .close, comma,
    keyPiece "matmul_ms", doublePiece metrics.matmulMs .comma,
    keyPiece "attention_ms", doublePiece metrics.attentionMs .comma,
    keyPiece "ggml_threads", integerPiece metrics.ggmlThreads .close]

/-- What the partition runtime says about its model and its shard. -/
structure BackendMetadata where
  modelLoaded : Bool := false
  modelPath : Bytes := []
  architecture : Bytes := []
  name : Bytes := []
  nCtxTrain : ℤ := 0
  nEmbd : ℤ := 0
  nLayer : ℤ := 0
  nHead : ℤ := 0
  nHeadKv : ℤ := 0
  nVocab : ℤ := 0
  shardLoaded : Bool := false
  format : Bytes := []
  formatVersion : ℤ := 0
  partitionId : Bytes := []
  stageId : ℤ := 0
  layers : List ℤ := []
  ownsEmbedding : Bool := false
  ownsNorm : Bool := false
  ownsLmHead : Bool := false
  nextPartitionId : Bytes := []
  nextStageUrl : Bytes := []
  hiddenSize : ℤ := -1
  sourceModel : Bytes := []
  sessions : ℕ := 0

def backendMetadataPieces (b : BackendMetadata) : List Piece :=
  [openBrace,
    keyPiece "model_loaded", flagPiece b.modelLoaded .comma,
    keyPiece "model_path", .string b.modelPath .comma,
    keyPiece "architecture", .string b.architecture .comma,
    keyPiece "name", .string b.name .comma,
    keyPiece "n_ctx_train", integerPiece b.nCtxTrain .comma,
    keyPiece "n_embd", integerPiece b.nEmbd .comma,
    keyPiece "n_layer", integerPiece b.nLayer .comma,
    keyPiece "n_head", integerPiece b.nHead .comma,
    keyPiece "n_head_kv", integerPiece b.nHeadKv .comma,
    keyPiece "n_vocab", integerPiece b.nVocab .comma,
    keyPiece "shard", openBrace,
    keyPiece "loaded", flagPiece b.shardLoaded .comma,
    keyPiece "format", .string b.format .comma,
    keyPiece "format_version", integerPiece b.formatVersion .comma,
    keyPiece "partition_id", .string b.partitionId .comma,
    keyPiece "stage_id", integerPiece b.stageId .comma,
    keyPiece "layers", shapePiece b.layers .comma,
    keyPiece "owns_embedding", flagPiece b.ownsEmbedding .comma,
    keyPiece "owns_norm", flagPiece b.ownsNorm .comma,
    keyPiece "owns_lm_head", flagPiece b.ownsLmHead .comma,
    keyPiece "next_partition_id", .string b.nextPartitionId .comma,
    keyPiece "next_stage_url", .string b.nextStageUrl .comma,
    keyPiece "hidden_size", integerPiece b.hiddenSize .comma,
    keyPiece "source_model", .string b.sourceModel .close, comma,
    keyPiece "sessions", openBrace,
    keyPiece "count", integerPiece b.sessions .close, lastBrace]

/-- The answer of a runtime with its metrics. The stub describes no backend. -/
structure StageAnswer where
  isFinalStage : Bool := false
  nextTokenId : ℤ := -1
  outputTensor : TensorBuffer := {}
  metrics : StageMetrics := {}
  backend : Option BackendMetadata := none

/-- The fields of a request that a stage passes on. -/
structure StageRequest where
  requestId : Bytes := []
  tokenIndex : ℤ := 0
  generationMode : Bytes := ascii "legacy"
  inputMetadataJson : Bytes := []
  inputTensor : TensorBuffer := {}
  kvCacheEnabled : Bool := false
  activationPrecision : Bytes := ascii "fp32"
  transportMode : Bytes := ascii "binary_octet_stream"
  rebalanceProfile : Bytes := ascii "baseline"
  persistentSessionsEnabled : Bool := false
  topologyAwareRouting : Bool := false
  metadataLevel : Bytes := ascii "debug"
  nativeStageChainingEnabled : Bool := false
  temperature : Option ℚ := none
  topK : Option ℤ := none
  topP : Option ℚ := none
  seed : Option ℤ := none
  nextTokenId : Option ℤ := none
  stageInputTokenCount : ℤ := 0

/-- A sampling control is only written when it is present. -/
def presentPieces {α : Type} (name : Piece) (value : α → Piece) : Option α → List Piece
  | some x => [name, value x]
  | none => []

/-- The description of the backend, or an empty object. -/
def backendPieces (backend : Option BackendMetadata) : List Piece :=
  match backend with
  | some b => backendMetadataPieces b
  | none => [openBrace, lastBrace]

/-- The metadata of a tensor that has a shape, or else of the request's tensor. -/
def answerTensor (answer : StageAnswer) (request : StageRequest) : TensorMetadata :=
  if answer.outputTensor.metadata.shape = [] then request.inputTensor.metadata
  else answer.outputTensor.metadata

/-- The fields of an answer before its sampling controls. -/
def answerHeadPieces (answer : StageAnswer) (serviceName : Bytes) (stageId : ℤ)
    (request : StageRequest) : List Piece :=
  [openBrace,
    keyPiece "ok", flagPiece true .comma,
    keyPiece "service", .string serviceName .comma,
    keyPiece "runtime", .string (ascii "cpp-native-stub") .comma,
    keyPiece "backend", .string answer.metrics.backend .comma,
    keyPiece "status", .string answer.metrics.status .comma,
    keyPiece "stage_id", integerPiece stageId .comma,
    keyPiece "request_id", .string request.requestId .comma,
    keyPiece "token_index", integerPiece request.tokenIndex .comma,
    keyPiece "generation_mode", .string request.generationMode .comma,
    keyPiece "input_metadata_bytes", integerPiece request.inputMetadataJson.length .comma,
    keyPiece "input_tensor_bytes", integerPiece request.inputTensor.bytes.length .comma,
    keyPiece "output_tensor_bytes", integerPiece answer.outputTensor.bytes.length .comma,
    keyPiece "is_final_stage", flagPiece answer.isFinalStage .comma,
    keyPiece "next_token_id", integerPiece answer.nextTokenId .comma,
    keyPiece "tensor", openBrace,
    keyPiece "dtype", .string (answerTensor answer request).dtype .comma,
    keyPiece "shape", shapePiece (answerTensor answer request).shape .comma,
    keyPiece "byte_order", .string (answerTensor answer request).byteOrder .close, comma,
    keyPiece "feature_flags", openBrace,
    keyPiece "kv_cache_enabled", flagPiece request.kvCacheEnabled .comma,
    keyPiece "native_stage_chaining_enabled",
    flagPiece request.nativeStageChainingEnabled .comma,
    keyPiece "transport_mode", .string request.transportMode .comma,
    keyPiece "activation_precision", .string request.activationPrecision .comma,
    keyPiece "persistent_sessions_enabled", flagPiece request.persistentSessionsEnabled .comma,
    keyPiece "metadata_level", .string request.metadataLevel .close, comma]

/-- The sampling controls that ride along the chain. -/
def controlPieces (request : StageRequest) : List Piece :=
  presentPieces (keyPiece "temperature") (doublePiece · .comma) request.temperature ++
    (presentPieces (keyPiece "top_k") (integerPiece · .comma) request.topK ++
      (presentPieces (keyPiece "top_p") (doublePiece · .comma) request.topP ++
        presentPieces (keyPiece "seed") (integerPiece · .comma) request.seed))

/-- The metrics, the description of the backend, and the end. -/
def answerTailPieces (answer : StageAnswer) : List Piece :=
  keyPiece "metrics" :: (metricsPieces answer.metrics ++
    (comma :: keyPiece "backend_metadata" :: (backendPieces answer.backend ++ [lastBrace])))

def runtimeResponseMetadataPieces (answer : StageAnswer) (serviceName : Bytes) (stageId : ℤ)
    (request : StageRequest) : List Piece :=
  answerHeadPieces answer serviceName stageId request ++
    (controlPieces request ++ answerTailPieces answer)

def runtimeResponseMetadataJson (answer : StageAnswer) (serviceName : Bytes) (stageId : ℤ)
    (request : StageRequest) : Bytes :=
  piecesText (runtimeResponseMetadataPieces answer serviceName stageId request)

end Answers

end LayerInference.MetadataTexts
