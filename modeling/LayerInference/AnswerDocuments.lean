import LayerInference.JsonDocuments
import LayerInference.ResultTexts
import LayerInference.RuntimeTexts

/-!
# The documents that are written piece by piece

The metadata of a stage and the answer to a generation are written by hand, one
stream for each. Every such text is a JSON document, whatever bytes its strings hold,
and it denotes the values that were written: strings byte for byte and doubles with
six digits. Metadata stays a document when the stages in front edit its text.
-/

namespace LayerInference.AnswerDocuments

open ByteStrings TextStreams JsonText QuotedTexts JsonFields ManifestTexts NumberTexts JsonPieces
  JsonDocuments GenerationLoop StageChainMetrics RuntimeTexts ResultTexts
open MetadataTexts hiding runtimeResponseMetadataJson

section Pieces

/-- What the check of a key computes to. -/
theorem checked : true = true := rfl

theorem plain_of_checked {key : String} (h : (ascii key).all isPlainByte = true) :
    (ascii key).all isPlainByte = true := h

/-- A member with a key that needs no escapes. -/
def field (key : String) (written : Written)
    (plain : (ascii key).all isPlainByte = true := by exact plain_of_checked checked) : Field :=
  ⟨ascii key, plain, written⟩

/-- An object without blanks. -/
abbrev document (fields : List Field) : Written := .object .compact fields

/-- Fields with a comma behind each. -/
def openFields (fields : List Field) : Bytes :=
  fields.flatMap fun field => field.text .compact ++ [44]

theorem openFields_append (front back : List Field) :
    openFields (front ++ back) = openFields front ++ openFields back := List.flatMap_append

/-- The last field has the end of the object behind it. -/
theorem document_text (fields : List Field) (last : Field) : (document (fields ++ [last])).text =
    0x7b :: (openFields fields ++ (last.text .compact ++ [0x7d])) := by
  have hjoin : joinFields ((fields ++ [last]).map (Field.text .compact)) =
      openFields fields ++ last.text .compact := by
    induction fields with
    | nil => exact joinFields_single _
    | cons first fields ih =>
      obtain ⟨next, more, hmore⟩ : ∃ next more, fields ++ [last] = next :: more :=
        List.exists_cons_of_ne_nil (List.append_ne_nil_of_right_ne_nil _ (List.cons_ne_nil _ _))
      rw [List.cons_append, List.map_cons, hmore, List.map_cons, joinFields_cons, ← List.map_cons,
        ← hmore, ih]
      simp [openFields]
  change 0x7b :: (joinFields ((fields ++ [last]).map (Field.text .compact)) ++ ([] ++ [0x7d])) = _
  rw [hjoin, List.append_assoc, List.nil_append]

@[simp]
theorem field_text (key : String) (written : Written)
    (plain : (ascii key).all isPlainByte = true) : (field key written plain).text .compact =
      34 :: (ascii key ++ 34 :: 58 :: written.text) := rfl

theorem object_text (fields : List Field) : (document fields).text =
    0x7b :: (joinFields (fields.map (Field.text .compact)) ++ [0x7d]) := rfl

@[simp]
theorem keyPiece_text (name : String) (h : IsName (ascii name)) :
    (keyPiece name h).text = 34 :: (ascii name ++ [34, 58]) := rfl

@[simp]
theorem stringPiece_text (value : Bytes) (mark : Mark) :
    (Piece.string value mark).text = (Written.string value).text ++ [mark.byte] := rfl

@[simp]
theorem flagPiece_text (value : Bool) (mark : Mark) :
    (flagPiece value mark).text = (Written.flag value).text ++ [mark.byte] := rfl

@[simp]
theorem integerPiece_text (n : ℤ) (mark : Mark) :
    (integerPiece n mark).text = (Written.integer n).text ++ [mark.byte] := by
  change (decimalLiteral n).text ++ _ = decimal n ++ _
  rw [decimalLiteral_text]

@[simp]
theorem doublePiece_text (x : ℚ) (mark : Mark) :
    (doublePiece x mark).text = (Written.double x).text ++ [mark.byte] := rfl

/-- A list of integers. -/
def integers (values : List ℤ) : Written := .array (values.map .integer)

theorem integers_text (values : List ℤ) : (integers values).text = intVectorJson values := by
  change 91 :: (joinFields ((values.map Written.integer).map Written.text) ++ [93]) = _
  rw [List.map_map]
  rfl

@[simp]
theorem shapePiece_text (shape : List ℤ) (mark : Mark) :
    (shapePiece shape mark).text = (integers shape).text ++ [mark.byte] := by
  rw [integers_text]
  rfl

@[simp]
theorem openBrace_text : openBrace.text = [0x7b] := rfl

@[simp]
theorem comma_text : comma.text = [44] := rfl

@[simp]
theorem lastBrace_text : lastBrace.text = [0x7d] := rfl

@[simp]
theorem comma_byte : Mark.comma.byte = 44 := rfl

@[simp]
theorem close_byte : Mark.close.byte = 0x7d := rfl

end Pieces

section Metadata

def metricsDocument (metrics : StageMetrics) : Written := document
  [field "backend" (.string metrics.backend), field "status" (.string metrics.status),
    field "compute_time_ms" (.double metrics.computeTimeMs),
    field "true_comm_ms" (.double metrics.trueCommMs),
    field "rpc_wall_time_ms" (.double metrics.rpcWallTimeMs),
    field "input_tensor_bytes" (.integer metrics.inputTensorBytes),
    field "output_tensor_bytes" (.integer metrics.outputTensorBytes),
    field "stage_input_token_count" (.integer metrics.stageInputTokenCount),
    field "stage_output_token_count" (.integer metrics.stageOutputTokenCount),
    field "kv_cache_step_valid" (.flag metrics.kvCacheStepValid),
    field "kv_cache_seq_before" (.integer metrics.kvCacheSeqBefore),
    field "kv_cache_seq_after" (.integer metrics.kvCacheSeqAfter),
    field "kv_cache_bytes" (.integer metrics.kvCacheBytes),
    field "kv_cache_valid" (.flag metrics.kvCacheValid),
    field "model_load_ms" (.double metrics.modelLoadMs),
    field "memory_rss_mb" (.integer metrics.memoryRssMb),
    field "memory_cgroup_current_mb" (.integer metrics.memoryCgroupCurrentMb),
    field "memory_cgroup_limit_mb" (.integer metrics.memoryCgroupLimitMb),
    field "memory_cgroup_percent" (.double metrics.memoryCgroupPercent),
    field "model_file_size_mb" (.integer metrics.modelFileSizeMb),
    field "session_count" (.integer metrics.sessionCount),
    field "session_kv_cache_bytes" (.integer metrics.sessionKvCacheBytes),
    field "process_cpu_percent" (.double metrics.processCpuPercent),
    field "system_cpu_percent" (.double metrics.systemCpuPercent),
    field "process_threads" (.integer metrics.processThreads),
    field "process_context_switches" (document
      [field "voluntary" (.integer metrics.ctxSwitchesVoluntary),
        field "involuntary" (.integer metrics.ctxSwitchesInvoluntary)]),
    field "process_io_delta" (document
      [field "read_bytes" (.integer metrics.ioReadBytesDelta),
        field "write_bytes" (.integer metrics.ioWriteBytesDelta),
        field "read_count" (.integer metrics.ioReadCountDelta),
        field "write_count" (.integer metrics.ioWriteCountDelta)]),
    field "matmul_ms" (.double metrics.matmulMs),
    field "attention_ms" (.double metrics.attentionMs),
    field "ggml_threads" (.integer metrics.ggmlThreads)]

set_option maxRecDepth 3000 in
theorem metrics_text (metrics : StageMetrics) :
    piecesText (metricsPieces metrics) = (metricsDocument metrics).text := by
  simp [metricsPieces, metricsDocument, object_text, joinFields_cons, joinFields_single, piecesText]

/-- What the partition runtime says about its model and its shard. -/
def backendDocument (b : BackendMetadata) : Written := document
  [field "model_loaded" (.flag b.modelLoaded), field "model_path" (.string b.modelPath),
    field "architecture" (.string b.architecture), field "name" (.string b.name),
    field "n_ctx_train" (.integer b.nCtxTrain), field "n_embd" (.integer b.nEmbd),
    field "n_layer" (.integer b.nLayer), field "n_head" (.integer b.nHead),
    field "n_head_kv" (.integer b.nHeadKv), field "n_vocab" (.integer b.nVocab),
    field "shard" (document
      [field "loaded" (.flag b.shardLoaded), field "format" (.string b.format),
        field "format_version" (.integer b.formatVersion),
        field "partition_id" (.string b.partitionId), field "stage_id" (.integer b.stageId),
        field "layers" (integers b.layers), field "owns_embedding" (.flag b.ownsEmbedding),
        field "owns_norm" (.flag b.ownsNorm), field "owns_lm_head" (.flag b.ownsLmHead),
        field "next_partition_id" (.string b.nextPartitionId),
        field "next_stage_url" (.string b.nextStageUrl),
        field "hidden_size" (.integer b.hiddenSize),
        field "source_model" (.string b.sourceModel)]),
    field "sessions" (document [field "count" (.integer b.sessions)])]

set_option maxRecDepth 3000 in
theorem backend_text (b : BackendMetadata) :
    piecesText (backendMetadataPieces b) = (backendDocument b).text := by
  simp [backendMetadataPieces, backendDocument, object_text, joinFields_cons, joinFields_single,
    piecesText]

/-- The fields of an answer before its sampling controls. -/
def headFields (answer : StageAnswer) (serviceName : Bytes) (stageId : ℤ)
    (request : StageRequest) : List Field :=
  [field "ok" (.flag true), field "service" (.string serviceName),
    field "runtime" (.string (ascii "cpp-native-stub")),
    field "backend" (.string answer.metrics.backend),
    field "status" (.string answer.metrics.status),
    field "stage_id" (.integer stageId), field "request_id" (.string request.requestId),
    field "token_index" (.integer request.tokenIndex),
    field "generation_mode" (.string request.generationMode),
    field "input_metadata_bytes" (.integer request.inputMetadataJson.length),
    field "input_tensor_bytes" (.integer request.inputTensor.bytes.length),
    field "output_tensor_bytes" (.integer answer.outputTensor.bytes.length),
    field "is_final_stage" (.flag answer.isFinalStage),
    field "next_token_id" (.integer answer.nextTokenId),
    field "tensor" (document
      [field "dtype" (.string (answerTensor answer request).dtype),
        field "shape" (integers (answerTensor answer request).shape),
        field "byte_order" (.string (answerTensor answer request).byteOrder)]),
    field "feature_flags" (document
      [field "kv_cache_enabled" (.flag request.kvCacheEnabled),
        field "native_stage_chaining_enabled" (.flag request.nativeStageChainingEnabled),
        field "transport_mode" (.string request.transportMode),
        field "activation_precision" (.string request.activationPrecision),
        field "persistent_sessions_enabled" (.flag request.persistentSessionsEnabled),
        field "metadata_level" (.string request.metadataLevel)])]

set_option maxRecDepth 3000 in
theorem head_text (answer : StageAnswer) (serviceName : Bytes) (stageId : ℤ)
    (request : StageRequest) : piecesText (answerHeadPieces answer serviceName stageId request) =
      0x7b :: openFields (headFields answer serviceName stageId request) := by
  simp [answerHeadPieces, headFields, openFields, object_text, joinFields_cons, joinFields_single,
    piecesText]

/-- A field that is only written when it is present. -/
def presentField {α : Type} (name : String) (value : α → Written) (present : Option α)
    (plain : (ascii name).all isPlainByte = true := by decide) : List Field :=
  (present.map fun x => field name (value x) plain).toList

theorem present_text {α : Type} {name : String} (h : IsName (ascii name)) {piece : α → Piece}
    {value : α → Written} (plain : (ascii name).all isPlainByte = true)
    (htext : ∀ x, (piece x).text = (value x).text ++ [44]) (present : Option α) :
    piecesText (presentPieces (keyPiece name h) piece present) =
      openFields (presentField name value present plain) := by
  cases present with
  | none => rfl
  | some x => simp [presentPieces, presentField, openFields, piecesText, htext]

def controlFields (request : StageRequest) : List Field :=
  presentField "temperature" .double request.temperature ++
    (presentField "top_k" .integer request.topK ++
      (presentField "top_p" .double request.topP ++ presentField "seed" .integer request.seed))

theorem controls_text (request : StageRequest) :
    piecesText (controlPieces request) = openFields (controlFields request) := by
  unfold controlPieces controlFields
  rw [piecesText_append, piecesText_append, piecesText_append, openFields_append,
    openFields_append, openFields_append]
  rw [present_text _ (by decide) fun x => doublePiece_text x .comma,
    present_text _ (by decide) fun x => integerPiece_text x .comma,
    present_text _ (by decide) fun x => doublePiece_text x .comma,
    present_text _ (by decide) fun x => integerPiece_text x .comma]

/-- All fields of an answer. -/
def answerFields (response : RuntimeResponse) (backend : Written) (serviceName : Bytes)
    (stageId : ℤ) (request : StageRequest) : List Field :=
  headFields response.answer serviceName stageId request ++ (controlFields request ++
    [field "metrics" (metricsDocument response.metrics), field "backend_metadata" backend])

/-- The chain metrics that a stage writes behind an answer. -/
def chainFields (metrics : ChainMetrics) : List Field :=
  [field "chain_metrics" (document
      [field "compute_ms" (.double metrics.computeMs),
        field "rpc_wall_ms" (.double metrics.rpcWallMs),
        field "true_comm_ms" (.double metrics.trueCommMs),
        field "transport_payload_bytes" (.integer metrics.transportPayloadBytes),
        field "stage_count" (.integer metrics.stageCount)]),
    field "chain_compute_time_ms" (.double metrics.computeMs),
    field "chain_rpc_wall_time_ms" (.double metrics.rpcWallMs),
    field "chain_true_comm_ms" (.double metrics.trueCommMs),
    field "chain_transport_payload_bytes" (.integer metrics.transportPayloadBytes),
    field "chain_stage_count" (.integer metrics.stageCount)]

/-- The last of the chain metrics. -/
def hopsField (metrics : ChainMetrics) : Field :=
  field "chain_hops" (.integer metrics.stageCount)

set_option maxRecDepth 3000 in
theorem chain_text (metrics : ChainMetrics) : piecesText (writtenPieces metrics) =
    openFields (chainFields metrics) ++ ((hopsField metrics).text .compact ++ [0x7d]) := by
  unfold hopsField
  simp [writtenPieces, objectPieces, flatPieces, chainFields, openFields, object_text,
    joinFields_cons, joinFields_single, piecesText]

/-- An answer without its last brace. -/
theorem open_text {response : RuntimeResponse} {backend : Written}
    (hbackend : response.backendText = backend.text) (serviceName : Bytes) (stageId : ℤ)
    (request : StageRequest) : openResponse response serviceName stageId request =
      0x7b :: (openFields (headFields response.answer serviceName stageId request ++
        (controlFields request ++ [field "metrics" (metricsDocument response.metrics)])) ++
          (field "backend_metadata" backend).text .compact) := by
  unfold openResponse responseTail middlePieces
  rw [head_text, piecesText_append, controls_text, piecesText_cons, piecesText_append,
    metrics_text, hbackend, openFields_append, openFields_append]
  simp [openFields, piecesText]

variable {response : RuntimeResponse} {backend : Written} {serviceName : Bytes} {stageId : ℤ}
  {request : StageRequest}

/-- An answer is the document of its fields. -/
theorem answer_text (hbackend : response.backendText = backend.text) :
    runtimeResponseMetadataJson response serviceName stageId request =
      (document (answerFields response backend serviceName stageId request)).text := by
  have hsplit : answerFields response backend serviceName stageId request =
      (headFields response.answer serviceName stageId request ++
        (controlFields request ++ [field "metrics" (metricsDocument response.metrics)])) ++
          [field "backend_metadata" backend] := by
    simp [answerFields]
  unfold runtimeResponseMetadataJson
  rw [hsplit, document_text, open_text hbackend, List.cons_append, List.append_assoc]

/-- An answer with chain metrics behind it is the document of both. -/
theorem merged_text (hbackend : response.backendText = backend.text) (metrics : ChainMetrics) :
    openResponse response serviceName stageId request ++
        piecesText (comma :: writtenPieces metrics) =
      (document (answerFields response backend serviceName stageId request ++
        (chainFields metrics ++ [hopsField metrics]))).text := by
  rw [← List.append_assoc, document_text, open_text hbackend, piecesText_cons, chain_text,
    answerFields, openFields_append, openFields_append, openFields_append, openFields_append,
    openFields_append]
  simp [openFields]

/-- The text of a merge behind any number of others. -/
theorem merge_form {overflow : ℚ → ℕ} {n : ℕ} {front text : Bytes} (hfree : ChainFree front)
    (hend : ∃ inner, front = inner ++ [0x7d]) (h : Merges overflow (front ++ [0x7d]) n text)
    (metrics : StageMetrics) (wallMs : ℚ) (requestBytes responseBytes : ℕ) :
    mergeChainMetrics overflow text metrics wallMs requestBytes responseBytes =
      front ++ piecesText (comma :: writtenPieces (mergeChainMetricsValues metrics
        (extractChainMetricsFromMetadata overflow text) wallMs requestBytes responseBytes)) := by
  unfold mergeChainMetrics
  rcases merges_form hfree hend h with rfl | ⟨old, rfl⟩
  · exact put_removed hend (remove_free hfree)
  · exact put_removed hend (remove_written hfree)

end Metadata

section Results

/-- The number of a double that has one. -/
def doubleValue : Double → ℚ
  | .finite x => x
  | _ => 0

def IsFinite (x : Double) : Prop := ∃ value, x = .finite value

theorem double_text {x : Double} (h : IsFinite x) (mark : Mark) :
    (x.piece mark).text = (Written.double (doubleValue x)).text ++ [mark.byte] := by
  obtain ⟨value, rfl⟩ := h
  rfl

@[simp]
theorem resultKey_text (name : String) (h : IsResultName name) :
    (resultKey name h).text = 34 :: (ascii name ++ [34, 58]) := rfl

/-- All doubles of a result are numbers. -/
structure FiniteResult (result : MeasuredResult) : Prop where
  steps : ∀ step ∈ result.steps,
    IsFinite step.stageHttpElapsedMs ∧ IsFinite step.estimatedTrueCommMs
  computeMs : IsFinite result.aggregateMetrics.computeMs
  rpcWallMs : IsFinite result.aggregateMetrics.rpcWallMs
  trueCommMs : IsFinite result.aggregateMetrics.trueCommMs
  modelLoadMs : IsFinite result.aggregateMetrics.modelLoadMs
  memoryCgroupPercent : IsFinite result.aggregateMetrics.memoryCgroupPercent
  totalLatencyMs : IsFinite result.totalLatencyMs
  tokensPerSecond : IsFinite result.tokensPerSecond

def stepDocument (step : GenerationStepTrace) : Written := document
  [field "token_index" (.integer step.tokenIndex),
    field "generation_mode" (.string step.generationMode),
    field "partition_id" (.string step.partitionId), field "stage_id" (.integer step.stageId),
    field "stage_url" (.string step.stageUrl),
    field "stage_http_status" (.integer step.stageHttpStatus),
    field "stage_http_reason" (.string step.stageHttpReason),
    field "stage_http_elapsed_ms" (.double (doubleValue step.stageHttpElapsedMs)),
    field "stage_metadata" (.string step.stageMetadataJson),
    field "stage_tensor_bytes" (.integer step.stageTensorBytes),
    field "request_body_bytes" (.integer step.requestBodyBytes),
    field "response_body_bytes" (.integer step.responseBodyBytes),
    field "transport_payload_bytes" (.integer step.transportPayloadBytes),
    field "estimated_true_comm_ms" (.double (doubleValue step.estimatedTrueCommMs)),
    field "error_body" (.string step.errorBody)]

def aggregateDocument (metrics : GatewayAggregatedMetrics) : Written := document
  [field "compute_ms" (.double (doubleValue metrics.computeMs)),
    field "rpc_wall_ms" (.double (doubleValue metrics.rpcWallMs)),
    field "true_comm_ms" (.double (doubleValue metrics.trueCommMs)),
    field "tensor_bytes_in" (.integer metrics.tensorBytesIn),
    field "tensor_bytes_out" (.integer metrics.tensorBytesOut),
    field "transport_payload_bytes" (.integer metrics.transportPayloadBytes),
    field "transport_payload_mebibytes"
      (.double (binary64.round metrics.transportPayloadBytes / 2 ^ 20)),
    field "model_load_ms" (.double (doubleValue metrics.modelLoadMs)),
    field "kv_cache_bytes" (.integer metrics.kvCacheBytes),
    field "memory_rss_mb" (.integer metrics.memoryRssMb),
    field "memory_cgroup_current_mb" (.integer metrics.memoryCgroupCurrentMb),
    field "memory_cgroup_limit_mb" (.integer metrics.memoryCgroupLimitMb),
    field "memory_cgroup_percent" (.double (doubleValue metrics.memoryCgroupPercent)),
    field "model_file_size_mb" (.integer metrics.modelFileSizeMb),
    field "session_count" (.integer metrics.sessionCount),
    field "session_kv_cache_bytes" (.integer metrics.sessionKvCacheBytes)]

/-- The document of a result. -/
def resultDocument (result : MeasuredResult) (requestBodyBytes : ℕ) : Written := document
  [field "ok" (.flag result.ok), field "service" (.string (ascii "dli-gateway-cpp")),
    field "runtime" (.string (ascii "cpp-native-routing")),
    field "status" (.string
      (ascii (if result.ok then "partition_graph_complete" else "partition_graph_error"))),
    field "request_id" (.string result.requestId), field "prompt" (.string result.prompt),
    field "tokenizer_backend" (.string result.tokenizerBackend),
    field "prompt_token_count" (.integer result.promptTokenIds.length),
    field "prompt_token_ids" (integers result.promptTokenIds),
    field "generated_text" (.string result.generatedText),
    field "assistant_message" (.string result.generatedText),
    field "generated_token_ids" (integers result.generatedTokenIds),
    field "generated_token_count" (.integer result.generatedTokenCount),
    field "total_latency_ms" (.double (doubleValue result.totalLatencyMs)),
    field "tokens_per_second" (.double (doubleValue result.tokensPerSecond)),
    field "aggregate_metrics" (aggregateDocument result.aggregateMetrics),
    field "termination_reason" (.string result.terminationReason),
    field "error" (.string result.error), field "request_body_bytes" (.integer requestBodyBytes),
    field "step_count" (.integer result.steps.length),
    field "steps" (.array (result.steps.map stepDocument))]

set_option maxRecDepth 3000 in
theorem step_text {step : GenerationStepTrace} (helapsed : IsFinite step.stageHttpElapsedMs)
    (hcomm : IsFinite step.estimatedTrueCommMs) :
    piecesText (stepPieces step) = (stepDocument step).text := by
  simp [stepPieces, stepDocument, object_text, joinFields_cons, joinFields_single, piecesText,
    double_text helapsed, double_text hcomm]

theorem steps_text {steps : List GenerationStepTrace} (h : ∀ step ∈ steps,
    IsFinite step.stageHttpElapsedMs ∧ IsFinite step.estimatedTrueCommMs) :
    piecesText (stepsPieces steps) = joinFields ((steps.map stepDocument).map Written.text) := by
  induction steps with
  | nil => rfl
  | cons step steps ih =>
    have hstep := h step List.mem_cons_self
    have hrest := ih fun step hstep => h step (List.mem_cons_of_mem _ hstep)
    cases steps with
    | nil =>
      rw [List.map_singleton, List.map_singleton, joinFields_single]
      exact step_text hstep.1 hstep.2
    | cons next steps =>
      rw [stepsPieces, piecesText_append, step_text hstep.1 hstep.2, piecesText_cons, hrest]
      exact (joinFields_cons _ _ _).symm

set_option maxRecDepth 3000 in
theorem aggregate_text {result : MeasuredResult} (h : FiniteResult result) :
    piecesText (aggregatePieces result.aggregateMetrics) =
      (aggregateDocument result.aggregateMetrics).text ++ [44] := by
  simp [aggregatePieces, aggregateDocument, object_text, joinFields_cons, joinFields_single,
    piecesText, double_text h.computeMs, double_text h.rpcWallMs, double_text h.trueCommMs,
    double_text h.modelLoadMs, double_text h.memoryCgroupPercent]

theorem array_text (items : List Written) :
    (Written.array items).text = 91 :: (joinFields (items.map Written.text) ++ [93]) := rfl

theorem plainPiece_text (text : Bytes) (h : 34 ∉ text) : (Piece.plain text h).text = text := rfl

set_option maxRecDepth 3000 in
/-- A result is written as its document if its doubles are numbers. -/
theorem result_text {result : MeasuredResult} (h : FiniteResult result) (requestBodyBytes : ℕ) :
    generationLoopResultJson result requestBodyBytes =
      (resultDocument result requestBodyBytes).text := by
  unfold generationLoopResultJson resultPieces resultFieldPieces resultDocument
  rw [object_text, piecesText_cons, piecesText_cons, piecesText_cons, piecesText_append,
    piecesText_append, piecesText_append, piecesText_append, aggregate_text h, steps_text h.steps]
  simp [joinFields_cons, joinFields_single, piecesText, double_text h.totalLatencyMs,
    double_text h.tokensPerSecond, array_text, plainPiece_text]

end Results

end LayerInference.AnswerDocuments
