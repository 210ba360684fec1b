import LayerInference.GenerationLoop
import LayerInference.HttpMessages
import LayerInference.MetadataTexts

/-!
# The answer to a generation and its status

The gateway writes the whole result as one JSON text and searches it for the
failure marker to choose the status. The text holds prompts, errors and stage
metadata of any bytes. They are escaped, so the marker stands in the text exactly
when the flag of the result was written as `false`.
-/

namespace LayerInference.ResultTexts

open ByteStrings TextStreams JsonText QuotedTexts JsonFields ManifestTexts NumberTexts JsonPieces
  GenerationLoop HttpMessages MetadataTexts

section Writers

/-- A double as a stream can have it. -/
inductive Double where
  | finite (x : ℚ)
  | infinite (negative : Bool)
  | nan (negative : Bool)

def Double.text : Double → Bytes
  | .finite x => streamDouble x
  | .infinite negative => if negative then ascii "-inf" else ascii "inf"
  | .nan negative => if negative then ascii "-nan" else ascii "nan"

def Double.piece (x : Double) (mark : Mark) : Piece :=
  .plain (x.text ++ [mark.byte]) (by
    rw [List.mem_append, not_or]
    refine ⟨?_, by cases mark <;> decide⟩
    cases x with
    | finite x => exact quote_not_mem_literal (streamLiteral_spec x).1
    | infinite negative => cases negative <;> decide
    | nan negative => cases negative <;> decide)

/-- One call of a stage. -/
structure GenerationStepTrace where
  tokenIndex : ℤ := 0
  generationMode : Bytes := []
  partitionId : Bytes := []
  stageId : ℤ := 0
  stageUrl : Bytes := []
  stageHttpStatus : ℤ := 0
  stageHttpReason : Bytes := []
  stageHttpElapsedMs : Double := .finite 0
  stageMetadataJson : Bytes := []
  stageTensorBytes : ℕ := 0
  requestBodyBytes : ℕ := 0
  responseBodyBytes : ℕ := 0
  transportPayloadBytes : ℕ := 0
  estimatedTrueCommMs : Double := .finite 0
  errorBody : Bytes := []

structure GatewayAggregatedMetrics where
  computeMs : Double := .finite 0
  rpcWallMs : Double := .finite 0
  trueCommMs : Double := .finite 0
  tensorBytesIn : ℕ := 0
  tensorBytesOut : ℕ := 0
  transportPayloadBytes : ℕ := 0
  modelLoadMs : Double := .finite 0
  kvCacheBytes : ℕ := 0
  memoryRssMb : ℕ := 0
  memoryCgroupCurrentMb : ℕ := 0
  memoryCgroupLimitMb : ℕ := 0
  memoryCgroupPercent : Double := .finite 0
  modelFileSizeMb : ℕ := 0
  sessionCount : ℕ := 0
  sessionKvCacheBytes : ℕ := 0

/-- The result of the loop with its measurements. -/
structure MeasuredResult extends GenerationLoopResult where
  steps : List GenerationStepTrace := []
  aggregateMetrics : GatewayAggregatedMetrics := {}
  totalLatencyMs : Double := .finite 0
  tokensPerSecond : Double := .finite 0

/-- A name that the answer gives to a field. -/
def IsResultName (name : String) : Prop := IsName (ascii name)

instance (name : String) : Decidable (IsResultName name) :=
  inferInstanceAs (Decidable (IsName (ascii name)))

/-- A key of the answer. -/
abbrev resultKey (name : String) (h : IsResultName name := by decide) : Piece := keyPiece name h

def stepPieces (step : GenerationStepTrace) : List Piece :=
  [openBrace,
    resultKey "token_index", integerPiece step.tokenIndex .comma,
    resultKey "generation_mode", .string step.generationMode .comma,
    resultKey "partition_id", .string step.partitionId .comma,
    resultKey "stage_id", integerPiece step.stageId .comma,
    resultKey "stage_url", .string step.stageUrl .comma,
    resultKey "stage_http_status", integerPiece step.stageHttpStatus .comma,
    resultKey "stage_http_reason", .string step.stageHttpReason .comma,
    resultKey "stage_http_elapsed_ms", step.stageHttpElapsedMs.piece .comma,
    resultKey "stage_metadata", .string step.stageMetadataJson .comma,
    resultKey "stage_tensor_bytes", integerPiece step.stageTensorBytes .comma,
    resultKey "request_body_bytes", integerPiece step.requestBodyBytes .comma,
    resultKey "response_body_bytes", integerPiece step.responseBodyBytes .comma,
    resultKey "transport_payload_bytes", integerPiece step.transportPayloadBytes .comma,
    resultKey "estimated_true_comm_ms", step.estimatedTrueCommMs.piece .comma,
    resultKey "error_body", .string step.errorBody .close]

/-- The steps with commas between them. -/
def stepsPieces : List GenerationStepTrace → List Piece
  | [] => []
  | [step] => stepPieces step
  | step :: next :: steps => stepPieces step ++ comma :: stepsPieces (next :: steps)

def aggregatePieces (metrics : GatewayAggregatedMetrics) : List Piece :=
  [openBrace,
    resultKey "compute_ms", metrics.computeMs.piece .comma,
    resultKey "rpc_wall_ms", metrics.rpcWallMs.piece .comma,
    resultKey "true_comm_ms", metrics.trueCommMs.piece .comma,
    resultKey "tensor_bytes_in", integerPiece metrics.tensorBytesIn .comma,
    resultKey "tensor_bytes_out", integerPiece metrics.tensorBytesOut .comma,
    resultKey "transport_payload_bytes", integerPiece metrics.transportPayloadBytes .comma,
    resultKey "transport_payload_mebibytes",
    doublePiece (binary64.round metrics.transportPayloadBytes / 2 ^ 20) .comma,
    resultKey "model_load_ms", metrics.modelLoadMs.piece .comma,
    resultKey "kv_cache_bytes", integerPiece metrics.kvCacheBytes .comma,
    resultKey "memory_rss_mb", integerPiece metrics.memoryRssMb .comma,
    resultKey "memory_cgroup_current_mb", integerPiece metrics.memoryCgroupCurrentMb .comma,
    resultKey "memory_cgroup_limit_mb", integerPiece metrics.memoryCgroupLimitMb .comma,
    resultKey "memory_cgroup_percent", metrics.memoryCgroupPercent.piece .comma,
    resultKey "model_file_size_mb", integerPiece metrics.modelFileSizeMb .comma,
    resultKey "session_count", integerPiece metrics.sessionCount .comma,
    resultKey "session_kv_cache_bytes", integerPiece metrics.sessionKvCacheBytes .close, comma]

/-- The fields behind the flag, up to the steps. -/
def resultFieldPieces (result : MeasuredResult) (requestBodyBytes : ℕ) : List Piece :=
  [resultKey "service", .string (ascii "dli-gateway-cpp") .comma,
    resultKey "runtime", .string (ascii "cpp-native-routing") .comma,
    resultKey "status",
    .string (ascii (if result.ok then "partition_graph_complete" else "partition_graph_error"))
      .comma,
    resultKey "request_id", .string result.requestId .comma,
    resultKey "prompt", .string result.prompt .comma,
    resultKey "tokenizer_backend", .string result.tokenizerBackend .comma,
    resultKey "prompt_token_count", integerPiece result.promptTokenIds.length .comma,
    resultKey "prompt_token_ids", shapePiece result.promptTokenIds .comma,
    resultKey "generated_text", .string result.generatedText .comma,
    resultKey "assistant_message", .string result.generatedText .comma,
    resultKey "generated_token_ids", shapePiece result.generatedTokenIds .comma,
    resultKey "generated_token_count", integerPiece result.generatedTokenCount .comma,
    resultKey "total_latency_ms", result.totalLatencyMs.piece .comma,
    resultKey "tokens_per_second", result.tokensPerSecond.piece .comma,
    resultKey "aggregate_metrics"] ++
  (aggregatePieces result.aggregateMetrics ++
    [resultKey "termination_reason", .string result.terminationReason .comma,
      resultKey "error", .string result.error .comma,
      resultKey "request_body_bytes", integerPiece requestBodyBytes .comma,
      resultKey "step_count", integerPiece result.steps.length .comma,
      resultKey "steps", .plain [91] (by decide)])

def resultPieces (result : MeasuredResult) (requestBodyBytes : ℕ) : List Piece :=
  openBrace :: resultKey "ok" :: flagPiece result.ok .comma ::
    (resultFieldPieces result requestBodyBytes ++
      (stepsPieces result.steps ++ [.plain [93, 0x7d] (by decide)]))

def generationLoopResultJson (result : MeasuredResult) (requestBodyBytes : ℕ) : Bytes :=
  piecesText (resultPieces result requestBodyBytes)

end Writers

section Status

/-- The answer to a generation that wrote a result, or raised an error instead. -/
def answerGenerate (written : Except Bytes Bytes) : HttpResponse :=
  match written with
  | .ok json =>
    if (find (ascii "\"ok\":false") json).isSome then
      makeJsonResponse 502 (ascii "Bad Gateway") json
    else makeJsonResponse 200 (ascii "OK") json
  | .error message => makeJsonResponse 502 (ascii "Bad Gateway") (httpErrorJson message)

/-- The value `false` at the start of a text. -/
def falseAt (text : Bytes) : Option Unit :=
  if (ascii "false").isPrefixOf text then some () else none

/-- The marker is only where a field search for a false flag matches. -/
theorem marker_of_infix {text : Bytes} (h : ascii "\"ok\":false" <:+: text) :
    searchField (ascii "ok") falseAt text ≠ none := by
  obtain ⟨front, back, hsplit⟩ := h
  intro hnone
  rw [List.append_assoc] at hsplit
  have hplace := firstMatch_none hnone hsplit.symm (List.cons_ne_nil _ _)
  change (some () : Option Unit) = none at hplace
  cases hplace

theorem behind_stepsPieces (steps : List GenerationStepTrace) :
    behind (ascii "ok") (stepsPieces steps) = none := by
  induction steps with
  | nil => rfl
  | cons step steps ih =>
    have hstep : behind (ascii "ok") (stepPieces step) = none := rfl
    cases steps with
    | nil => exact hstep
    | cons next steps =>
      rw [stepsPieces, behind_append hstep]
      exact ih

/-- The flag is the only field of its name. -/
theorem behind_fields (result : MeasuredResult) (requestBodyBytes : ℕ) :
    behind (ascii "ok") (resultFieldPieces result requestBodyBytes ++
      (stepsPieces result.steps ++ [.plain [93, 0x7d] (by decide)])) = none := by
  have hfields : behind (ascii "ok") (resultFieldPieces result requestBodyBytes) = none := rfl
  rw [behind_append hfields, behind_append (behind_stepsPieces result.steps)]
  rfl

/-- The text has the failure marker exactly when the flag is not set. -/
theorem marker_iff (result : MeasuredResult) (requestBodyBytes : ℕ) :
    (find (ascii "\"ok\":false") (generationLoopResultJson result requestBodyBytes)).isSome = true ↔
      result.ok = false := by
  rw [find_isSome_iff]
  unfold generationLoopResultJson
  cases hok : result.ok with
  | false =>
    have htext : piecesText (resultPieces result requestBodyBytes) =
        [0x7b] ++ (ascii "\"ok\":false" ++ 44 :: piecesText (resultFieldPieces result
          requestBodyBytes ++ (stepsPieces result.steps ++ [.plain [93, 0x7d] (by decide)]))) := by
      rw [resultPieces, hok]
      rfl
    exact iff_of_true (htext ▸ List.infix_append' _ _ _) rfl
  | true =>
    refine iff_of_false (fun hinfix => marker_of_infix hinfix ?_) (by decide)
    have hfound : behind (ascii "ok") (resultPieces result requestBodyBytes) =
        some (flagPiece true .comma :: (resultFieldPieces result requestBodyBytes ++
          (stepsPieces result.steps ++ [.plain [93, 0x7d] (by decide)]))) := by
      rw [resultPieces, hok]
      rfl
    have hvalue : ∀ rest, falseAt (skipSpaces (piecesText (flagPiece true .comma :: rest))) = none :=
      fun rest => rfl
    rw [searchField_pieces (by decide), hfound]
    dsimp only
    rw [hvalue]
    exact searchField_none (by decide) _ (behind_fields result requestBodyBytes)

/-- The gateway answers 200 exactly to a result that is marked as one, and 502 to
every other result. -/
theorem status_iff (result : MeasuredResult) (requestBodyBytes : ℕ) :
    ((answerGenerate (.ok (generationLoopResultJson result requestBodyBytes))).statusCode = 200 ↔
        result.ok = true) ∧
      ((answerGenerate (.ok (generationLoopResultJson result requestBodyBytes))).statusCode = 502 ↔
        result.ok = false) := by
  have hmarker := marker_iff result requestBodyBytes
  cases hok : result.ok with
  | false =>
    rw [hok] at hmarker
    have hanswer : answerGenerate (.ok (generationLoopResultJson result requestBodyBytes)) =
        makeJsonResponse 502 (ascii "Bad Gateway")
          (generationLoopResultJson result requestBodyBytes) := if_pos (hmarker.mpr rfl)
    rw [hanswer]
    exact ⟨iff_of_false (by decide : (502 : ℤ) ≠ 200) (by decide), iff_of_true rfl rfl⟩
  | true =>
    rw [hok] at hmarker
    have hanswer : answerGenerate (.ok (generationLoopResultJson result requestBodyBytes)) =
        makeJsonResponse 200 (ascii "OK") (generationLoopResultJson result requestBodyBytes) :=
      if_neg fun hfound => absurd (hmarker.mp hfound) (by decide)
    rw [hanswer]
    exact ⟨iff_of_true rfl rfl, iff_of_false (by decide : (200 : ℤ) ≠ 502) (by decide)⟩

end Status

end LayerInference.ResultTexts
