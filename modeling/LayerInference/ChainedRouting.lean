import LayerInference.GenerationLaw
import LayerInference.RuntimeTexts
import LayerInference.StagePipeline

/-!
# Two ways over the same stages

Without chaining the gateway carries every frame from stage to stage itself; with
chaining each stage hands its answer on, and merges its metrics into what comes
back. Here frames keep their metadata as text. Both ways run the stages in the same
order on requests that differ only in what no runtime looks at, so a generation ends
the same way. What is left to show is that the metrics do not hide the token.
-/

namespace LayerInference.ChainedRouting

open ByteStrings FallibleRuns RunSimulation JsonText Rounding NumberTexts TensorAbi FrameTensors
  FrameProtocol PartitionRouting GenerationLoop StagePipeline MetadataTexts MetadataReader
  MetadataRoundTrips MetadataHops StageChainMetrics RuntimeTexts

variable {σ : Type}

section Stages

/-- A stage: its names, the stage behind it, and its runtime. The integers of an
answer have the types of the source, and the runtime looks neither at the chaining
flag nor at the text that its request came from. -/
structure StageProcess (σ : Type) where
  serviceName : Bytes
  stageId : ℤ
  nextStageUrl : Bytes
  forward : StageRequest → EStateM Bytes σ RuntimeTexts.RuntimeResponse
  token : ∀ request s response s', forward request s = .ok response s' →
    IsInt response.nextTokenId
  shape : ∀ request s response s', forward request s = .ok response s' →
    (∀ d ∈ request.inputTensor.metadata.shape, -2 ^ 63 ≤ d ∧ d < 2 ^ 63) →
      ∀ d ∈ response.outputTensor.metadata.shape, -2 ^ 63 ≤ d ∧ d < 2 ^ 63
  blind : ∀ request flag text,
    forward { request with
      nativeStageChainingEnabled := flag
      inputMetadataJson := text } = forward request

/-- The stages, where the URLs lead, the times that are measured for the calls
between stages, and the conversions of doubles outside the range of integers. -/
structure Cluster (σ : Type) where
  stages : ℕ → StageProcess σ
  stageAt : Bytes → ℕ
  rpcWallMs : ℕ → ℚ
  overflow : ℚ → ℤ
  overflowCount : ℚ → ℕ

/-- The states of the runtimes, and the number of calls between stages so far. -/
structure ClusterState (σ : Type) where
  states : ℕ → σ
  calls : ℕ := 0

/-- Run the runtime of one stage. -/
def Cluster.serve (c : Cluster σ) (i : ℕ) (request : StageRequest) :
    EStateM Bytes (ClusterState σ) RuntimeTexts.RuntimeResponse :=
  onPart (fun s => s.states i) (fun s t => { s with states := Function.update s.states i t })
    ((c.stages i).forward request)

/-- Read a frame and run the runtime on its request. -/
def Cluster.answer (c : Cluster σ) (i : ℕ) (frame : DliFrame) :
    EStateM Bytes (ClusterState σ) (StageRequest × RuntimeTexts.RuntimeResponse) := do
  let parsed ← stateless (parseRequestMetadata c.overflow frame.metadataJson)
  let response ← c.serve i (makeRuntimeRequest frame parsed)
  pure (makeRuntimeRequest frame parsed, response)

/-- The frame of an answer. -/
def Cluster.output (c : Cluster σ) (i : ℕ) (request : StageRequest)
    (response : RuntimeTexts.RuntimeResponse) : DliFrame :=
  ⟨RuntimeTexts.runtimeResponseMetadataJson response (c.stages i).serviceName
    (c.stages i).stageId request, response.outputTensor.bytes⟩

/-- An answer without a frame. -/
def errorAnswer (httpStatus : ℕ) (message : Bytes) : StageClientResult DliFrame :=
  ⟨httpStatus, ⟨[], []⟩, httpErrorJson message⟩

/-- The answer of the stage behind with the metrics of this one. -/
def Cluster.merged (c : Cluster σ) (metrics : StageMetrics) (calls : ℕ) (output next : DliFrame) :
    DliFrame :=
  { next with
    metadataJson := mergeChainMetrics c.overflowCount next.metadataJson metrics
      (c.rpcWallMs calls) (frameBytes output).length (frameBytes next).length }

/-- Answer a frame at stage `i`. Frames within their limits reach the other side as
they are, and no variable of the environment overrides the flag. With chaining a
frame visits at most `fuel` further stages. -/
def Cluster.handleForwardBinary (c : Cluster σ) :
    ℕ → ℕ → DliFrame → EStateM Bytes (ClusterState σ) (StageClientResult DliFrame)
  | fuel, i, frame => fun s =>
    match c.answer i frame s with
    | .error message s => .ok (errorAnswer 400 message) s
    | .ok (request, response) s =>
      let output := c.output i request response
      if request.nativeStageChainingEnabled && !response.isFinalStage &&
          !(c.stages i).nextStageUrl.isEmpty then
        match fuel with
        | 0 => .error (ascii "request did not complete") s
        | fuel + 1 =>
          match c.handleForwardBinary fuel (c.stageAt (c.stages i).nextStageUrl) output s with
          | .error message s => .ok (errorAnswer 400 message) s
          | .ok next s =>
            if ¬isSuccess next.httpStatus then
              .ok (errorAnswer 502 (ascii "next native stage failed with HTTP " ++
                decimalNat next.httpStatus)) { s with calls := s.calls + 1 }
            else
              .ok ⟨200, c.merged response.metrics s.calls output next.responseFrame, []⟩
                { s with calls := s.calls + 1 }
      else .ok ⟨200, output, []⟩ s

/-- The client of the gateway. -/
def Cluster.client (c : Cluster σ) (fuel : ℕ) : StageClient (ClusterState σ) DliFrame :=
  fun url frame => c.handleForwardBinary fuel (c.stageAt url) frame

end Stages

section Gateway

/-- The metadata of a pipeline call. -/
def requestMetadata (settings : GatewaySettings ℚ) (requestId : Bytes) (call : PipelineCall) :
    RequestMetadata where
  requestId := requestId
  tokenIndex := toInt32 call.tokenIndex
  generationMode := call.generationMode
  dtype := ascii "int64"
  shape := [1, toInt64 call.tokens.length]
  activationPrecision := settings.activationPrecision
  persistentSessionsEnabled := settings.persistentSessionsEnabled
  nativeStageChainingEnabled := settings.nativeStageChainingEnabled
  minNewTokens := settings.loop.minNewTokens
  applyChatTemplate := settings.loop.applyChatTemplate
  metadataLevel := settings.metadataLevel
  temperature := settings.temperature
  topK := settings.topK
  topP := settings.topP
  seed := settings.seed

/-- The frame of a pipeline call. -/
def callFrame (settings : GatewaySettings ℚ) (requestId : Bytes) (call : PipelineCall) : DliFrame :=
  ⟨requestMetadataJson (requestMetadata settings requestId call), int64TokensToBytes call.tokens⟩

/-- The token of the answer that ends the route. -/
def nextTokenIdFromTerminalResponse (overflow : ℚ → ℤ) (result : StageClientResult DliFrame) :
    Except Bytes ℤ :=
  if result.responseFrame.metadataJson.isEmpty then
    .error (ascii "terminal partition returned empty metadata")
  else do
    let nextTokenId ← (parseRequestMetadata overflow result.responseFrame.metadataJson).map
      ParsedRequestMetadata.nextTokenId
    match nextTokenId with
    | none => .error (ascii "terminal partition did not return a valid next_token_id")
    | some token =>
      if token < 0 then .error (ascii "terminal partition did not return a valid next_token_id")
      else .ok token

/-- The routing part of the settings. -/
def routeConfig (settings : GatewaySettings ℚ) (partitions : List PartitionNodeConfig) :
    RouteConfig :=
  ⟨settings.firstStageUrl, partitions, settings.nativeStageChainingEnabled⟩

/-- The pipeline of one generation. -/
def Cluster.pipeline (c : Cluster σ) (settings : GatewaySettings ℚ)
    (partitions : List PartitionNodeConfig) (requestId : Bytes) :
    Pipeline (ClusterState σ) (StageClientResult DliFrame) where
  call call := forwardThroughPartitionGraph (routeConfig settings partitions)
    (c.client partitions.length) (callFrame settings requestId call)
  nextTokenId := nextTokenIdFromTerminalResponse c.overflow

/-- One generation on the cluster. -/
def Cluster.generate (c : Cluster σ) (settings : GatewaySettings ℚ)
    (partitions : List PartitionNodeConfig) (tokenizer : Tokenizer) (requestId prompt : Bytes)
    (maxNewTokens : ℤ) (start : ClusterState σ) : LoopState (ClusterState σ) :=
  runStubGeneration settings.loop tokenizer (c.pipeline settings partitions requestId) requestId
    prompt maxNewTokens start

end Gateway

section Twins

variable {c : Cluster σ} {overflow : ℚ → ℤ}

/-- What is read with another chaining flag. -/
def withChaining (flag : Bool) (parsed : ParsedRequestMetadata) : ParsedRequestMetadata :=
  { parsed with nativeStageChainingEnabled := flag }

/-- Integers that fit the types of the request. -/
structure ParsedFits (parsed : ParsedRequestMetadata) : Prop where
  tokenIndex : IsInt parsed.tokenIndex
  topK : ∀ k ∈ parsed.topK, IsInt k
  shape : ∀ d ∈ parsed.tensor.shape, -2 ^ 63 ≤ d ∧ d < 2 ^ 63

/-- Two frames that are read as one request without chaining and with it, or that
are both refused. -/
structure Twins (overflow : ℚ → ℤ) (frame frame' : DliFrame) : Prop where
  bytes : frame.tensorBytes = frame'.tensorBytes
  read : ∃ result, parseRequestMetadata overflow frame.metadataJson =
      Except.map (withChaining false) result ∧
    parseRequestMetadata overflow frame'.metadataJson = Except.map (withChaining true) result ∧
    ∀ parsed, result = .ok parsed → ParsedFits parsed

theorem readLate_withChaining (flag : Bool) (fields : ParsedRequestMetadata) (text : Bytes) :
    readLate overflow (withChaining flag fields) text =
      (readLate overflow fields text).map (withChaining flag) := by
  unfold readLate
  cases extractDoubleField text (ascii "temperature") with
  | error message => rfl
  | ok temperature =>
    cases extractIntField text (ascii "top_k") with
    | error message => rfl
    | ok topK =>
      cases extractDoubleField text (ascii "top_p") with
      | error message => rfl
      | ok topP => cases extractDoubleField text (ascii "seed") <;> rfl

theorem readControls_withChaining (flag : Bool) (fields : ParsedRequestMetadata)
    (temperature topP seed : Option ℚ) :
    readControls overflow (withChaining flag fields) temperature topP seed =
      (readControls overflow fields temperature topP seed).map (withChaining flag) := by
  unfold readControls
  cases readOptional (ascii "temperature") temperature with
  | error message => rfl
  | ok temperature =>
    cases readOptional (ascii "top_p") topP with
    | error message => rfl
    | ok topP => cases readOptional (ascii "seed") seed <;> rfl

/-- The late fields are read after the others, and fit their types. -/
theorem readLate_fits {fields parsed : ParsedRequestMetadata} {text : Bytes}
    (hindex : IsInt fields.tokenIndex)
    (hshape : ∀ d ∈ fields.tensor.shape, -2 ^ 63 ≤ d ∧ d < 2 ^ 63)
    (h : readLate overflow fields text = .ok parsed) : ParsedFits parsed := by
  unfold readLate at h
  obtain ⟨temperature, -, h⟩ := ok_of_bind h
  obtain ⟨topK, htopK, h⟩ := ok_of_bind h
  obtain ⟨topP, -, h⟩ := ok_of_bind h
  obtain ⟨seed, -, h⟩ := ok_of_bind h
  cases h
  exact ⟨hindex, extractIntField_range htopK, hshape⟩

theorem readControls_fits {fields parsed : ParsedRequestMetadata}
    {temperature topP seed : Option ℚ} (hfields : ParsedFits fields)
    (h : readControls overflow fields temperature topP seed = .ok parsed) : ParsedFits parsed := by
  unfold readControls at h
  obtain ⟨temperature, -, h⟩ := ok_of_bind h
  obtain ⟨topP, -, h⟩ := ok_of_bind h
  obtain ⟨seed, -, h⟩ := ok_of_bind h
  cases h
  exact ⟨hfields.tokenIndex, hfields.topK, hfields.shape⟩

/-- A request as two frames read it. -/
structure TwinRequests (request request' : StageRequest) : Prop where
  plain : request.nativeStageChainingEnabled = false
  same : request' = { request with
    nativeStageChainingEnabled := true
    inputMetadataJson := request'.inputMetadataJson }
  tokenIndex : IsInt request.tokenIndex
  topK : ∀ k ∈ request.topK, IsInt k
  shape : ∀ d ∈ request.inputTensor.metadata.shape, -2 ^ 63 ≤ d ∧ d < 2 ^ 63

theorem twinRequests {frame frame' : DliFrame} {parsed : ParsedRequestMetadata}
    (hbytes : frame.tensorBytes = frame'.tensorBytes) (hfits : ParsedFits parsed) :
    TwinRequests (makeRuntimeRequest frame (withChaining false parsed))
      (makeRuntimeRequest frame' (withChaining true parsed)) where
  plain := rfl
  same := by
    unfold makeRuntimeRequest withChaining
    rw [hbytes]
  tokenIndex := hfits.tokenIndex
  topK := hfits.topK
  shape := hfits.shape

variable {request request' : StageRequest} {response : RuntimeTexts.RuntimeResponse} {i : ℕ}

theorem TwinRequests.chaining (h : TwinRequests request request') :
    request'.nativeStageChainingEnabled = true := by
  rw [h.same]

theorem TwinRequests.controls (h : TwinRequests request request') :
    controlPieces request' = controlPieces request := by
  rw [h.same]
  rfl

/-- An answer fits if the runtime keeps to its types. -/
theorem TwinRequests.answerFits (h : TwinRequests request request')
    (htoken : IsInt response.nextTokenId)
    (hshape : ∀ d ∈ response.outputTensor.metadata.shape, -2 ^ 63 ≤ d ∧ d < 2 ^ 63) :
    AnswerFits response.answer request ∧ AnswerFits response.answer request' := by
  have htensor : ∀ d ∈ (answerTensor response.answer request).shape,
      -2 ^ 63 ≤ d ∧ d < 2 ^ 63 := by
    unfold answerTensor
    split
    · exact h.shape
    · exact hshape
  have hfits : AnswerFits response.answer request := ⟨h.tokenIndex, htoken, h.topK, htensor⟩
  refine ⟨hfits, ?_⟩
  rw [h.same]
  exact ⟨hfits.tokenIndex, hfits.nextTokenId, hfits.topK, hfits.shape⟩

/-- The answers to twin requests are twins. -/
theorem twins_output (h : TwinRequests request request') (htoken : IsInt response.nextTokenId)
    (hshape : ∀ d ∈ response.outputTensor.metadata.shape, -2 ^ 63 ≤ d ∧ d < 2 ^ 63) :
    Twins c.overflow (c.output i request response) (c.output i request' response) := by
  obtain ⟨hfits, hfits'⟩ := h.answerFits htoken hshape
  have htail : responseTail response request' = responseTail response request := by
    unfold responseTail middlePieces
    rw [h.controls]
  have hfields : answerFields response.answer request =
      withChaining false (answerFields response.answer request) := by
    have hflag : (answerFields response.answer request).nativeStageChainingEnabled = false :=
      h.plain
    rw [withChaining, ← hflag]
  have hfields' : answerFields response.answer request' =
      withChaining true (answerFields response.answer request) := by
    rw [h.same]
    rfl
  refine ⟨rfl, readLate c.overflow (answerFields response.answer request)
    (responseTail response request ++ [0x7d]), ?_, ?_, ?_⟩
  · unfold Cluster.output RuntimeTexts.runtimeResponseMetadataJson
    rw [parse_response c.overflow hfits, ← readLate_withChaining, ← hfields]
  · unfold Cluster.output RuntimeTexts.runtimeResponseMetadataJson
    rw [parse_response c.overflow hfits', ← readLate_withChaining, ← hfields', htail]
  · exact fun parsed hparsed => readLate_fits hfits.tokenIndex hfits.shape hparsed

theorem toInt32_range (value : ℤ) : IsInt (toInt32 value) := by
  have hlow := @Int.le_bmod value (2 ^ 32) (by decide)
  have hhigh := @Int.bmod_lt value (2 ^ 32) (by decide)
  norm_num at hlow hhigh
  exact ⟨hlow, hhigh⟩

theorem toInt64_range (value : ℤ) : -2 ^ 63 ≤ toInt64 value ∧ toInt64 value < 2 ^ 63 := by
  have hlow := @Int.le_bmod value (2 ^ 64) (by decide)
  have hhigh := @Int.bmod_lt value (2 ^ 64) (by decide)
  norm_num at hlow hhigh
  exact ⟨hlow, hhigh⟩

theorem requestMetadata_fits {settings : GatewaySettings ℚ} (htopK : IsInt settings.topK)
    (requestId : Bytes) (call : PipelineCall) :
    RequestMetadata.Fits (requestMetadata settings requestId call) := by
  have hindex : IsInt (toInt32 call.tokenIndex) := toInt32_range _
  have hshape : ∀ d ∈ [1, toInt64 call.tokens.length], -2 ^ 63 ≤ d ∧ d < 2 ^ 63 :=
    List.forall_mem_cons.mpr ⟨by norm_num, List.forall_mem_singleton.mpr (toInt64_range _)⟩
  unfold requestMetadata
  constructor
  · dsimp only
    exact hindex
  · dsimp only
    exact htopK
  · dsimp only
    exact hshape

theorem requestFields_fits {m : RequestMetadata} (h : RequestMetadata.Fits m) :
    ParsedFits (requestFields m) where
  tokenIndex := h.tokenIndex
  topK := fun _ hk => Option.some.inj hk ▸ h.topK
  shape := h.shape

theorem requestMetadata_withChaining (settings : GatewaySettings ℚ) (requestId : Bytes)
    (call : PipelineCall) (flag : Bool) :
    requestMetadata { settings with nativeStageChainingEnabled := flag } requestId call =
      { requestMetadata settings requestId call with nativeStageChainingEnabled := flag } := by
  unfold requestMetadata
  dsimp only

theorem requestFields_withChaining (m : RequestMetadata) (flag : Bool) :
    requestFields { m with nativeStageChainingEnabled := flag } =
      withChaining flag (requestFields m) := rfl

/-- The frames of one pipeline call without chaining and with it. -/
theorem twins_callFrame {settings : GatewaySettings ℚ} (htopK : IsInt settings.topK)
    (requestId : Bytes) (call : PipelineCall) :
    Twins overflow (callFrame { settings with nativeStageChainingEnabled := false } requestId call)
      (callFrame { settings with nativeStageChainingEnabled := true } requestId call) := by
  have hfits := requestMetadata_fits htopK requestId call
  generalize hm : requestMetadata settings requestId call = m at hfits
  have hparse : ∀ flag, parseRequestMetadata overflow
      (callFrame { settings with nativeStageChainingEnabled := flag } requestId call).metadataJson =
        (readControls overflow (requestFields m) (some (sixDigits.round m.temperature))
          (m.topP.map (roundTo (10 ^ (-6 : ℤ)))) (m.seed.map Int.cast)).map
            (withChaining flag) := by
    intro flag
    have hflag : RequestMetadata.Fits { m with nativeStageChainingEnabled := flag } :=
      ⟨hfits.tokenIndex, hfits.topK, hfits.shape⟩
    rw [← readControls_withChaining, ← requestFields_withChaining]
    unfold callFrame
    rw [requestMetadata_withChaining, hm]
    exact parse_request overflow hflag
  exact ⟨rfl, _, hparse false, hparse true,
    fun parsed hparsed => readControls_fits (requestFields_fits hfits) hparsed⟩

end Twins

section Simulation

variable {c : Cluster σ} {config : RouteConfig}

/-- A cluster that runs the partitions of a configuration in their order. -/
structure Routed (c : Cluster σ) (config : RouteConfig) : Prop where
  nonempty : config.partitions ≠ []
  addresses : Addresses config c.stageAt
  configured : ∀ i partition, config.partitions[i]? = some partition →
    (c.stages i).nextStageUrl = partition.nextStageUrl
  inner : ∀ partition ∈ config.partitions.dropLast,
    partition.nextStageUrl ≠ [] ∧ partition.components.lmHead = false
  last : ∀ partition ∈ config.partitions.getLast?, partition.nextStageUrl = []
  final : ∀ i, i < config.partitions.length → ∀ request s response s',
    (c.stages i).forward request s = .ok response s' →
      (response.isFinalStage = true ↔ i + 1 = config.partitions.length)

/-- The frame of the last stage, and what the stages before it made of its twin. -/
inductive Answered (c : Cluster σ) (last merges : ℕ) (frame frame' : DliFrame) : Prop where
  | intro (request request' : StageRequest) (response : RuntimeTexts.RuntimeResponse) (s s' : σ)
      (forwarded : (c.stages last).forward request s = .ok response s')
      (twins : TwinRequests request request')
      (plain : frame.metadataJson = (c.output last request response).metadataJson)
      (merged : Merges c.overflowCount (c.output last request' response).metadataJson merges
        frame'.metadataJson)

/-- One more merge. -/
theorem Answered.merge {last merges : ℕ} {frame frame' : DliFrame}
    (h : Answered c last merges frame frame') (metrics : StageMetrics) (calls : ℕ)
    (output : DliFrame) :
    Answered c last (merges + 1) frame (c.merged metrics calls output frame') := by
  obtain ⟨request, request', response, s, s', hforward, htwins, hplain, hmerged⟩ := h
  refine .intro request request' response s s' hforward htwins hplain ?_
  unfold Cluster.merged
  dsimp only
  exact .more hmerged metrics (c.rpcWallMs calls) (frameBytes output).length
    (frameBytes frame').length

/-- The gateway has an answer of the last stage, and the first stage has its twin, or
neither has one. -/
def Mirrors (c : Cluster σ) (last merges : ℕ) :
    EStateM.Result Bytes (ClusterState σ) (StageClientResult DliFrame) →
      EStateM.Result Bytes (ClusterState σ) (StageClientResult DliFrame) → Prop
  | .ok result s, .ok result' s' => isSuccess result'.httpStatus ∧ s.states = s'.states ∧
      Answered c last merges result.responseFrame result'.responseFrame
  | .error _ _, .ok result' _ => ¬isSuccess result'.httpStatus
  | _, .error _ _ => False

/-- On twin frames a stage fails twice, or gives one answer to twin requests. -/
theorem answer_twins {i : ℕ} {frame frame' : DliFrame} (h : Twins c.overflow frame frame')
    {s t : ClusterState σ} (hst : s.states = t.states) :
    (∃ message s' message' t', c.answer i frame s = .error message s' ∧
        c.answer i frame' t = .error message' t') ∨
      ∃ request request' response s' t' u u', c.answer i frame s = .ok (request, response) s' ∧
        c.answer i frame' t = .ok (request', response) t' ∧ s'.states = t'.states ∧
        TwinRequests request request' ∧ (c.stages i).forward request u = .ok response u' := by
  obtain ⟨result, hread, hread', hfits⟩ := h.read
  unfold Cluster.answer
  rw [hread, hread']
  cases result with
  | error message => exact .inl ⟨message, s, message, t, rfl, rfl⟩
  | ok parsed =>
    have htwins := twinRequests h.bytes (hfits parsed rfl)
    have hsame : (c.stages i).forward (makeRuntimeRequest frame' (withChaining true parsed)) =
        (c.stages i).forward (makeRuntimeRequest frame (withChaining false parsed)) := by
      rw [htwins.same]
      exact (c.stages i).blind _ _ _
    have hserve : ∀ request, c.serve i request s =
        mapState (fun u => { s with states := Function.update s.states i u })
          ((c.stages i).forward request (s.states i)) := fun request => onPart_apply _ _ _ _
    have hserve' : ∀ request, c.serve i request t =
        mapState (fun u => { t with states := Function.update t.states i u })
          ((c.stages i).forward request (t.states i)) := fun request => onPart_apply _ _ _ _
    simp only [Except.map, bind_apply, stateless_ok]
    rw [hserve, hserve', hsame, ← hst]
    cases hforward : (c.stages i).forward (makeRuntimeRequest frame (withChaining false parsed))
        (s.states i) with
    | error message u => exact .inl ⟨message, _, message, _, rfl, rfl⟩
    | ok response u => exact .inr ⟨_, _, response, _, _, _, _, rfl, rfl, rfl, htwins, hforward⟩

/-- Without chaining a stage keeps its answer. -/
theorem handle_plain {fuel i : ℕ} {frame : DliFrame} {s s' : ClusterState σ}
    {request : StageRequest} {response : RuntimeTexts.RuntimeResponse}
    (h : c.answer i frame s = .ok (request, response) s')
    (hplain : request.nativeStageChainingEnabled = false ∨ response.isFinalStage = true ∨
      (c.stages i).nextStageUrl = []) :
    c.handleForwardBinary fuel i frame s = .ok ⟨200, c.output i request response, []⟩ s' := by
  have hflag : (request.nativeStageChainingEnabled && !response.isFinalStage &&
      !(c.stages i).nextStageUrl.isEmpty) = false := by
    rcases hplain with hplain | hfinal | hurl
    · rw [hplain, Bool.false_and, Bool.false_and]
    · rw [hfinal, Bool.not_true, Bool.and_false, Bool.false_and]
    · rw [hurl, List.isEmpty_nil, Bool.not_true, Bool.and_false]
  unfold Cluster.handleForwardBinary
  simp only [h, hflag, Bool.false_eq_true, if_false]

theorem handle_error {fuel i : ℕ} {frame : DliFrame} {s s' : ClusterState σ} {message : Bytes}
    (h : c.answer i frame s = .error message s') :
    c.handleForwardBinary fuel i frame s = .ok (errorAnswer 400 message) s' := by
  unfold Cluster.handleForwardBinary
  rw [h]

/-- With chaining a stage hands its answer on and merges what comes back. -/
theorem handle_chained {fuel i : ℕ} {frame : DliFrame} {s s' s'' : ClusterState σ}
    {request : StageRequest} {response : RuntimeTexts.RuntimeResponse}
    {next : StageClientResult DliFrame} (h : c.answer i frame s = .ok (request, response) s')
    (hflag : request.nativeStageChainingEnabled = true) (hfinal : response.isFinalStage = false)
    (hurl : (c.stages i).nextStageUrl ≠ [])
    (hnext : c.handleForwardBinary fuel (c.stageAt (c.stages i).nextStageUrl)
      (c.output i request response) s' = .ok next s'') :
    c.handleForwardBinary (fuel + 1) i frame s =
      if ¬isSuccess next.httpStatus then
        .ok (errorAnswer 502 (ascii "next native stage failed with HTTP " ++
          decimalNat next.httpStatus)) { s'' with calls := s''.calls + 1 }
      else
        .ok ⟨200, c.merged response.metrics s''.calls (c.output i request response)
          next.responseFrame, []⟩ { s'' with calls := s''.calls + 1 } := by
  have hempty : (c.stages i).nextStageUrl.isEmpty = false := by
    cases hnil : (c.stages i).nextStageUrl with
    | nil => exact absurd hnil hurl
    | cons b rest => rfl
  have hcond : (request.nativeStageChainingEnabled && !response.isFinalStage &&
      !(c.stages i).nextStageUrl.isEmpty) = true := by
    rw [hflag, hfinal, hempty]
    rfl
  rw [Cluster.handleForwardBinary]
  simp only [h, hcond, hnext, if_true]

/-- The partition at a position that is not the last. -/
theorem Routed.before (h : Routed c config) {i : ℕ} {partition : PartitionNodeConfig}
    (hpartition : config.partitions[i]? = some partition)
    (hlt : i + 1 < config.partitions.length) :
    partition.nextStageUrl ≠ [] ∧ partition.components.lmHead = false := by
  refine h.inner partition ?_
  have hdrop : config.partitions.dropLast[i]? = some partition := by
    rw [List.getElem?_dropLast, if_pos (by omega), hpartition]
  exact List.mem_of_getElem? hdrop

/-- From any stage on, both ways fail, or both reach the answer of the last stage. -/
theorem orchestrate_mirrors (h : Routed c config) (rest : List PartitionNodeConfig) {i : ℕ}
    (hrest : config.partitions.drop i = rest) (hne : rest ≠ []) {fuel fuel' : ℕ}
    (hfuel : rest.length ≤ fuel + 1) {frame frame' : DliFrame}
    (htwins : Twins c.overflow frame frame') {s t : ClusterState σ} (hst : s.states = t.states) :
    Mirrors c (config.partitions.length - 1) (rest.length - 1)
      (orchestrate config (c.client fuel') i rest frame s)
      (c.handleForwardBinary fuel i frame' t) := by
  induction rest generalizing i fuel frame frame' s t with
  | nil => exact absurd rfl hne
  | cons partition rest ih =>
    have hlength := congrArg List.length hrest
    rw [List.length_drop, List.length_cons] at hlength
    have hpartition : config.partitions[i]? = some partition := by
      rw [← List.head?_drop, hrest, List.head?_cons]
    have hlt : i < config.partitions.length := by omega
    obtain ⟨url, hurl, hat⟩ := stageUrlForPartition_at h.addresses hlt
      fun j previous hj hprevious => (h.before hprevious (by omega)).1
    have hcall : orchestrate config (c.client fuel') i (partition :: rest) frame s =
        (c.handleForwardBinary fuel' i frame >>= fun result =>
          if ¬isSuccess result.httpStatus then
            stateless (.error (ascii "partition " ++ partition.partitionId ++
              ascii " returned HTTP " ++ decimalNat result.httpStatus ++ ascii ": " ++
              result.errorBody))
          else if isTerminalPartition partition then pure result
          else orchestrate config (c.client fuel') (i + 1) rest result.responseFrame) s := by
      rw [orchestrate, hurl, stateless_ok_bind, Cluster.client, hat]
    rw [hcall, bind_apply]
    rcases answer_twins (i := i) htwins hst with
      ⟨message, s', message', t', hanswer, hanswer'⟩ |
      ⟨request, request', response, s', t', u, u', hanswer, hanswer', hst', hreq, hforward⟩
    · rw [handle_error hanswer, handle_error hanswer']
      exact not_isSuccess_refused
    · rw [handle_plain hanswer (.inl hreq.plain)]
      dsimp only
      rw [if_neg (not_not.mpr isSuccess_answered)]
      have hfinal := h.final i (by omega) request u response u' hforward
      have hconfigured := h.configured i partition hpartition
      cases rest with
      | nil =>
        -- the last stage answers both ways
        have hi : i = config.partitions.length - 1 := by
          rw [List.length_nil] at hlength
          omega
        have hlast : response.isFinalStage = true := hfinal.mpr (by omega)
        have hterminal : isTerminalPartition partition = true := by
          have hnil := h.last partition (by
            rw [List.getLast?_eq_getElem?, ← hi]
            exact hpartition)
          unfold isTerminalPartition
          rw [hnil]
          rfl
        rw [if_pos hterminal, handle_plain hanswer' (.inr (.inl hlast))]
        subst hi
        exact ⟨isSuccess_answered, hst', .intro request request' response u u' hforward hreq rfl
          .none⟩
      | cons second rest =>
        rw [List.length_cons] at hlength
        have hmiddle := h.before hpartition (by omega)
        have hnotfinal : response.isFinalStage = false := by
          rw [← Bool.not_eq_true]
          exact fun htrue => by have := hfinal.mp htrue; omega
        have hterminal : ¬isTerminalPartition partition = true := by
          unfold isTerminalPartition
          rw [hmiddle.2, Bool.or_false, List.isEmpty_iff]
          exact hmiddle.1
        obtain ⟨fuel, rfl⟩ : ∃ more, fuel = more + 1 := by
          rw [List.length_cons, List.length_cons] at hfuel
          exact ⟨fuel - 1, by omega⟩
        have hnextat : c.stageAt (c.stages i).nextStageUrl = i + 1 := by
          rw [hconfigured]
          exact h.addresses.next i partition hpartition (by omega) hmiddle.1
        have hdrop : config.partitions.drop (i + 1) = second :: rest := by
          rw [← List.tail_drop, hrest, List.tail_cons]
        have htoken := (c.stages i).token request u response u' hforward
        have hshape := (c.stages i).shape request u response u' hforward hreq.shape
        have htwins' : Twins c.overflow (c.output i request response)
            (c.output i request' response) := twins_output hreq htoken hshape
        have hrest' : (second :: rest).length ≤ fuel + 1 := by
          rw [List.length_cons] at hfuel
          omega
        have hrec := ih hdrop (List.cons_ne_nil _ _) hrest' htwins' hst'
        rw [if_neg hterminal]
        cases hnext : c.handleForwardBinary fuel (i + 1) (c.output i request' response) t' with
        | error message t'' =>
          rw [hnext] at hrec
          cases hhub : orchestrate config (c.client fuel') (i + 1) (second :: rest)
              (c.output i request response) s' with
          | ok result s'' =>
            rw [hhub] at hrec
            exact hrec.elim
          | error message s'' =>
            rw [hhub] at hrec
            exact hrec.elim
        | ok next t'' =>
          rw [handle_chained hanswer' hreq.chaining hnotfinal (hconfigured ▸ hmiddle.1)
            (hnextat ▸ hnext)]
          rw [hnext] at hrec
          cases hhub : orchestrate config (c.client fuel') (i + 1) (second :: rest)
              (c.output i request response) s' with
          | error message s'' =>
            rw [hhub] at hrec
            have hfailed : ¬isSuccess next.httpStatus := hrec
            rw [if_pos hfailed]
            exact not_isSuccess_downstream
          | ok result s'' =>
            rw [hhub] at hrec
            obtain ⟨hsuccess, hstates, hanswered⟩ := hrec
            rw [if_neg (not_not.mpr hsuccess)]
            refine ⟨isSuccess_answered, hstates, ?_⟩
            exact hanswered.merge response.metrics t''.calls (c.output i request' response)

end Simulation

section Generations

variable {c : Cluster σ} {settings : GatewaySettings ℚ} {partitions : List PartitionNodeConfig}

theorem Routed.withChaining (h : Routed c (routeConfig settings partitions)) (flag : Bool) :
    Routed c (routeConfig { settings with nativeStageChainingEnabled := flag } partitions) where
  nonempty := h.nonempty
  addresses := ⟨h.addresses.first, h.addresses.next⟩
  configured := h.configured
  inner := h.inner
  last := h.last
  final := h.final

/-- Every answer of the last stage has a description that names no chain metric. -/
def ChainlessEnd (c : Cluster σ) (partitions : List PartitionNodeConfig) : Prop :=
  ∀ request s response s', (c.stages (partitions.length - 1)).forward request s = .ok response s' →
    ChainlessBackend response.backendMetadataJson

/-- The token is the same on both ways. -/
theorem answered_token {last merges : ℕ} {result result' : StageClientResult DliFrame}
    (hbackend : ∀ request s response s', (c.stages last).forward request s = .ok response s' →
      ChainlessBackend response.backendMetadataJson)
    (h : Answered c last merges result.responseFrame result'.responseFrame) :
    nextTokenIdFromTerminalResponse c.overflow result' =
      nextTokenIdFromTerminalResponse c.overflow result := by
  obtain ⟨request, request', response, s, s', hforward, htwins, hplain, hmerged⟩ := h
  have hchainless := hbackend request s response s' hforward
  have htoken := (c.stages last).token request s response s' hforward
  have hshape := (c.stages last).shape request s response s' hforward htwins.shape
  obtain ⟨hfits, hfits'⟩ := htwins.answerFits htoken hshape
  have hread := merges_token c.overflow hchainless hfits hfits' htwins.controls hmerged
  have hform := merges_form (chainFree_response hchainless) (openResponse_closed hchainless) hmerged
  have hempty : result.responseFrame.metadataJson.isEmpty = false := by
    rw [hplain, List.isEmpty_eq_false_iff]
    exact List.append_ne_nil_of_right_ne_nil _ (List.cons_ne_nil _ _)
  have hempty' : result'.responseFrame.metadataJson.isEmpty = false := by
    rw [List.isEmpty_eq_false_iff]
    rcases hform with heq | ⟨metrics, heq⟩
    · rw [heq]
      exact List.append_ne_nil_of_right_ne_nil _ (List.cons_ne_nil _ _)
    · rw [heq]
      exact List.append_ne_nil_of_right_ne_nil _ (List.cons_ne_nil _ _)
  unfold nextTokenIdFromTerminalResponse
  rw [hempty, hempty', hread, hplain]
  rfl

/-- One pipeline call agrees on both ways. -/
theorem calls_agree (h : Routed c (routeConfig settings partitions)) (htopK : IsInt settings.topK)
    (hend : ChainlessEnd c partitions) (requestId : Bytes) (call : PipelineCall) :
    CallsAgree
      (c.pipeline { settings with nativeStageChainingEnabled := false } partitions requestId)
      (c.pipeline { settings with nativeStageChainingEnabled := true } partitions requestId) call
      (fun s t => s.states = t.states) fun s t => s.states = t.states := by
  intro s t hst
  have hrouted := h.withChaining false
  have hne : partitions ≠ [] := h.nonempty
  have hmirrors := @orchestrate_mirrors _ c _ hrouted partitions 0 List.drop_zero hne
    partitions.length partitions.length (Nat.le_succ _) _ _
    (twins_callFrame htopK requestId call) s t hst
  have hempty : partitions.isEmpty = false := List.isEmpty_eq_false_iff.mpr hne
  have hhub : (c.pipeline { settings with nativeStageChainingEnabled := false } partitions
      requestId).call call s =
        orchestrate (routeConfig { settings with nativeStageChainingEnabled := false } partitions)
          (c.client partitions.length) 0 partitions
          (callFrame { settings with nativeStageChainingEnabled := false } requestId call) s := by
    unfold Cluster.pipeline forwardThroughPartitionGraph routeConfig
    simp only [hempty, Bool.false_eq_true, if_false]
  have hchained : (c.pipeline { settings with nativeStageChainingEnabled := true } partitions
      requestId).call call t =
        (c.handleForwardBinary partitions.length 0
          (callFrame { settings with nativeStageChainingEnabled := true } requestId call) >>=
          fun result => if ¬isSuccess result.httpStatus then
            stateless (.error (ascii "native chained stage call failed with HTTP " ++
              decimalNat result.httpStatus ++ ascii ": " ++ result.errorBody))
          else pure result) t := by
    have hfirst : c.stageAt settings.firstStageUrl = 0 := h.addresses.first
    unfold Cluster.pipeline forwardThroughPartitionGraph routeConfig forwardChained Cluster.client
    simp only [hempty, Bool.false_eq_true, if_false, if_true, hfirst]
  rw [hhub, hchained, bind_apply]
  revert hmirrors
  cases orchestrate (routeConfig { settings with nativeStageChainingEnabled := false } partitions)
      (c.client partitions.length) 0 partitions
      (callFrame { settings with nativeStageChainingEnabled := false } requestId call) s with
  | error message s' =>
    cases c.handleForwardBinary partitions.length 0
        (callFrame { settings with nativeStageChainingEnabled := true } requestId call) t with
    | error message' t' => exact False.elim
    | ok result' t' =>
      intro hfailed
      have hstatus : ¬isSuccess result'.httpStatus := hfailed
      dsimp only
      rw [if_pos hstatus]
      exact trivial
  | ok result s' =>
    cases c.handleForwardBinary partitions.length 0
        (callFrame { settings with nativeStageChainingEnabled := true } requestId call) t with
    | error message' t' => exact False.elim
    | ok result' t' =>
      rintro ⟨hsuccess, hstates, hanswered⟩
      dsimp only
      rw [if_neg (not_not.mpr hsuccess)]
      refine ⟨?_, hstates⟩
      have htoken := answered_token hend hanswered
      unfold SameToken
      show (∃ token, nextTokenIdFromTerminalResponse c.overflow result = .ok token ∧
          nextTokenIdFromTerminalResponse c.overflow result' = .ok token) ∨
        ∃ message message', nextTokenIdFromTerminalResponse c.overflow result = .error message ∧
          nextTokenIdFromTerminalResponse c.overflow result' = .error message'
      rw [htoken]
      cases nextTokenIdFromTerminalResponse c.overflow result with
      | ok token => exact .inl ⟨token, rfl, rfl⟩
      | error message => exact .inr ⟨message, message, rfl, rfl⟩

/-- A generation has the same result on both ways, up to the text of an error. -/
theorem chaining_transparent (h : Routed c (routeConfig settings partitions))
    (htopK : IsInt settings.topK) (hend : ChainlessEnd c partitions) (tokenizer : Tokenizer)
    (requestId prompt : Bytes) (maxNewTokens : ℤ) {start start' : ClusterState σ}
    (hstart : start.states = start'.states) :
    { (c.generate { settings with nativeStageChainingEnabled := false } partitions tokenizer
        requestId prompt maxNewTokens start).result with error := [] } =
      { (c.generate { settings with nativeStageChainingEnabled := true } partitions tokenizer
        requestId prompt maxNewTokens start').result with error := [] } :=
  runStubGeneration_agree (fun _ _ => calls_agree h htopK hend requestId _)
    (fun _ _ _ => calls_agree h htopK hend requestId _) requestId maxNewTokens hstart

/-- A stage that echoes its input, and at the end of a route gives a token. -/
def echoProcess (isFinalStage : Bool) (nextStageUrl : Bytes) : StageProcess Unit where
  serviceName := ascii "stage"
  stageId := 0
  nextStageUrl := nextStageUrl
  forward request := fun s => .ok
    { isFinalStage := isFinalStage
      nextTokenId := 7
      outputTensor := request.inputTensor } s
  token request s response s' h := by
    cases h
    exact (⟨by decide, by decide⟩ : IsInt 7)
  shape request s response s' h hshape := by
    cases h
    exact hshape
  blind request flag text := rfl

/-- Two such stages. -/
def echoCluster : Cluster Unit where
  stages i := if i = 0 then echoProcess false (ascii "b") else echoProcess true []
  stageAt url := if url = ascii "a" then 0 else 1
  rpcWallMs := fun _ => 1
  overflow := fun _ => 0
  overflowCount := fun _ => 0

def echoPartitions : List PartitionNodeConfig :=
  [{ partitionId := ascii "p0", serviceName := ascii "s0", nextStageUrl := ascii "b" },
    { partitionId := ascii "p1", serviceName := ascii "s1", components := { lmHead := true } }]

theorem echo_routed (settings : GatewaySettings ℚ) (hfirst : settings.firstStageUrl = ascii "a") :
    Routed echoCluster (routeConfig settings echoPartitions) where
  nonempty := List.cons_ne_nil _ _
  addresses := by
    constructor
    · show (if settings.firstStageUrl = ascii "a" then 0 else 1) = 0
      rw [if_pos hfirst]
    · intro index partition hpartition hlt hne
      have hzero : index = 0 := by
        have hlength : index + 1 < 2 := hlt
        omega
      subst hzero
      cases hpartition
      decide
  configured := by
    intro i partition hpartition
    have hlength : i < 2 := (List.getElem?_eq_some_iff.mp hpartition).1
    interval_cases i
    · cases hpartition
      rfl
    · cases hpartition
      rfl
  inner := by
    intro partition hmem
    rcases List.mem_singleton.mp hmem with rfl
    decide
  last := by
    intro partition hmem
    cases hmem
    rfl
  final := by
    intro i hi request s response s' hforward
    have hlength : i < 2 := hi
    interval_cases i
    · cases hforward
      exact (by decide : false = true ↔ 0 + 1 = 2)
    · cases hforward
      exact (by decide : true = true ↔ 1 + 1 = 2)

/-- The two ways over the echoing stages. -/
theorem chaining_transparent_echo :
    { (echoCluster.generate ⟨{}, ascii "a", false, false, ascii "fp32", ascii "debug", 0, 1, none,
        some 3⟩ echoPartitions GenerationLaw.tokenizerStub (ascii "r-1") (ascii "hi") 4
          ⟨fun _ => (), 0⟩).result with
      error := [] } =
    { (echoCluster.generate ⟨{}, ascii "a", true, false, ascii "fp32", ascii "debug", 0, 1, none,
        some 3⟩ echoPartitions GenerationLaw.tokenizerStub (ascii "r-1") (ascii "hi") 4
          ⟨fun _ => (), 0⟩).result with
      error := [] } := by
  generalize GenerationLaw.tokenizerStub = tokenizer
  exact chaining_transparent (echo_routed ⟨{}, ascii "a", false, false, ascii "fp32",
      ascii "debug", 0, 1, none, some 3⟩ rfl) ⟨by decide, by decide⟩
    (fun request s response s' hforward => by
      cases hforward
      exact ⟨fun name _ hinfix => absurd (List.infix_nil.mp hinfix) (List.cons_ne_nil _ _),
        .inl rfl⟩) tokenizer _ _ 4 rfl

end Generations

end LayerInference.ChainedRouting
