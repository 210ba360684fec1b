import LayerInference.FrameTensors
import LayerInference.GenerationLoop
import LayerInference.JsonText
import LayerInference.PartialRuntime
import LayerInference.PartitionRouting

/-!
# Stages behind the gateway

A deployment runs one partition runtime for each entry of the partition list,
all of one model. A stage answers a frame with the metadata of its request,
the tensor it computed and the token it picked. With chaining it hands this
frame to the stage behind it and answers with what comes back. Frames are
taken after their metadata was parsed; the text is not part of this module.
-/

namespace LayerInference.StagePipeline

open ByteStrings FallibleRuns FloatArithmetic TensorAbi CpuExecutor PartialRuntime
  PartitionRouting GenerationLoop JsonText FrameTensors

variable {F D G : Type} [FloatArith F] [FloatArith D] [Numerics F D G]

/-- A frame with its metadata parsed: the request, and a token on answers. -/
structure StageFrame (D : Type) where
  request : RuntimeRequest D
  nextTokenId : Option ℤ := none

/-- The empty frame of an answer that carries none. -/
instance : Inhabited (StageFrame D) := ⟨{ request := { requestId := [], tokenIndex := 0, inputTensor := {} } }⟩

/-- One model split over partitions, and where the URLs lead. -/
structure Deployment (F D : Type) where
  hp : LlamaExecutorHyperparams F
  partitions : List PartitionNodeConfig
  /-- The tensors in the shard of each partition. -/
  tensors : ℕ → TensorContext F
  attentionBackendIsGgml : ℕ → Bool
  stageAt : Bytes → ℕ
  /-- The surroundings that a stage meets when it serves a frame. -/
  env : ℕ → RuntimeRequest D → ForwardEnv

/-- The session maps of all stages. -/
abbrev StageStates (hp : LlamaExecutorHyperparams F) := ℕ → Sessions hp

/-- The runtime that holds the shard of a partition. -/
abbrev partitionRuntime (hp : LlamaExecutorHyperparams F) (partition : PartitionNodeConfig)
    (tensors : TensorContext F) (attentionBackendIsGgml : Bool) : LlamaPartialRuntime F where
  shard :=
    { layers := partition.components.layers
      ownsEmbedding := partition.components.embedding
      ownsNorm := partition.components.norm
      ownsLmHead := partition.components.lmHead
      nextStageUrl := partition.nextStageUrl
      hiddenSize := hp.hiddenSize }
  executor := ⟨tensors, hp, attentionBackendIsGgml⟩

/-- A partition that is not there. -/
def noPartition : PartitionNodeConfig := { partitionId := [], serviceName := [] }

abbrev Deployment.runtime (d : Deployment F D) (i : ℕ) : LlamaPartialRuntime F :=
  partitionRuntime d.hp (d.partitions.getD i noPartition) (d.tensors i)
    (d.attentionBackendIsGgml i)

/-- Serve a frame on the sessions of one stage. -/
def Deployment.serve (d : Deployment F D) (i : ℕ) (request : RuntimeRequest D) :
    EStateM Bytes (StageStates d.hp) RuntimeResponse :=
  onPart (fun states => states i) (fun states s => Function.update states i s)
    (forward (d.runtime i) (d.env i request) request)

/-- The frame of an answer: the request goes on with the computed tensor. -/
def responseFrame (request : RuntimeRequest D) (response : RuntimeResponse) : StageFrame D where
  request :=
    { request with
      inputTensor :=
        { metadata :=
            if response.outputTensor.metadata.shape.isEmpty then request.inputTensor.metadata
            else response.outputTensor.metadata
          bytes := response.outputTensor.bytes } }
  nextTokenId := some response.nextTokenId

/-- An answer without a frame. -/
def errorResult (httpStatus : ℕ) (message : Bytes) : StageClientResult (StageFrame D) :=
  ⟨httpStatus, default, httpErrorJson message⟩

/-- Answer a frame at stage `i`. With chaining the frame visits at most `fuel`
further stages; a route without cycles needs no more than there are. -/
def handleForwardBinary (d : Deployment F D) :
    ℕ → ℕ → StageFrame D → EStateM Bytes (StageStates d.hp) (StageClientResult (StageFrame D))
  | fuel, i, frame => fun states =>
    match d.serve i frame.request states with
    | .error message states => .ok (errorResult 400 message) states
    | .ok response states =>
      let output := responseFrame frame.request response
      let nextStageUrl := (d.runtime i).shard.nextStageUrl
      if frame.request.nativeStageChainingEnabled && !response.isFinalStage &&
          !nextStageUrl.isEmpty then
        match fuel with
        | 0 => .error (ascii "request did not complete") states
        | fuel + 1 =>
          match handleForwardBinary d fuel (d.stageAt nextStageUrl) output states with
          | .error message states => .ok (errorResult 400 message) states
          | .ok next states =>
            if ¬isSuccess next.httpStatus then
              .ok (errorResult 502 (ascii "next native stage failed with HTTP " ++
                decimalNat next.httpStatus)) states
            else .ok next states
      else .ok ⟨200, output, []⟩ states

/-- The client of the gateway. -/
def Deployment.client (d : Deployment F D) : StageClient (StageStates d.hp) (StageFrame D) :=
  fun url frame => handleForwardBinary d d.partitions.length (d.stageAt url) frame

/-- The settings of a generation. -/
structure GatewaySettings (D : Type) where
  loop : LoopSettings := {}
  firstStageUrl : Bytes
  nativeStageChainingEnabled : Bool := false
  persistentSessionsEnabled : Bool := false
  activationPrecision : Bytes := ascii "fp32"
  metadataLevel : Bytes := ascii "debug"
  temperature : D
  topK : ℤ := 0
  topP : Option D := none
  seed : Option ℤ := none

/-- The frame that the gateway builds for a pipeline call. -/
def gatewayFrame (settings : GatewaySettings D) (requestId : Bytes) (call : PipelineCall) :
    StageFrame D where
  request :=
    { requestId := requestId
      tokenIndex := call.tokenIndex
      generationMode := call.generationMode
      inputTensor := tokenTensor call.tokens
      kvCacheEnabled := true
      activationPrecision := settings.activationPrecision
      persistentSessionsEnabled := settings.persistentSessionsEnabled
      metadataLevel := settings.metadataLevel
      nativeStageChainingEnabled := settings.nativeStageChainingEnabled
      temperature := some settings.temperature
      topK := some settings.topK
      topP := settings.topP
      seed := settings.seed }

/-- The token of the answer that ends the route. -/
def nextTokenIdFromTerminalResponse (result : StageClientResult (StageFrame D)) :
    Except Bytes ℤ :=
  match result.responseFrame.nextTokenId with
  | none => .error (ascii "terminal partition did not return a valid next_token_id")
  | some token =>
    if token < 0 then .error (ascii "terminal partition did not return a valid next_token_id")
    else .ok token

/-- The routing part of the settings. -/
def Deployment.routeConfig (d : Deployment F D) (settings : GatewaySettings D) : RouteConfig :=
  ⟨settings.firstStageUrl, d.partitions, settings.nativeStageChainingEnabled⟩

/-- The pipeline of one generation. -/
def Deployment.pipeline (d : Deployment F D) (settings : GatewaySettings D) (requestId : Bytes) :
    Pipeline (StageStates d.hp) (StageClientResult (StageFrame D)) where
  call c := forwardThroughPartitionGraph (d.routeConfig settings) d.client
    (gatewayFrame settings requestId c)
  nextTokenId := nextTokenIdFromTerminalResponse

/-- One generation on a deployment. -/
def Deployment.generate (d : Deployment F D) (settings : GatewaySettings D) (tokenizer : Tokenizer)
    (requestId prompt : Bytes) (maxNewTokens : ℤ) (start : StageStates d.hp) :
    LoopState (StageStates d.hp) :=
  runStubGeneration settings.loop tokenizer (d.pipeline settings requestId) requestId prompt
    maxNewTokens start

end LayerInference.StagePipeline
