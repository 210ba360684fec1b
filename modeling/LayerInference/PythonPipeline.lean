import LayerInference.BinaryTransport
import LayerInference.FallibleRuns
import LayerInference.PayloadPrecision
import LayerInference.PythonStageEffects
import LayerInference.TopologyRouting
import Mathlib.Data.List.Dedup
import Mathlib.Logic.Function.Basic

/-!
# The Python gateway over its stages

The gateway keeps the token ids of a generation. For every new token it posts a
frame to the first stage, and each stage runs its partition and posts the
activation to the next one, until the last stage selects a token. Addresses lead
to stage processes, several of which may serve the same partition. A call runs
alone on every process that it visits. The executors, the tokenizer and what the
wire does to a tensor are parameters.
-/

namespace LayerInference.PythonPipeline

open ByteStrings FallibleRuns LayerRanges OrderedDicts PythonStage Runs TopologyRouting

/-- The bytes of a text. -/
def utf8 (text : Text) : Bytes := text.flatMap String.utf8EncodeChar

/-- The flags that reach beyond one stage. -/
structure ModuleFlags where
  transport : BinaryTransport.TransportFlags
  activationPrecision : PayloadPrecision.ActivationPrecision
  topologyAwareRouting : Bool

structure Sampling where
  temperature : ℚ
  topK : Option ℕ
  topP : Option ℚ

/-- The metadata of a frame beside its cache fields. -/
structure RequestMetadata where
  sampling : Sampling
  minNewTokens : ℕ
  eosTokenId : Option ℤ
  forbiddenTokenIdsBeforeMin : List ℤ
  topologyRouteOverrides : Overrides

/-- A frame: what one stage reads, and what it hands on. -/
structure ForwardRequest where
  base : StageForwardRequest
  metadata : RequestMetadata
  moduleFlags : ModuleFlags

structure StageForwardResponse where
  requestId : Bytes
  tokenIndex : ℤ
  nextTokenId : Option ℤ

/-- A stage process. The random draw behind a selection belongs to its token
index. -/
structure StageProcess (χ ℓ : Type) where
  stageId : ℕ
  nextStageUrl : Option Text
  setup : StageSetup χ
  finalizeLogits : RebalanceProfile → Tensor → Except Bytes ℓ
  selectNextToken : RebalanceProfile → ℤ → ℓ → Sampling → List ℤ → Except Bytes ℤ

/-- The processes `ν`, the addresses that lead to them, and what a tensor is
after the sender has prepared and packed it and the receiver has restored it. -/
structure Network (ν χ ℓ : Type) where
  unicode : UnicodeTables
  serverAt : Text → Option ν
  process : ν → StageProcess χ ℓ
  carried : ModuleFlags → Tensor → Tensor
  /-- The text of a failed request to an address, with the status if it has one. -/
  requestErrorText : Text → Option ℕ → Bytes
  /-- How many hops fit into the timeout of the first one. -/
  maxHops : ℕ

variable {ν χ ℓ : Type}

section Stage

/-- The blocks of one thread, at most so many, with no other thread between. -/
def runThread (setup : StageSetup χ) (request : StageForwardRequest) :
    ℕ → Phase → StageCaches χ → Phase × StageCaches χ
  | 0, phase, caches => (phase, caches)
  | blocks + 1, phase, caches =>
    if phase.isAnswered then (phase, caches)
    else
      let next := PythonStage.advance setup request caches phase
      runThread setup request blocks next.1 next.2

/-- A thread alone: it has at most five blocks. -/
def serveForward (setup : StageSetup χ) (request : StageForwardRequest) (caches : StageCaches χ) :
    Except HTTPException ForwardAnswer × StageCaches χ :=
  match runThread setup request 5 .arrived caches with
  | (.answered answer, caches) => (answer, caches)
  | (_, caches) => (.error ⟨500, []⟩, caches)

/-- The ids that a selection must avoid, as long as the generation is short. -/
def forbiddenTokenIds (metadata : RequestMetadata) (tokenIndex : ℤ) : List ℤ :=
  if tokenIndex + 1 < metadata.minNewTokens then
    (metadata.forbiddenTokenIdsBeforeMin ++ metadata.eosTokenId.toList).dedup.insertionSort
      (· ≤ ·)
  else []

def finalStageFailed (message : Bytes) : HTTPException :=
  ⟨500, ascii "Final stage failed: " ++ message⟩

/-- `_finalize_response`. -/
def finalizeResponse (process : StageProcess χ ℓ) (request : ForwardRequest)
    (hiddenStates : Tensor) : Except HTTPException StageForwardResponse :=
  let profile := request.base.featureFlags.rebalanceProfile
  match process.finalizeLogits profile hiddenStates with
  | .error message => .error (finalStageFailed message)
  | .ok logits =>
    match process.selectNextToken profile request.base.tokenIndex logits request.metadata.sampling
        (forbiddenTokenIds request.metadata request.base.tokenIndex) with
    | .error message => .error (finalStageFailed message)
    | .ok nextTokenId => .ok
      { requestId := request.base.requestId
        tokenIndex := request.base.tokenIndex
        nextTokenId := some nextTokenId }

end Stage

section Hops

variable [DecidableEq ν] (net : Network ν χ ℓ)

/-- The caches of all processes. -/
abbrev NetworkCaches (ν χ : Type) := ν → StageCaches χ

/-- The partition of one process, with its caches. -/
def executeForward (server : ν) (request : StageForwardRequest) :
    EStateM HTTPException (NetworkCaches ν χ) ForwardAnswer := fun caches =>
  match serveForward (net.process server).setup request (caches server) with
  | (.ok answer, after) => .ok answer (Function.update caches server after)
  | (.error exception, after) => .error exception (Function.update caches server after)

def failedToForward (url : Text) (status : Option ℕ) : HTTPException :=
  ⟨502, ascii "Failed to forward to next stage " ++ utf8 url ++ ascii ": " ++
    net.requestErrorText url status⟩

/-- A post that raises for every status but success. -/
def postForward (send : ν → ForwardRequest →
      EStateM HTTPException (NetworkCaches ν χ) StageForwardResponse)
    (failed : Text → Option ℕ → HTTPException) (url : Text) (request : ForwardRequest) :
    EStateM HTTPException (NetworkCaches ν χ) StageForwardResponse := fun caches =>
  match net.serverAt url with
  | none => .error (failed url none) caches
  | some server =>
    match send server request caches with
    | .ok response caches => .ok response caches
    | .error exception caches => .error (failed url (some exception.statusCode)) caches

/-- The frame for the next process. -/
def nextRequest (request : ForwardRequest) (outputTensor : Tensor) : ForwardRequest :=
  { request with
    base := { request.base with inputTensor := net.carried request.moduleFlags outputTensor } }

def nextStageNotConfigured : HTTPException :=
  ⟨500, ascii "Next stage URL is not configured for non-final stage."⟩

/-- `_run_forward_flow`, with what is sent on given. -/
def runForwardFlow (send : ν → ForwardRequest →
      EStateM HTTPException (NetworkCaches ν χ) StageForwardResponse) (server : ν)
    (request : ForwardRequest) : EStateM HTTPException (NetworkCaches ν χ) StageForwardResponse := do
  let answer ← executeForward net server request.base
  match (net.process server).nextStageUrl with
  | none | some [] =>
    stateless (finalizeResponse (net.process server) request answer.outputTensor)
  | some default =>
    match resolveNextStageUrl net.unicode (net.process server).stageId (some default)
        request.moduleFlags.topologyAwareRouting request.metadata.topologyRouteOverrides with
    | none | some [] => stateless (.error nextStageNotConfigured)
    | some url =>
      postForward net send (failedToForward net) url
        (nextRequest net request answer.outputTensor)

def timedOut : HTTPException := ⟨504, []⟩

/-- A frame at a process, with the hops that are left. -/
def forward : ℕ → ν → ForwardRequest →
    EStateM HTTPException (NetworkCaches ν χ) StageForwardResponse
  | 0 => runForwardFlow net fun _ _ => stateless (.error timedOut)
  | hops + 1 => runForwardFlow net (forward hops)

end Hops

section Gateway

structure ChatMessage where
  role : Text
  content : Text

structure GenerateRequest where
  prompt : Option Text
  messages : Option (List ChatMessage)
  maxNewTokens : ℕ
  minNewTokens : ℕ
  sampling : Sampling
  featureFlags : FeatureFlags
  moduleFlags : ModuleFlags

/-- The tokenizer, with a chat template or without one; the template may fail. -/
structure Tokenizer where
  eosTokenId : Option ℤ
  allSpecialIds : List ℤ
  applyChatTemplate : Option (List (Text × Text) → Option (List ℤ))
  encode : Text → List ℤ
  decode : List ℤ → Text

structure Gateway where
  unicode : UnicodeTables
  lower : Text → Text
  tokenizer : Tokenizer
  firstStageUrl : Text
  topologyRouteCandidates : OrderedDict Text (List Text)

inductive TerminationReason where
  | maxNewTokens
  | eos
  deriving DecidableEq

structure GenerateResponse where
  prompt : Text
  generatedText : Text
  generatedTokenIds : List ℤ
  terminationReason : TerminationReason
  promptTokenCount : ℕ
  deriving DecidableEq

variable (gateway : Gateway)

def shouldStop (tokenId : ℤ) : Bool := gateway.tokenizer.eosTokenId == some tokenId

def promptForResponse (request : GenerateRequest) : Text :=
  let prompt := strip gateway.unicode (request.prompt.getD [])
  let messages := request.messages.getD []
  let isUser := fun message : ChatMessage =>
    decide (gateway.lower (strip gateway.unicode message.role) = "user".toList)
  if prompt ≠ [] then prompt
  else
    match messages.reverse.find? isUser with
    | some message => strip gateway.unicode message.content
    | none => ((messages.getLast?).map fun message => strip gateway.unicode message.content).getD []

/-- One line of a prompt without a template; messages without content have none. -/
def plainLine (message : ChatMessage) : Option Text :=
  let role := if message.role = [] then "user".toList else message.role
  let content := strip gateway.unicode message.content
  if content = [] then none
  else some (gateway.lower (strip gateway.unicode role) ++ ": ".toList ++ content)

def messagesToPlainPrompt (messages : List ChatMessage) : Text :=
  ['\n'].intercalate (messages.filterMap (plainLine gateway) ++ ["assistant:".toList])

def encodeInputIds (prompt : Text) (messages : List ChatMessage) : List ℤ :=
  let normalizedMessages :=
    if messages ≠ [] then messages.map fun message => (message.role, message.content)
    else [("user".toList, prompt)]
  match gateway.tokenizer.applyChatTemplate.bind fun apply => apply normalizedMessages with
  | some chatIds => chatIds
  | none =>
    gateway.tokenizer.encode
      (if messages ≠ [] then messagesToPlainPrompt gateway messages else prompt)

/-- The metadata that all frames of a generation carry. -/
def requestMetadata (request : GenerateRequest) (overrides : Overrides) : RequestMetadata where
  sampling := request.sampling
  minNewTokens := request.minNewTokens
  eosTokenId := gateway.tokenizer.eosTokenId
  forbiddenTokenIdsBeforeMin := gateway.tokenizer.allSpecialIds.dedup.insertionSort (· ≤ ·)
  topologyRouteOverrides := overrides

variable (net : Network ν χ ℓ)

def pipelineFailed (url : Text) (status : Option ℕ) : HTTPException :=
  ⟨502, ascii "Failed to communicate with Inference Stage pipeline: " ++
    net.requestErrorText url status⟩

def noNextToken : HTTPException :=
  ⟨500, ascii "Generation failed: Final Inference Stage did not return next_token_id."⟩

/-- The frame of a token, as it arrives at the first stage. -/
def tokenRequest (request : GenerateRequest) (requestId : Bytes) (overrides : Overrides)
    (tokenIndex : ℕ) (inputIds : List ℤ) : ForwardRequest :=
  let base := loopRequest requestId request.featureFlags inputIds tokenIndex
  { base := { base with inputTensor := net.carried request.moduleFlags base.inputTensor }
    metadata := requestMetadata gateway request overrides
    moduleFlags := request.moduleFlags }

variable [DecidableEq ν]

/-- `forward_with_transport` for the frame of a token. -/
def forwardToken (request : GenerateRequest) (requestId : Bytes) (overrides : Overrides)
    (tokenIndex : ℕ) (inputIds : List ℤ) :
    EStateM HTTPException (NetworkCaches ν χ) StageForwardResponse :=
  postForward net (forward net net.maxHops) (pipelineFailed net) gateway.firstStageUrl
    (tokenRequest gateway net request requestId overrides tokenIndex inputIds)

/-- The loop of `generate`, with the rounds that are left. -/
def generateTokens (request : GenerateRequest) (requestId : Bytes) (overrides : Overrides) :
    ℕ → ℕ → List ℤ → List ℤ →
      EStateM HTTPException (NetworkCaches ν χ) (List ℤ × TerminationReason)
  | 0, _, _, generatedTokenIds => pure (generatedTokenIds, .maxNewTokens)
  | rounds + 1, tokenIndex, inputIds, generatedTokenIds => do
    let response ← forwardToken gateway net request requestId overrides tokenIndex inputIds
    match response.nextTokenId with
    | none => stateless (.error noNextToken)
    | some nextTokenId =>
      if shouldStop gateway nextTokenId && decide (request.minNewTokens ≤ tokenIndex + 1) then
        pure (generatedTokenIds ++ [nextTokenId], .eos)
      else
        generateTokens request requestId overrides rounds (tokenIndex + 1)
          (inputIds ++ [nextTokenId]) (generatedTokenIds ++ [nextTokenId])

def generateResponse (prompt : Text) (promptTokenCount : ℕ)
    (result : List ℤ × TerminationReason) : GenerateResponse where
  prompt := prompt
  generatedText := gateway.tokenizer.decode result.1
  generatedTokenIds := result.1
  terminationReason := result.2
  promptTokenCount := promptTokenCount

/-- The ids that a generation starts from. -/
def promptIds (request : GenerateRequest) : List ℤ :=
  encodeInputIds gateway (promptForResponse gateway request) (request.messages.getD [])

/-- `generate`, with the random request id and the state of the routing given. -/
def generate (request : GenerateRequest) (requestId : Bytes) (probes : Probes)
    (routes : RouterState) : EStateM HTTPException (NetworkCaches ν χ) GenerateResponse := do
  let overrides := (buildRouteOverrides probes gateway.unicode
    request.moduleFlags.topologyAwareRouting gateway.topologyRouteCandidates routes).1
  let result ← generateTokens gateway net request requestId overrides request.maxNewTokens 0
    (promptIds gateway request) []
  pure (generateResponse gateway (promptForResponse gateway request)
    (promptIds gateway request).length result)

end Gateway

section Frames

theorem loopRequest_tokenIndex (requestId : Bytes) (featureFlags : FeatureFlags)
    (inputIds : List ℤ) (tokenIndex : ℕ) :
    (loopRequest requestId featureFlags inputIds tokenIndex).tokenIndex = tokenIndex := by
  unfold loopRequest
  dsimp only
  split <;> rfl

end Frames

section Threads

/-- The blocks of one thread alone are steps of the stage. -/
theorem runThread_isRun {setup : StageSetup χ} {start : StageState χ} {before : List StageEvent}
    {threads : List Thread} (request : StageForwardRequest) (blocks : ℕ) (phase : Phase)
    (caches : StageCaches χ)
    (h : Run (StageStep setup) start before ⟨caches, threads ++ [⟨request, phase⟩]⟩) :
    ∃ events, Run (StageStep setup) start (before ++ events)
      ⟨(runThread setup request blocks phase caches).2,
        threads ++ [⟨request, (runThread setup request blocks phase caches).1⟩]⟩ := by
  induction blocks generalizing phase caches before with
  | zero => exact ⟨[], by rw [List.append_nil]; exact h⟩
  | succ blocks ih =>
    rw [runThread]
    cases hphase : phase.isAnswered with
    | true => exact ⟨[], by rw [List.append_nil]; exact h⟩
    | false =>
      simp only [Bool.false_eq_true, if_false]
      have hthread : (threads ++ [(⟨request, phase⟩ : Thread)])[threads.length]? =
          some ⟨request, phase⟩ := List.getElem?_concat_length
      have hstep := h.next (StageStep.advance hthread hphase)
      rw [StageState.advanceThread, List.set_append_right _ _ le_rfl, Nat.sub_self,
        List.set_cons_zero] at hstep
      obtain ⟨events, hevents⟩ := ih _ _ hstep
      exact ⟨.advance threads.length :: events, by rw [List.append_cons]; exact hevents⟩

/-- A call served alone is a run of the stage from its arrival, and leaves the
caches of that run. -/
theorem serveForward_isRun (setup : StageSetup χ) (request : StageForwardRequest)
    (s : StageState χ) :
    ∃ events s', Run (StageStep setup) s (.arrive request :: events) s' ∧
      s'.caches = (serveForward setup request s.caches).2 := by
  have harrive : Run (StageStep setup) s [.arrive request] (s.arrive request) :=
    Run.start.next (.arrive request)
  obtain ⟨events, hevents⟩ := runThread_isRun request 5 .arrived s.caches harrive
  refine ⟨events, _, hevents, ?_⟩
  unfold serveForward
  split <;> next hrun => rw [hrun]

end Threads

end LayerInference.PythonPipeline
