import LayerInference.AnswerDocuments
import LayerInference.StageMapFiles

/-!
# The answers of both servers

A server answers every request with a JSON text, except for frames. Whatever bytes
the prompt, the generated text, a configuration or an error holds, the text is one
document. It denotes the configuration, the result or the error that was written, and
each step of a generation holds the metadata of its stage as a document of its own.
-/

namespace LayerInference.ServerAnswers

open ByteStrings TextStreams JsonText JsonFields ManifestTexts JsonDocuments TensorPlans
  PartitionRouting PartitionGraph StageMapFiles HttpMessages GenerationLoop ResultTexts
  AnswerDocuments

section Gateway

end Gateway

section Stage

end Stage

section Documents

end Documents

section Reading

/-- An answer whose body is the document, and whose status says whether it is good. -/
def Denotes (response : HttpResponse) (written : Written) : Prop :=
  readJson response.body = some written.value ∧
    written.value.get? (ascii "ok") = some (.bool (decide (response.statusCode = 200)))

/-- A prompt with a quote, a line end and a byte that is no text. -/
def quotedResult : MeasuredResult where
  requestId := ascii "r"
  prompt := [34, 10, 200]
  tokenizerBackend := ascii "stub"
  steps := [{ stageMetadataJson := [92, 34] }]

theorem finite_quotedResult : FiniteResult quotedResult where
  steps step hstep := by
    obtain rfl := List.mem_singleton.mp hstep
    exact ⟨⟨0, rfl⟩, ⟨0, rfl⟩⟩
  computeMs := ⟨0, rfl⟩
  rpcWallMs := ⟨0, rfl⟩
  trueCommMs := ⟨0, rfl⟩
  modelLoadMs := ⟨0, rfl⟩
  memoryCgroupPercent := ⟨0, rfl⟩
  totalLatencyMs := ⟨0, rfl⟩
  tokensPerSecond := ⟨0, rfl⟩

end Reading

section Steps

open RuntimeTexts StageChainMetrics
open MetadataTexts hiding runtimeResponseMetadataJson

/-- The metadata of a step as the browser takes it: an object, or the text of one. -/
def parseNativeStageMetadata : Option Json → Json
  | some (.object members) => .object members
  | some (.string text) =>
    match readJson text with
    | some value => if isFalsy value then .object [] else value
    | none => .object []
  | _ => .object []

/-- What the browser finds in an answer about the stage of one step. -/
def stepMetadata (answer : Bytes) (index : ℕ) : Option Json :=
  (readJson answer).bind fun value =>
    (value.get? (ascii "steps")).bind fun steps =>
      (steps.item? index).map fun step => parseNativeStageMetadata (step.get? (ascii "stage_metadata"))

variable {response : RuntimeResponse} {backend : Written} {serviceName : Bytes} {stageId : ℤ}
  {request : StageRequest}

/-- The metadata that a step holds is read as its text says. -/
theorem stepMetadata_read {result : MeasuredResult} (h : FiniteResult result)
    (requestBodyBytes : ℕ) {index : ℕ} {step : GenerationStepTrace}
    (hstep : result.steps[index]? = some step) {fields : List Field}
    (htext : step.stageMetadataJson = (document fields).text) :
    stepMetadata (generationLoopResultJson result requestBodyBytes) index =
      some (document fields).value := by
  have hsteps : (resultDocument result requestBodyBytes).value.get? (ascii "steps") =
      some (.array ((result.steps.map stepDocument).map Written.value)) := rfl
  have hitem : Json.item? index (.array ((result.steps.map stepDocument).map Written.value)) =
      some (stepDocument step).value := by
    change ((result.steps.map stepDocument).map Written.value)[index]? = _
    rw [List.getElem?_map, List.getElem?_map, hstep]
    rfl
  have hmetadata : (stepDocument step).value.get? (ascii "stage_metadata") =
      some (.string step.stageMetadataJson) := rfl
  unfold stepMetadata
  rw [result_text h, (resultDocument result requestBodyBytes).read, Option.bind_some, hsteps,
    Option.bind_some, hitem, Option.map_some, hmetadata, htext, parseNativeStageMetadata,
    (document fields).read]
  rfl

/-- Whatever bytes a generation holds, the browser finds in its answer for each step
the fields that the stage wrote, also behind any number of merges on the way back, and
then the chain metrics of the last merge. -/
theorem stage_metadata_arrives {overflow : ℚ → ℕ} {result : MeasuredResult}
    (hfinite : FiniteResult result) (requestBodyBytes : ℕ) {index : ℕ} {step : GenerationStepTrace}
    (hstep : result.steps[index]? = some step) (hbackend : response.backendText = backend.text)
    (hchain : ChainlessBackend response.backendMetadataJson) :
    (step.stageMetadataJson = runtimeResponseMetadataJson response serviceName stageId request →
      stepMetadata (generationLoopResultJson result requestBodyBytes) index =
        some (document (answerFields response backend serviceName stageId request)).value) ∧
    ∀ n text metrics wallMs requestBytes responseBytes,
      Merges overflow (runtimeResponseMetadataJson response serviceName stageId request) n text →
      step.stageMetadataJson =
        mergeChainMetrics overflow text metrics wallMs requestBytes responseBytes →
      let chain := mergeChainMetricsValues metrics
        (extractChainMetricsFromMetadata overflow text) wallMs requestBytes responseBytes
      stepMetadata (generationLoopResultJson result requestBodyBytes) index =
        some (document (answerFields response backend serviceName stageId request ++
          (chainFields chain ++ [hopsField chain]))).value := by
  constructor
  · intro htext
    rw [answer_text hbackend] at htext
    exact stepMetadata_read hfinite _ hstep htext
  · intro n text metrics wallMs requestBytes responseBytes hmerges htext chain
    rw [merge_form (chainFree_response hchain) (openResponse_closed hchain) hmerges,
      merged_text hbackend] at htext
    exact stepMetadata_read hfinite _ hstep htext

/-- An answer of the stub. -/
def stubResponse : RuntimeResponse := { metrics := { status := ascii "stub_echo" } }

/-- A request whose id is a quote. -/
def quotedRequest : StageRequest := { requestId := [34] }

def quotedAnswer : Bytes :=
  runtimeResponseMetadataJson stubResponse (ascii "stage-1") 1 quotedRequest

/-- The answer behind one merge. -/
def mergedAnswer : Bytes := mergeChainMetrics (fun _ => 0) quotedAnswer {} 0 10 20

def mergedStep : GenerationStepTrace where
  stageMetadataJson := mergedAnswer

theorem chainless_stub : ChainlessBackend [] where
  unquoted name _ := fun hinfix => by
    obtain ⟨front, back, hsplit⟩ := hinfix
    simp at hsplit
  closed := Or.inl rfl

set_option maxRecDepth 3000 in
/-- The id and the status of the stage are found behind the merge. -/
theorem stage_metadata_arrives_quoted :
    ((stepMetadata (generationLoopResultJson { quotedResult with steps := [mergedStep] } 0) 0).bind
        (Json.get? (ascii "request_id")) = some (.string [34])) ∧
      ((stepMetadata (generationLoopResultJson { quotedResult with steps := [mergedStep] } 0) 0).bind
        (Json.get? (ascii "metrics"))).bind (Json.get? (ascii "status")) =
          some (.string (ascii "stub_echo")) := by
  have hfinite : FiniteResult { quotedResult with steps := [mergedStep] } :=
    { finite_quotedResult with
      steps := fun step hstep => by
        obtain rfl := List.mem_singleton.mp hstep
        exact ⟨⟨0, rfl⟩, ⟨0, rfl⟩⟩ }
  have hmerges : Merges (fun _ => 0)
      (runtimeResponseMetadataJson stubResponse (ascii "stage-1") 1 quotedRequest) 0 quotedAnswer :=
    .none
  have hbackend : stubResponse.backendText = (document []).text := rfl
  have hmerged : mergedStep.stageMetadataJson =
      mergeChainMetrics (fun _ => 0) quotedAnswer {} 0 10 20 := by
    rw [mergedStep, mergedAnswer]
  have hstep : [mergedStep][0]? = some mergedStep := rfl
  have harrives := (stage_metadata_arrives hfinite 0 hstep hbackend chainless_stub).2
    0 quotedAnswer {} 0 10 20 hmerges hmerged
  rw [harrives]
  exact ⟨rfl, rfl⟩

end Steps

end LayerInference.ServerAnswers
