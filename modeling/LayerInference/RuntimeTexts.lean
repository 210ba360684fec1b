import LayerInference.ChainMetricLaws
import LayerInference.MetadataHops

/-!
# Answers with a description of their backend as text

A runtime gives the description of its backend as a text, and the stage writes it
into the metadata as it is. Whatever that text says, the fields in front of it are
read as they were written; the sampling controls are looked for behind them. Chain
metrics leave all this alone as long as the text names none of them.
-/

namespace LayerInference.RuntimeTexts

open ByteStrings TextStreams QuotedTexts JsonFields ManifestTexts NumberTexts JsonPieces
  OpenTexts TensorAbi MetadataTexts MetadataReader MetadataRoundTrips StageChainMetrics
  ChainMetricLaws

section Texts

/-- The answer of a runtime. -/
structure RuntimeResponse where
  isFinalStage : Bool := false
  nextTokenId : ℤ := -1
  outputTensor : TensorBuffer := {}
  metrics : StageMetrics := {}
  backendMetadataJson : Bytes := []

/-- The answer without the description of its backend. -/
def RuntimeResponse.answer (response : RuntimeResponse) : StageAnswer where
  isFinalStage := response.isFinalStage
  nextTokenId := response.nextTokenId
  outputTensor := response.outputTensor
  metrics := response.metrics

/-- An empty description is written as an empty object. -/
def RuntimeResponse.backendText (response : RuntimeResponse) : Bytes :=
  if response.backendMetadataJson.isEmpty then ascii "{}" else response.backendMetadataJson

/-- The sampling controls and the metrics. -/
def middlePieces (response : RuntimeResponse) (request : StageRequest) : List Piece :=
  controlPieces request ++
    (keyPiece "metrics" isName_metrics :: (metricsPieces response.metrics ++
      [comma, keyPiece "backend_metadata" isName_backend]))

/-- What stands behind the fields in front, without the last brace. -/
def responseTail (response : RuntimeResponse) (request : StageRequest) : Bytes :=
  piecesText (middlePieces response request) ++ response.backendText

/-- An answer without its last brace. -/
def openResponse (response : RuntimeResponse) (serviceName : Bytes) (stageId : ℤ)
    (request : StageRequest) : Bytes :=
  piecesText (answerHeadPieces response.answer serviceName stageId request) ++
    responseTail response request

def runtimeResponseMetadataJson (response : RuntimeResponse) (serviceName : Bytes) (stageId : ℤ)
    (request : StageRequest) : Bytes :=
  openResponse response serviceName stageId request ++ [0x7d]

/-- The answer of a runtime that describes its backend in fields. -/
def RuntimeResponse.ofAnswer (answer : StageAnswer) : RuntimeResponse where
  isFinalStage := answer.isFinalStage
  nextTokenId := answer.nextTokenId
  outputTensor := answer.outputTensor
  metrics := answer.metrics
  backendMetadataJson := (answer.backend.map fun b => piecesText (backendMetadataPieces b)).getD []

/-- It is written as before. -/
theorem metadataJson_ofAnswer (answer : StageAnswer) (serviceName : Bytes) (stageId : ℤ)
    (request : StageRequest) :
    runtimeResponseMetadataJson (.ofAnswer answer) serviceName stageId request =
      MetadataTexts.runtimeResponseMetadataJson answer serviceName stageId request := by
  have hbackend : (RuntimeResponse.ofAnswer answer).backendText =
      piecesText (backendPieces answer.backend) := by
    unfold RuntimeResponse.backendText RuntimeResponse.ofAnswer backendPieces
    cases answer.backend with
    | none => rfl
    | some b => rfl
  have hhead : answerHeadPieces (RuntimeResponse.ofAnswer answer).answer serviceName stageId
      request = answerHeadPieces answer serviceName stageId request := rfl
  have hmiddle : middlePieces (.ofAnswer answer) request ++ backendPieces answer.backend =
      controlPieces request ++ openTailPieces answer := by
    unfold middlePieces openTailPieces
    simp only [List.append_assoc, List.cons_append, List.nil_append]
    rfl
  unfold runtimeResponseMetadataJson openResponse responseTail
  rw [hbackend, hhead, ← piecesText_append, hmiddle, ← piecesText_append]
  unfold MetadataTexts.runtimeResponseMetadataJson
  rw [runtimeResponseMetadataPieces_eq]
  exact (piecesText_append (openAnswerPieces answer serviceName stageId request) [lastBrace]).symm

end Texts

section Reading

variable (overflow : ℚ → ℤ) {response : RuntimeResponse} {serviceName : Bytes} {stageId : ℤ}
  {request : StageRequest}

/-- What is read of an answer with anything behind it. -/
theorem parse_response (hfits : AnswerFits response.answer request) (rest : Bytes) :
    parseRequestMetadata overflow (openResponse response serviceName stageId request ++ rest) =
      readLate overflow (answerFields response.answer request)
        (responseTail response request ++ rest) := by
  unfold openResponse
  rw [List.append_assoc]
  exact parse_head overflow hfits _

/-- The late fields that are numbers. -/
structure SameNumbers (text text' : Bytes) : Prop where
  temperature : extractDoubleField text (ascii "temperature") =
    extractDoubleField text' (ascii "temperature")
  topK : extractIntField text (ascii "top_k") = extractIntField text' (ascii "top_k")
  topP : extractDoubleField text (ascii "top_p") = extractDoubleField text' (ascii "top_p")
  seed : extractDoubleField text (ascii "seed") = extractDoubleField text' (ascii "seed")

/-- The token that is read depends on the late fields only through their errors. -/
theorem readLate_token {text text' : Bytes} (h : SameNumbers text text')
    (fields fields' : ParsedRequestMetadata) (hsame : fields.nextTokenId = fields'.nextTokenId) :
    (readLate overflow fields text).map ParsedRequestMetadata.nextTokenId =
      (readLate overflow fields' text').map ParsedRequestMetadata.nextTokenId := by
  unfold readLate
  rw [h.temperature, h.topK, h.topP, h.seed]
  cases extractDoubleField text' (ascii "temperature") with
  | error message => rfl
  | ok temperature =>
    cases extractIntField text' (ascii "top_k") with
    | error message => rfl
    | ok topK =>
      cases extractDoubleField text' (ascii "top_p") with
      | error message => rfl
      | ok topP =>
        cases extractDoubleField text' (ascii "seed") with
        | error message => rfl
        | ok seed => exact congrArg Except.ok hsame

/-- A text that names none of the sampling controls. -/
def Uncontrolled (text : Bytes) : Prop :=
  ∀ key ∈ controlKeys, (∀ value : Bytes → Option ℚ, searchField key value text = none) ∧
    ∀ value : Bytes → Option ℤ, searchField key value text = none

theorem uncontrolled_nil : Uncontrolled [] := fun _ _ => ⟨fun _ => rfl, fun _ => rfl⟩

theorem controlKeys_isName : ∀ key ∈ controlKeys, IsName key := by decide

theorem uncontrolled_written (metrics : ChainMetrics) :
    Uncontrolled (piecesText (writtenPieces metrics)) := by
  intro key hkey
  have hnone : behind key (writtenPieces metrics) = none :=
    behind_of_not_mem (late_names_unwritten key (List.mem_append_left _ hkey))
  exact ⟨fun value => searchField_none (controlKeys_isName key hkey) value hnone,
    fun value => searchField_none (controlKeys_isName key hkey) value hnone⟩

theorem extractDoubleField_stop {b : UInt8} {key text rest : Bytes} (hb : Stop b)
    (hkey : key ∈ controlKeys) (hrest : Uncontrolled rest) :
    extractDoubleField (text ++ b :: rest) key = extractDoubleField text key := by
  have hsearch := searchField_stop (controlKeys_isName key hkey) hb (stops_metadataNumber hb)
    text rest
  rw [(hrest key hkey).1, Option.or_none] at hsearch
  unfold extractDoubleField
  rw [hsearch]

theorem extractIntField_stop {b : UInt8} {key text rest : Bytes} (hb : Stop b)
    (hkey : key ∈ controlKeys) (hrest : Uncontrolled rest) :
    extractIntField (text ++ b :: rest) key = extractIntField text key := by
  have hsearch := searchField_stop (controlKeys_isName key hkey) hb (stops_scanInteger hb)
    text rest
  rw [(hrest key hkey).2, Option.or_none] at hsearch
  unfold extractIntField
  rw [hsearch]

/-- Behind a comma or a brace nothing is read if no control stands there. -/
theorem sameNumbers_stop {b : UInt8} {text rest : Bytes} (hb : Stop b)
    (hrest : Uncontrolled rest) : SameNumbers (text ++ b :: rest) text where
  temperature := extractDoubleField_stop hb (by decide) hrest
  topK := extractIntField_stop hb (by decide) hrest
  topP := extractDoubleField_stop hb (by decide) hrest
  seed := extractDoubleField_stop hb (by decide) hrest

end Reading

section Merging

variable {response : RuntimeResponse} {serviceName : Bytes} {stageId : ℤ} {request : StageRequest}

/-- A description that names no chain metric, and is empty or ends with a brace. -/
structure ChainlessBackend (backendMetadataJson : Bytes) : Prop where
  unquoted : ∀ name ∈ ascii "chain_metrics" :: numberKeys, Unquoted name backendMetadataJson
  closed : backendMetadataJson = [] ∨ ∃ inner, backendMetadataJson = inner ++ [0x7d]

theorem unquoted_braces : ∀ name ∈ ascii "chain_metrics" :: numberKeys,
    Unquoted name (ascii "{}") := by
  intro name hname hinfix
  have hmem := hinfix.subset List.mem_cons_self
  exact absurd hmem (by decide)

theorem ChainlessBackend.text (h : ChainlessBackend response.backendMetadataJson) :
    (∀ name ∈ ascii "chain_metrics" :: numberKeys, Unquoted name response.backendText) ∧
      ∃ inner, response.backendText = inner ++ [0x7d] := by
  unfold RuntimeResponse.backendText
  by_cases hempty : response.backendMetadataJson.isEmpty = true
  · rw [if_pos hempty]
    exact ⟨unquoted_braces, [0x7b], rfl⟩
  · rw [if_neg hempty]
    refine ⟨h.unquoted, h.closed.resolve_left fun hnil => hempty ?_⟩
    rw [hnil]
    rfl

theorem middleKeys_absent : ∀ name ∈ ascii "chain_metrics" :: numberKeys,
    name ∉ headKeys ∧ name ∉ controlKeys ∧
      name ∉ ascii "metrics" :: (metricsKeys ++ [ascii "backend_metadata"]) := by decide +kernel

/-- No chain metric is named in front of the description. -/
theorem chainless_front : Chainless (answerHeadPieces response.answer serviceName stageId request ++
    middlePieces response request) := by
  have hall : ∀ name ∈ ascii "chain_metrics" :: numberKeys,
      behind name (answerHeadPieces response.answer serviceName stageId request ++
        middlePieces response request) = none := by
    intro name hname
    obtain ⟨hhead, hcontrols, hmetrics⟩ := middleKeys_absent name hname
    refine behind_of_not_mem fun hmem => ?_
    unfold middlePieces at hmem
    rw [keysOf_append, keysOf_append, keysOf_head] at hmem
    rcases List.mem_append.mp hmem with h | h
    · exact hhead h
    · rcases List.mem_append.mp h with h | h
      · exact hcontrols (keysOf_controls name h)
      · have hkeys : keysOf (keyPiece "metrics" isName_metrics :: (metricsPieces response.metrics ++
            [comma, keyPiece "backend_metadata" isName_backend])) =
              ascii "metrics" :: (metricsKeys ++ [ascii "backend_metadata"]) := rfl
        exact hmetrics (hkeys ▸ h)
  exact List.forall_mem_cons.mp hall

theorem openResponse_split : openResponse response serviceName stageId request =
    piecesText (answerHeadPieces response.answer serviceName stageId request ++
      middlePieces response request) ++ response.backendText := by
  unfold openResponse responseTail
  rw [piecesText_append, List.append_assoc]

/-- An answer names no chain metric if the description of its backend names none. -/
theorem chainFree_response (h : ChainlessBackend response.backendMetadataJson) :
    ChainFree (openResponse response serviceName stageId request) := by
  rw [openResponse_split]
  exact chainFree_pieces chainless_front fun name hname =>
    passedOver_unquoted (chainKeys_isName name hname) (h.text.1 name hname)

theorem openResponse_closed (h : ChainlessBackend response.backendMetadataJson) :
    ∃ inner, openResponse response serviceName stageId request = inner ++ [0x7d] := by
  obtain ⟨inner, hinner⟩ := h.text.2
  rw [openResponse_split, hinner]
  exact ⟨_, (List.append_assoc _ _ _).symm⟩

/-- A text, and what a number of merges makes of it. -/
inductive Merges (overflow : ℚ → ℕ) (text : Bytes) : ℕ → Bytes → Prop where
  | none : Merges overflow text 0 text
  | more {n : ℕ} {text' : Bytes} (h : Merges overflow text n text') (metrics : StageMetrics)
      (wallMs : ℚ) (requestBytes responseBytes : ℕ) :
      Merges overflow text (n + 1)
        (mergeChainMetrics overflow text' metrics wallMs requestBytes responseBytes)

/-- Merges replace one another: behind the text stands a brace, or the last metrics. -/
theorem merges_form {overflow : ℚ → ℕ} {front text : Bytes} {n : ℕ} (hfree : ChainFree front)
    (hend : ∃ inner, front = inner ++ [0x7d]) (h : Merges overflow (front ++ [0x7d]) n text) :
    text = front ++ [0x7d] ∨
      ∃ metrics, text = front ++ piecesText (comma :: writtenPieces metrics) := by
  induction h with
  | none => exact .inl rfl
  | more _ metrics wallMs requestBytes responseBytes ih =>
    right
    rcases ih with rfl | ⟨old, rfl⟩
    · exact ⟨_, put_removed hend (remove_free hfree)⟩
    · exact ⟨_, put_removed hend (remove_written hfree)⟩

/-- The token that is read of an answer does not change with merges. -/
theorem merges_token (overflow : ℚ → ℤ) {overflow' : ℚ → ℕ} {request' : StageRequest}
    {text : Bytes} {n : ℕ} (h : ChainlessBackend response.backendMetadataJson)
    (hfits : AnswerFits response.answer request) (hfits' : AnswerFits response.answer request')
    (hcontrols : controlPieces request' = controlPieces request)
    (hmerges : Merges overflow'
      (runtimeResponseMetadataJson response serviceName stageId request') n text) :
    (parseRequestMetadata overflow text).map ParsedRequestMetadata.nextTokenId =
      (parseRequestMetadata overflow (runtimeResponseMetadataJson response serviceName stageId
        request)).map ParsedRequestMetadata.nextTokenId := by
  have htail : responseTail response request' = responseTail response request := by
    unfold responseTail middlePieces
    rw [hcontrols]
  have hbrace : SameNumbers (responseTail response request ++ 0x7d :: [])
      (responseTail response request) := sameNumbers_stop stop_brace uncontrolled_nil
  unfold runtimeResponseMetadataJson
  rw [parse_response overflow hfits]
  have hform := merges_form (chainFree_response h) (openResponse_closed h) hmerges
  rcases hform with rfl | ⟨metrics, rfl⟩
  · rw [parse_response overflow hfits', htail]
    exact readLate_token overflow ⟨rfl, rfl, rfl, rfl⟩ _ _ rfl
  · rw [parse_response overflow hfits', htail]
    have hcomma : SameNumbers (responseTail response request ++ 44 ::
        piecesText (writtenPieces metrics)) (responseTail response request) :=
      sameNumbers_stop stop_comma (uncontrolled_written metrics)
    refine readLate_token overflow ⟨?_, ?_, ?_, ?_⟩ _ _ rfl
    · exact hcomma.temperature.trans hbrace.temperature.symm
    · exact hcomma.topK.trans hbrace.topK.symm
    · exact hcomma.topP.trans hbrace.topP.symm
    · exact hcomma.seed.trans hbrace.seed.symm

end Merging

end LayerInference.RuntimeTexts
