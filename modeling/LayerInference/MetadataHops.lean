import LayerInference.MetadataRoundTrips
import LayerInference.PartitionExecution

/-!
# Control metadata over a chain of stages

Every stage reads the text of the stage before it and writes a text of its own.
What the first stage has read is stable: written once more it is read as the same
strings, flags and numbers, since its strings have no odd control bytes and its
numbers are the doubles of the decimals they are written with. One hop keeps this,
and with it any number of hops.
-/

namespace LayerInference.MetadataHops

open ByteStrings TextStreams JsonText QuotedTexts JsonFields ManifestTexts Rounding NumberTexts
  JsonPieces TensorAbi FloatArithmetic CpuExecutor PartitionExecution FrameProtocol MetadataTexts
  MetadataReader MetadataRoundTrips

section Chains

/-- The request of a stage, with everything that its frame says. -/
def makeRuntimeRequest (frame : DliFrame) (parsed : ParsedRequestMetadata) : StageRequest where
  requestId := parsed.requestId
  tokenIndex := parsed.tokenIndex
  generationMode := parsed.generationMode
  inputMetadataJson := frame.metadataJson
  inputTensor := ⟨parsed.tensor, frame.tensorBytes⟩
  kvCacheEnabled := parsed.kvCacheEnabled
  activationPrecision := parsed.activationPrecision
  transportMode := parsed.transportMode
  rebalanceProfile := parsed.rebalanceProfile
  persistentSessionsEnabled := parsed.persistentSessionsEnabled
  topologyAwareRouting := parsed.topologyAwareRouting
  metadataLevel := parsed.metadataLevel
  nativeStageChainingEnabled := parsed.nativeStageChainingEnabled
  temperature := parsed.temperature
  topK := parsed.topK
  topP := parsed.topP
  seed := parsed.seed
  nextTokenId := parsed.nextTokenId
  stageInputTokenCount := parsed.stageInputTokenCount

/-- Metadata of a tensor that has dimensions of 64 bits and plain strings. -/
structure Shaped (tensor : TensorMetadata) : Prop where
  ne : tensor.shape ≠ []
  dims : ∀ d ∈ tensor.shape, -2 ^ 63 ≤ d ∧ d < 2 ^ 63
  dtype : ∀ c ∈ tensor.dtype, isPlainByte c = true
  byteOrder : ∀ c ∈ tensor.byteOrder, isPlainByte c = true

/-- The tensor that a stage passes on: the stub echoes its input, a partition
writes hidden states. -/
inductive PassedTensor (request : StageRequest) (tensor : TensorBuffer) : Prop where
  | echo (same : tensor = request.inputTensor)
  | hidden (half : Bool) (rows size : ℤ) (fits : IsInt rows ∧ IsInt size)
      (written : tensor.metadata =
        ⟨if half then dtypeHiddenF16 else dtypeHiddenF32, [1, rows, size], byteOrderLittle⟩)

/-- The executor's hidden states are passed on in this form. -/
theorem passedTensor_hidden {F D G : Type} [FloatArith F] [FloatArith D] [Numerics F D G]
    (request : StageRequest) {hp : LlamaExecutorHyperparams F} (hidden : List F) {rows : ℤ}
    (precision : Bytes) (fits : IsInt rows ∧ IsInt hp.hiddenSize) :
    PassedTensor request (floatHiddenToTensor hp hidden 1 rows precision) := by
  by_cases hhalf : precision = ascii "fp16" ∨ precision = ascii "float16"
  · refine .hidden true rows hp.hiddenSize fits ?_
    unfold floatHiddenToTensor
    simp only [if_pos hhalf]
    rfl
  · refine .hidden false rows hp.hiddenSize fits ?_
    unfold floatHiddenToTensor
    simp only [if_neg hhalf]
    rfl

/-- A native stage: its names, and its runtime, which answers or throws. -/
structure NativeStage where
  serviceName : Bytes
  stageId : ℤ
  forward : StageRequest → Except Bytes StageAnswer
  token : ∀ request answer, forward request = .ok answer → IsInt answer.nextTokenId
  passes : ∀ request answer, forward request = .ok answer → answer.isFinalStage = false →
    PassedTensor request answer.outputTensor

/-- The stub runtime echoes its input. -/
def stubForward (computeTimeMs : ℚ) (request : StageRequest) : StageAnswer where
  isFinalStage := false
  nextTokenId :=
    if request.generationMode = ascii "decode" then toInt32 (1000 + request.tokenIndex) else -1
  outputTensor := request.inputTensor
  metrics := {
    backend := ascii "stub"
    status := ascii "stub_echo"
    computeTimeMs := computeTimeMs
    inputTensorBytes := request.inputTensor.bytes.length
    outputTensorBytes := request.inputTensor.bytes.length
    stageInputTokenCount := inferSequenceLengthFromShape request.inputTensor.metadata.shape
    stageOutputTokenCount := inferSequenceLengthFromShape request.inputTensor.metadata.shape
    kvCacheStepValid := true }

/-- A stage with the stub runtime. -/
def stubStage (serviceName : Bytes) (stageId : ℤ) (computeTimeMs : ℚ) : NativeStage where
  serviceName := serviceName
  stageId := stageId
  forward request := .ok (stubForward computeTimeMs request)
  token request answer h := by
    rw [← Except.ok.inj h]
    unfold stubForward IsInt
    dsimp only
    split
    · unfold toInt32
      have hlow : -((2 ^ 32 : ℕ) / 2 : ℤ) ≤ (1000 + request.tokenIndex).bmod (2 ^ 32) :=
        Int.le_bmod (by decide)
      have hhigh : (1000 + request.tokenIndex).bmod (2 ^ 32) < ((2 ^ 32 : ℕ) + 1) / 2 :=
        Int.bmod_lt (by decide)
      omega
    · omega
  passes request answer h _ := by
    rw [← Except.ok.inj h]
    exact .echo rfl

variable (overflow : ℚ → ℤ)

/-- What a stage makes of a frame: its answer and the frame that it passes on. -/
def hop (stage : NativeStage) (frame : DliFrame) : Option (StageAnswer × DliFrame) :=
  match parseRequestMetadata overflow frame.metadataJson with
  | .error _ => none
  | .ok parsed =>
    let request := makeRuntimeRequest frame parsed
    match stage.forward request with
    | .error _ => none
    | .ok answer =>
      if answer.isFinalStage then none
      else some (answer, ⟨runtimeResponseMetadataJson answer stage.serviceName stage.stageId
        request, answer.outputTensor.bytes⟩)

/-- The frame that reaches a stage of a chain. -/
def chainFrame (stages : ℕ → NativeStage) (first : DliFrame) : ℕ → Option DliFrame
  | 0 => some first
  | i + 1 => (chainFrame stages first i).bind fun frame =>
    (hop overflow (stages i) frame).map Prod.snd

/-- What a stage reads apart from its tensor and the token of the stage before. -/
def controls (parsed : ParsedRequestMetadata) : ParsedRequestMetadata :=
  { parsed with
    tensor := {}
    nextTokenId := none
    stageInputTokenCount := 0 }

end Chains

section Stability

/-- A string that is read as it is written. -/
def Plain (value : Bytes) : Prop := settled value = value

/-- A number that is read as it is written. -/
def StableNumber (x : ℚ) : Prop := stod (sixDigits.round x) = some x

/-- What can be written and read without change. -/
structure Stable (overflow : ℚ → ℤ) (parsed : ParsedRequestMetadata) : Prop where
  requestId : Plain parsed.requestId
  generationMode : Plain parsed.generationMode
  activationPrecision : Plain parsed.activationPrecision
  transportMode : Plain parsed.transportMode
  metadataLevel : Plain parsed.metadataLevel
  profile : parsed.rebalanceProfile = ascii "baseline" ∧ parsed.topologyAwareRouting = false
  tokenIndex : IsInt parsed.tokenIndex
  topK : ∀ k ∈ parsed.topK, IsInt k
  tensor : Shaped parsed.tensor
  temperature : ∀ t ∈ parsed.temperature, StableNumber t
  topP : ∀ p ∈ parsed.topP, StableNumber p
  seed : ∀ s ∈ parsed.seed, ∃ x, stod s = some x ∧ toLongLong overflow x = s

variable {overflow : ℚ → ℤ}

theorem readOptional_stable {key : Bytes} {x : Option ℚ} (h : ∀ v ∈ x, StableNumber v) :
    readOptional key (x.map sixDigits.round) = .ok x := by
  cases x with
  | none => rfl
  | some x =>
    show readDouble key (sixDigits.round x) = .ok (some x)
    rw [readDouble, h x rfl]

theorem readOptional_seed {key : Bytes} {seed : Option ℤ}
    (h : ∀ s ∈ seed, ∃ x, stod s = some x ∧ toLongLong overflow x = s) :
    ∃ x, readOptional key (seed.map Int.cast) = .ok x ∧ x.map (toLongLong overflow) = seed := by
  cases seed with
  | none => exact ⟨none, rfl, rfl⟩
  | some s =>
    obtain ⟨x, hread, hcast⟩ := h s rfl
    refine ⟨some x, ?_, congrArg some hcast⟩
    show readDouble key s = .ok (some x)
    rw [readDouble, hread]

theorem shaped_passed {request : StageRequest} {tensor : TensorBuffer}
    (h : PassedTensor request tensor) (hrequest : Shaped request.inputTensor.metadata) :
    Shaped tensor.metadata := by
  cases h with
  | echo same => exact same ▸ hrequest
  | hidden half rows size fits written =>
    rw [written]
    have hdtype : ∀ c ∈ (if half then dtypeHiddenF16 else dtypeHiddenF32),
        isPlainByte c = true := by
      cases half <;> exact List.all_eq_true.mp rfl
    have horder : ∀ c ∈ byteOrderLittle, isPlainByte c = true := List.all_eq_true.mp rfl
    refine ⟨List.cons_ne_nil _ _, ?_, hdtype, horder⟩
    intro d hd
    obtain ⟨⟨hrowsLow, hrowsHigh⟩, hlow, hhigh⟩ := fits
    rw [List.mem_cons, List.mem_cons, List.mem_singleton] at hd
    rcases hd with rfl | rfl | rfl <;> omega

/-- A stage that passes a frame on has answered, and not as the last one. -/
theorem hop_some {stage : NativeStage} {frame next : DliFrame} {answer : StageAnswer}
    {parsed : ParsedRequestMetadata}
    (hparsed : parseRequestMetadata overflow frame.metadataJson = .ok parsed)
    (hhop : hop overflow stage frame = some (answer, next)) :
    stage.forward (makeRuntimeRequest frame parsed) = .ok answer ∧ answer.isFinalStage = false ∧
      next.metadataJson = runtimeResponseMetadataJson answer stage.serviceName stage.stageId
        (makeRuntimeRequest frame parsed) := by
  unfold hop at hhop
  rw [hparsed] at hhop
  dsimp only at hhop
  cases hforward : stage.forward (makeRuntimeRequest frame parsed) with
  | error message =>
    rw [hforward] at hhop
    cases hhop
  | ok given =>
    rw [hforward] at hhop
    dsimp only at hhop
    cases hfinal : given.isFinalStage with
    | true =>
      rw [hfinal, if_pos rfl] at hhop
      cases hhop
    | false =>
      rw [hfinal, if_neg Bool.false_ne_true] at hhop
      obtain ⟨rfl, rfl⟩ := Prod.mk.inj (Option.some.inj hhop)
      exact ⟨rfl, hfinal, rfl⟩

/-- What the next stage makes of the answer of this one: the tensor comes from the
answer, the sampling controls are read once more. -/
theorem hop_reads {stage : NativeStage} {frame next : DliFrame} {answer : StageAnswer}
    {parsed : ParsedRequestMetadata} (htensor : Shaped parsed.tensor)
    (hindex : IsInt parsed.tokenIndex) (htopK : ∀ k ∈ parsed.topK, IsInt k)
    (hparsed : parseRequestMetadata overflow frame.metadataJson = .ok parsed)
    (hhop : hop overflow stage frame = some (answer, next)) :
    Shaped answer.outputTensor.metadata ∧
      (answerFields answer (makeRuntimeRequest frame parsed)).tensor =
        answer.outputTensor.metadata ∧
      parseRequestMetadata overflow next.metadataJson =
        readControls overflow (answerFields answer (makeRuntimeRequest frame parsed))
          (parsed.temperature.map sixDigits.round) (parsed.topP.map sixDigits.round)
          (parsed.seed.map Int.cast) := by
  obtain ⟨hforward, hfinal, hnext⟩ := hop_some hparsed hhop
  have hshaped := shaped_passed (stage.passes _ _ hforward hfinal) htensor
  have hanswer : answerTensor answer (makeRuntimeRequest frame parsed) =
      answer.outputTensor.metadata := if_neg hshaped.ne
  have hdtype : Plain answer.outputTensor.metadata.dtype := settled_of_plain hshaped.dtype
  have horder : Plain answer.outputTensor.metadata.byteOrder := settled_of_plain hshaped.byteOrder
  have hfits : AnswerFits answer (makeRuntimeRequest frame parsed) := {
    tokenIndex := hindex
    nextTokenId := stage.token _ _ hforward
    topK := htopK
    shape := hanswer ▸ hshaped.dims }
  refine ⟨hshaped, ?_, ?_⟩
  · unfold answerFields
    rw [hanswer, hdtype, horder]
  · rw [hnext]
    exact @parse_answer overflow _ stage.serviceName stage.stageId _ hfits

/-- What the next stage reads is what this one has read, with its own tensor. -/
theorem hop_stable {stage : NativeStage} {frame next : DliFrame} {answer : StageAnswer}
    {parsed : ParsedRequestMetadata} (hstable : Stable overflow parsed)
    (hparsed : parseRequestMetadata overflow frame.metadataJson = .ok parsed)
    (hhop : hop overflow stage frame = some (answer, next)) :
    ∃ parsed', parseRequestMetadata overflow next.metadataJson = .ok parsed' ∧
      controls parsed' = controls parsed ∧ parsed'.tensor = answer.outputTensor.metadata ∧
      Stable overflow parsed' := by
  obtain ⟨hshaped, htensor, hparse⟩ :=
    hop_reads hstable.tensor hstable.tokenIndex hstable.topK hparsed hhop
  obtain ⟨x, hseed, hcast⟩ := @readOptional_seed _ (ascii "seed") _ hstable.seed
  replace hparse := hparse.trans (readControls_ok overflow
    (readOptional_stable hstable.temperature) (readOptional_stable hstable.topP) hseed)
  rw [hcast] at hparse
  have hfields : answerFields answer (makeRuntimeRequest frame parsed) =
      { parsed with
        tensor := answer.outputTensor.metadata
        temperature := none
        topP := none
        seed := none
        nextTokenId := some answer.nextTokenId
        stageInputTokenCount :=
          inferSequenceLengthFromShape answer.outputTensor.metadata.shape } := by
    obtain ⟨hprofile, htopology⟩ := hstable.profile
    have hanswer : answerTensor answer (makeRuntimeRequest frame parsed) =
        answer.outputTensor.metadata := if_neg hshaped.ne
    have hrequestId : settled (makeRuntimeRequest frame parsed).requestId =
        parsed.requestId := hstable.requestId
    have hmode : settled (makeRuntimeRequest frame parsed).generationMode =
        parsed.generationMode := hstable.generationMode
    have hprecision : settled (makeRuntimeRequest frame parsed).activationPrecision =
        parsed.activationPrecision := hstable.activationPrecision
    have htransport : settled (makeRuntimeRequest frame parsed).transportMode =
        parsed.transportMode := hstable.transportMode
    have hlevel : settled (makeRuntimeRequest frame parsed).metadataLevel =
        parsed.metadataLevel := hstable.metadataLevel
    have htensor' : (⟨settled (answerTensor answer (makeRuntimeRequest frame parsed)).dtype,
        (answerTensor answer (makeRuntimeRequest frame parsed)).shape,
        settled (answerTensor answer (makeRuntimeRequest frame parsed)).byteOrder⟩ :
          TensorMetadata) = answer.outputTensor.metadata := htensor
    unfold answerFields
    rw [htensor', hanswer, hrequestId, hmode, hprecision, htransport, hlevel, ← hprofile,
      ← htopology]
    rfl
  refine ⟨_, hparse, ?_, ?_, ?_⟩
  · rw [hfields]
    rfl
  · rw [hfields]
  · rw [hfields]
    exact { hstable with tensor := hshaped }

end Stability

section Requests

variable {overflow : ℚ → ℤ}

/-- What the gateway writes: integers of their types, a temperature that is not
negative, a nucleus bound in the unit interval and a seed that a double holds. -/
structure Emitted (m : RequestMetadata) : Prop where
  fits : RequestMetadata.Fits m
  shape : m.shape ≠ []
  temperature : 0 ≤ m.temperature
  topP : ∀ p ∈ m.topP, 0 ≤ p ∧ p ≤ 1
  seed : ∀ s ∈ m.seed, |s| ≤ 2 ^ 53

/-- Every field comes from the field it was written for. -/
structure ReadFrom (m : RequestMetadata) (parsed : ParsedRequestMetadata) : Prop where
  requestId : parsed.requestId = settled m.requestId
  tokenIndex : parsed.tokenIndex = m.tokenIndex
  generationMode : parsed.generationMode = settled m.generationMode
  tensor : parsed.tensor = ⟨settled m.dtype, m.shape, ascii "little"⟩
  kvCacheEnabled : parsed.kvCacheEnabled = true
  activationPrecision : parsed.activationPrecision = settled m.activationPrecision
  transportMode : parsed.transportMode = ascii "binary_octet_stream"
  persistentSessions : parsed.persistentSessionsEnabled = m.persistentSessionsEnabled
  chaining : parsed.nativeStageChainingEnabled = m.nativeStageChainingEnabled
  metadataLevel : parsed.metadataLevel =
    if metadataLevelIsCompact m.metadataLevel then ascii "debug" else settled m.metadataLevel
  temperature : parsed.temperature = stod (sixDigits.round m.temperature)
  present : parsed.temperature ≠ none
  topK : parsed.topK = some m.topK
  topP : parsed.topP = m.topP.map fun p => binary64.round (roundTo (10 ^ (-6 : ℤ)) p)
  seed : parsed.seed = m.seed

theorem stableNumber_stod {x value : ℚ} (hx : 0 ≤ x) (h : stod (sixDigits.round x) = some value) :
    StableNumber value := by
  unfold StableNumber
  rw [sixDigits_stod (sixDigits.round_nonneg hx) (sixDigits.holds_round x) h, h]

theorem readOptional_decimals {topP : Option ℚ} (h : ∀ p ∈ topP, 0 ≤ p ∧ p ≤ 1) :
    readOptional (ascii "top_p") (topP.map (roundTo (10 ^ (-6 : ℤ)))) =
        .ok (topP.map fun p => binary64.round (roundTo (10 ^ (-6 : ℤ)) p)) ∧
      ∀ v ∈ topP.map fun p => binary64.round (roundTo (10 ^ (-6 : ℤ)) p), StableNumber v := by
  cases topP with
  | none => exact ⟨rfl, fun v hv => by cases hv⟩
  | some p =>
    obtain ⟨hlow, hhigh⟩ := h p rfl
    obtain ⟨hnonneg, -, hholds, hread⟩ := sixDecimals hlow hhigh
    constructor
    · show readDouble _ _ = _
      rw [readDouble, hread]
      rfl
    · intro v hv
      rw [← Option.some.inj hv]
      unfold StableNumber
      rw [sixDigits_stod hnonneg hholds hread, hread]

/-- A seed of 53 bits is read as it is. -/
theorem seed_exact {s : ℤ} (h : |s| ≤ 2 ^ 53) : stod s = some (s : ℚ) ∧
    toLongLong overflow s = s := by
  constructor
  · rw [stod_integer (h.trans (by norm_num)), binary64_integer h]
  · have hbounds := abs_le.mp h
    have hfloor : (if 0 ≤ (s : ℚ) then ⌊(s : ℚ)⌋ else ⌈(s : ℚ)⌉) = s := by
      rw [Int.floor_intCast, Int.ceil_intCast, ite_self]
    unfold toLongLong
    dsimp only
    rw [hfloor, if_pos]
    omega

/-- The tensor of a request as the first stage reads it. -/
theorem shaped_request {m : RequestMetadata} (hne : m.shape ≠ [])
    (hdims : ∀ d ∈ m.shape, -2 ^ 63 ≤ d ∧ d < 2 ^ 63) : Shaped (requestFields m).tensor where
  ne := hne
  dims := hdims
  dtype := fun c hc => by
    have hsettled : c ∈ settled m.dtype := hc
    rw [settled_eq] at hsettled
    obtain ⟨b, -, hb⟩ := List.mem_flatMap.mp hsettled
    exact isPlainByte_settledByte hb
  byteOrder := (List.all_eq_true.mp rfl : ∀ c ∈ ascii "little", isPlainByte c = true)

/-- The first stage reads every field from its own source, and what it reads is
stable. -/
theorem first_stable {m : RequestMetadata} (hm : Emitted m) {first : ParsedRequestMetadata}
    (hfirst : parseRequestMetadata overflow (requestMetadataJson m) = .ok first) :
    ReadFrom m first ∧ Stable overflow first := by
  have hparse := parse_request overflow hm.fits
  rw [hfirst] at hparse
  obtain ⟨htopP, hstable⟩ := readOptional_decimals hm.topP
  have hexact : ∀ s ∈ m.seed, ∃ x, stod s = some x ∧ toLongLong overflow x = s :=
    fun s hs => ⟨s, seed_exact (hm.seed s hs)⟩
  obtain ⟨x, hseed, hcast⟩ := @readOptional_seed _ (ascii "seed") _ hexact
  have hlevel : Plain (requestFields m).metadataLevel := by
    unfold requestFields Plain
    dsimp only
    split
    · exact settled_of_plain (List.all_eq_true.mp rfl)
    · exact settled_settled _
  cases hread : stod (sixDigits.round m.temperature) with
  | none =>
    have herror : readOptional (ascii "temperature") (some (sixDigits.round m.temperature)) =
        .error (ascii "invalid floating-point metadata field: " ++ ascii "temperature") := by
      show readDouble _ _ = _
      rw [readDouble, hread]
    unfold readControls at hparse
    rw [herror] at hparse
    cases hparse
  | some t =>
    have htemperature : readOptional (ascii "temperature")
        (some (sixDigits.round m.temperature)) = .ok (some t) := by
      show readDouble _ _ = _
      rw [readDouble, hread]
    rw [readControls_ok overflow htemperature htopP hseed, hcast] at hparse
    have hparse := Except.ok.inj hparse
    rw [hparse]
    constructor
    · exact {
        requestId := rfl
        tokenIndex := rfl
        generationMode := rfl
        tensor := rfl
        kvCacheEnabled := rfl
        activationPrecision := rfl
        transportMode := rfl
        persistentSessions := rfl
        chaining := rfl
        metadataLevel := rfl
        temperature := hread.symm
        present := Option.some_ne_none t
        topK := rfl
        topP := rfl
        seed := rfl }
    · exact {
        requestId := settled_settled _
        generationMode := settled_settled _
        activationPrecision := settled_settled _
        transportMode := settled_binary
        metadataLevel := hlevel
        profile := ⟨rfl, rfl⟩
        tokenIndex := hm.fits.tokenIndex
        topK := fun k hk => Option.some.inj hk ▸ hm.fits.topK
        tensor := shaped_request hm.shape hm.fits.shape
        temperature := fun v hv => by
          rw [← Option.some.inj hv]
          exact stableNumber_stod hm.temperature hread
        topP := hstable
        seed := hexact }

/-- What reaches a stage is stable, and says what the first stage has read. -/
theorem chain_stable {m : RequestMetadata} (hm : Emitted m) {first : ParsedRequestMetadata}
    (hfirst : parseRequestMetadata overflow (requestMetadataJson m) = .ok first)
    (stages : ℕ → NativeStage) (tensorBytes : Bytes) (i : ℕ) {frame : DliFrame}
    (hframe : chainFrame overflow stages ⟨requestMetadataJson m, tensorBytes⟩ i = some frame) :
    ∃ parsed, parseRequestMetadata overflow frame.metadataJson = .ok parsed ∧
      controls parsed = controls first ∧ Stable overflow parsed := by
  induction i generalizing frame with
  | zero =>
    rw [← Option.some.inj hframe]
    exact ⟨first, hfirst, rfl, (first_stable hm hfirst).2⟩
  | succ i ih =>
    rw [chainFrame, Option.bind_eq_some_iff] at hframe
    obtain ⟨previous, hprevious, hnext⟩ := hframe
    obtain ⟨⟨answer, next⟩, hhop, rfl⟩ := Option.map_eq_some_iff.mp hnext
    obtain ⟨parsed, hparsed, hcontrols, hstable⟩ := ih hprevious
    obtain ⟨parsed', hparsed', hsame, -, hstable'⟩ := hop_stable hstable hparsed hhop
    exact ⟨parsed', hparsed', hsame.trans hcontrols, hstable'⟩

/-- Over any number of hops every stage reads the controls that the first stage
reads, each from its own source, and the tensor of the stage before it. -/
theorem metadata_survives {m : RequestMetadata} (hm : Emitted m) {first : ParsedRequestMetadata}
    (hfirst : parseRequestMetadata overflow (requestMetadataJson m) = .ok first)
    (stages : ℕ → NativeStage) (tensorBytes : Bytes) :
    ReadFrom m first ∧ ∀ i frame,
      chainFrame overflow stages ⟨requestMetadataJson m, tensorBytes⟩ i = some frame →
        ∃ parsed, parseRequestMetadata overflow frame.metadataJson = .ok parsed ∧
          controls parsed = controls first ∧
          ∀ answer next, hop overflow (stages i) frame = some (answer, next) →
            ∃ parsed', parseRequestMetadata overflow next.metadataJson = .ok parsed' ∧
              controls parsed' = controls first ∧
              parsed'.tensor = answer.outputTensor.metadata := by
  refine ⟨(first_stable hm hfirst).1, fun i frame hframe => ?_⟩
  obtain ⟨parsed, hparsed, hcontrols, hstable⟩ :=
    chain_stable hm hfirst stages tensorBytes i hframe
  refine ⟨parsed, hparsed, hcontrols, fun answer next hhop => ?_⟩
  obtain ⟨parsed', hparsed', hsame, htensor, -⟩ := hop_stable hstable hparsed hhop
  exact ⟨parsed', hparsed', hsame.trans hcontrols, htensor⟩

/-- A request with a nucleus bound and a seed. -/
def seededRequest : RequestMetadata where
  requestId := ascii "r-1"
  tokenIndex := 0
  generationMode := ascii "prefill"
  dtype := ascii "int64"
  shape := [1, 3]
  activationPrecision := ascii "fp\"16"
  persistentSessionsEnabled := true
  nativeStageChainingEnabled := true
  minNewTokens := 0
  applyChatTemplate := false
  metadataLevel := ascii "debug"
  temperature := 0
  topK := 40
  topP := some (1 / 2)
  seed := some 7

theorem seededRequest_emitted : Emitted seededRequest where
  fits := ⟨by unfold IsInt; decide, by unfold IsInt; decide, by decide⟩
  shape := by decide
  temperature := le_rfl
  topP p hp := by
    rw [← Option.some.inj hp]
    norm_num
  seed s hs := by
    rw [← Option.some.inj hs]
    decide

/-- The request over a chain of stubs. -/
theorem metadata_survives_stubs : ∃ first,
    parseRequestMetadata (fun _ => 0) (requestMetadataJson seededRequest) = .ok first ∧
      ReadFrom seededRequest first ∧ ∀ i frame,
        chainFrame (fun _ => 0) (fun i => stubStage (ascii "s\",\"seed\":1") i 1)
            ⟨requestMetadataJson seededRequest, []⟩ i = some frame →
          ∃ parsed, parseRequestMetadata (fun _ => 0) frame.metadataJson = .ok parsed ∧
            controls parsed = controls first ∧
            ∀ answer next,
              hop (fun _ => 0) (stubStage (ascii "s\",\"seed\":1") i 1) frame =
                some (answer, next) →
              ∃ parsed', parseRequestMetadata (fun _ => 0) next.metadataJson = .ok parsed' ∧
                controls parsed' = controls first ∧
                parsed'.tensor = answer.outputTensor.metadata := by
  have hm := seededRequest_emitted
  have htemperature : readOptional (ascii "temperature")
      (some (sixDigits.round seededRequest.temperature)) = .ok (some 0) := by
    show readDouble _ (sixDigits.round 0) = _
    rw [readDouble, NumberFormat.round_zero, stod_zero]
  have hexact : ∀ s ∈ seededRequest.seed, ∃ x, stod s = some x ∧ toLongLong (fun _ => 0) x = s :=
    fun s hs => ⟨s, seed_exact (hm.seed s hs)⟩
  obtain ⟨x, hseed, -⟩ := @readOptional_seed _ (ascii "seed") _ hexact
  have hfirst := (parse_request (fun _ => 0) hm.fits).trans
    (readControls_ok (fun _ => 0) htemperature (readOptional_decimals hm.topP).1 hseed)
  exact ⟨_, hfirst, metadata_survives hm hfirst (fun i => stubStage (ascii "s\",\"seed\":1") i 1) []⟩

end Requests

end LayerInference.MetadataHops
