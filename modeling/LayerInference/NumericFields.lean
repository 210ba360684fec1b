import LayerInference.GenerateRequests
import LayerInference.MetadataHops
import LayerInference.NumberReads
import LayerInference.PartialRuntime

/-!
# The numbers of a request on their way

The integer fields reach the loop clamped when they fit an `int`, and as their
defaults otherwise. The seed takes a longer way: the gateway reads a double and
converts it, the metadata write an integer, and every stage reads a double again.
It reaches each stage of a chain unchanged exactly when the nearest double converts
back to it.
-/

namespace LayerInference.NumericFields

open ByteStrings TextStreams QuotedTexts JsonFields Rounding NumberTexts NumberReads JsonPieces
  RequestBodies TensorAbi FloatArithmetic CpuExecutor FrameProtocol FallibleRuns MetadataTexts
  MetadataReader MetadataRoundTrips MetadataHops PartialRuntime GenerateRequests

section Integers

/-- The integer that the search for a field finds, and the number. -/
def integerOf (name : String) (body : Body) : Option ℤ :=
  fieldOf (ascii name) readInteger body.members

def numberOf (name : String) (body : Body) : Option ℚ :=
  fieldOf (ascii name) readNumber body.members

/-- An integer between zero and the ceiling. -/
def clamped (n : ℤ) : ℤ := max 0 (min kMaxNewTokensCeiling n)

/-- The integer found fits an `int` and clamps as the integer sent does, or none that
fits is found and the default does: up to a function of the result. -/
def Clamps (f : ℤ → ℤ) (defaultValue : ℤ) (found : Option ℤ) (n : ℤ) : Prop :=
  (∃ k, found = some k ∧ IsInt k ∧ f (clamped k) = f (clamped n)) ∨
    (∀ k, found = some k → ¬IsInt k) ∧ f defaultValue = f (clamped n)

theorem stoiValue_eq_some_iff {k n : ℤ} : stoiValue k = some n ↔ IsInt k ∧ n = k := by
  by_cases hfits : IsInt k
  · have hvalue : stoiValue k = some k := if_pos hfits
    rw [hvalue]
    exact ⟨fun h => ⟨hfits, (Option.some.inj h).symm⟩, fun h => congrArg some h.2.symm⟩
  · have hvalue : stoiValue k = none := if_neg hfits
    rw [hvalue]
    exact iff_of_false (Option.some_ne_none n).symm fun h => hfits h.1

theorem stoiValue_eq_none {k : ℤ} (h : ¬IsInt k) : stoiValue k = none := if_neg h

/-- What an integer field becomes. -/
theorem clampInt_cases (defaultValue : ℤ) (found : Option ℤ) :
    (∃ k, found = some k ∧ IsInt k ∧
        clampInt defaultValue 0 kMaxNewTokensCeiling found = clamped k) ∨
      (∀ k, found = some k → ¬IsInt k) ∧
        clampInt defaultValue 0 kMaxNewTokensCeiling found = defaultValue := by
  cases found with
  | none => exact Or.inr ⟨fun k hk => absurd hk (Option.some_ne_none k).symm, rfl⟩
  | some k =>
    unfold clampInt
    rw [Option.bind_some]
    by_cases hfits : IsInt k
    · rw [stoiValue_eq_some_iff.mpr ⟨hfits, rfl⟩]
      exact Or.inl ⟨k, rfl, hfits, rfl⟩
    · rw [stoiValue_eq_none hfits]
      exact Or.inr ⟨fun j hj => Option.some.inj hj ▸ hfits, rfl⟩

/-- A field of an `int` arrives exactly in these cases. -/
theorem clampInt_eq_iff (f : ℤ → ℤ) (defaultValue n : ℤ) (found : Option ℤ) :
    f (clampInt defaultValue 0 kMaxNewTokensCeiling found) = f (clamped n) ↔
      Clamps f defaultValue found n := by
  rcases clampInt_cases defaultValue found with ⟨k, hk, hfits, hvalue⟩ | ⟨hnone, hvalue⟩
  · rw [hvalue]
    constructor
    · exact fun h => Or.inl ⟨k, hk, hfits, h⟩
    · intro h
      rcases h with ⟨j, hj, -, h⟩ | ⟨hnone, -⟩
      · rw [Option.some.inj (hk.symm.trans hj)]
        exact h
      · exact absurd hfits (hnone k hk)
  · rw [hvalue]
    constructor
    · exact fun h => Or.inr ⟨hnone, h⟩
    · intro h
      rcases h with ⟨k, hk, hfits, -⟩ | ⟨-, h⟩
      · exact absurd hfits (hnone k hk)
      · exact h

/-- Where the search finds the integer that was sent, it has to fit an `int`, or to clamp
to the default anyway. -/
theorem clamps_own_iff (f : ℤ → ℤ) (defaultValue n : ℤ) :
    Clamps f defaultValue (some n) n ↔ IsInt n ∨ f defaultValue = f (clamped n) := by
  constructor
  · intro h
    rcases h with ⟨k, hk, hfits, -⟩ | ⟨-, h⟩
    · exact Or.inl (Option.some.inj hk ▸ hfits)
    · exact Or.inr h
  · intro h
    by_cases hfits : IsInt n
    · exact Or.inl ⟨n, rfl, hfits, rfl⟩
    · exact Or.inr ⟨fun k hk => Option.some.inj hk ▸ hfits, h.resolve_left hfits⟩

end Integers

section Seeds

variable {F D G : Type} [FloatArith F] [FloatArith D] [Numerics F D G]

/-- The request of a stage as its runtime takes it. -/
def runtimeRequest (toDouble : ℚ → D) (request : StageRequest) : RuntimeRequest D where
  requestId := request.requestId
  tokenIndex := request.tokenIndex
  generationMode := request.generationMode
  inputMetadataJson := request.inputMetadataJson
  inputTensor := request.inputTensor
  kvCacheEnabled := request.kvCacheEnabled
  activationPrecision := request.activationPrecision
  transportMode := request.transportMode
  persistentSessionsEnabled := request.persistentSessionsEnabled
  metadataLevel := request.metadataLevel
  nativeStageChainingEnabled := request.nativeStageChainingEnabled
  temperature := request.temperature.map toDouble
  topK := request.topK
  topP := request.topP.map toDouble
  seed := request.seed

/-- The frames of a generation over a chain of stages, whatever its calls and stages
are: a stage that a frame reaches reads it, and its sampling controls satisfy `P`. -/
def ReachesStages (F : Type) {D G : Type} [FloatArith F] [FloatArith D] [Numerics F D G]
    (toDouble : ℚ → D) (overflow : ℚ → ℤ) (request : GenerateRequest)
    (P : LlamaSamplingParams F → Prop) : Prop :=
  ∀ (requestId : Bytes) (tokenIndex : ℤ) (generationMode dtype : Bytes) (shape : List ℤ),
    IsInt tokenIndex → shape ≠ [] → (∀ d ∈ shape, -2 ^ 63 ≤ d ∧ d < 2 ^ 63) →
    ∀ (stages : ℕ → NativeStage) (tensorBytes : Bytes) (i : ℕ) (frame : DliFrame),
      chainFrame overflow stages
        ⟨requestMetadataJson (request.metadata requestId tokenIndex generationMode dtype shape),
          tensorBytes⟩ i = some frame →
      ∃ parsed, parseRequestMetadata overflow frame.metadataJson = .ok parsed ∧
        P (samplingParams (runtimeRequest toDouble (makeRuntimeRequest frame parsed)))

/-- The seed of the terminal stage is this one. -/
def SeedArrives (F : Type) {D G : Type} [FloatArith F] [FloatArith D] [Numerics F D G]
    (toDouble : ℚ → D) (overflow : ℚ → ℤ) (request : GenerateRequest) (s : ℤ) : Prop :=
  ReachesStages F toDouble overflow request fun sampling =>
    sampling.hasSeed = true ∧ sampling.seed = s

variable {overflow : ℚ → ℤ}

/-- A number that is read as a double and then converted. -/
def Converts (overflow : ℚ → ℤ) (x : ℚ) (s : ℤ) : Prop :=
  ∃ d, stod x = some d ∧ toLongLong overflow d = s

/-- An integer of 64 bits converts to what its nearest double converts to. -/
theorem converts_integer_iff {n : ℤ} (h : |n| ≤ 2 ^ 64) (s : ℤ) :
    Converts overflow n s ↔ toLongLong overflow (binary64.round n) = s := by
  have hread := stod_integer h
  constructor
  · intro hconverts
    obtain ⟨d, hd, hcast⟩ := hconverts
    rw [Option.some.inj (hread.symm.trans hd)]
    exact hcast
  · exact fun hcast => ⟨_, hread, hcast⟩

/-- A number whose six digits are read. -/
def Readable (x : ℚ) : Prop := ∃ value, stod (sixDigits.round x) = some value

/-- What the next stage reads of a number is again readable. -/
theorem Readable.again {x : ℚ} (h : Readable x) :
    ∃ value, stod (sixDigits.round x) = some value ∧ Readable value := by
  obtain ⟨value, hvalue⟩ := h
  have hdigits := sixDigits_stod_signed (sixDigits.holds_round x) hvalue
  refine ⟨value, hvalue, value, ?_⟩
  rw [hdigits]
  exact hvalue

theorem readOptional_readable {key : Bytes} {x : Option ℚ} (h : ∀ v ∈ x, Readable v) :
    ∃ value, readOptional key (x.map sixDigits.round) = .ok value ∧
      ∀ v ∈ value, Readable v := by
  cases x with
  | none => exact ⟨none, rfl, fun v hv => by cases hv⟩
  | some x =>
    obtain ⟨value, hvalue, hagain⟩ := (h x rfl).again
    refine ⟨some value, ?_, fun v hv => Option.some.inj hv ▸ hagain⟩
    show readDouble key (sixDigits.round x) = .ok (some value)
    rw [readDouble, hvalue]

/-- A stage has read the seed, and the next one will be able to read its answer. -/
structure Carries (overflow : ℚ → ℤ) (s : ℤ) (parsed : ParsedRequestMetadata) : Prop where
  tokenIndex : IsInt parsed.tokenIndex
  topK : ∀ k ∈ parsed.topK, IsInt k
  tensor : Shaped parsed.tensor
  temperature : ∀ t ∈ parsed.temperature, Readable t
  topP : ∀ p ∈ parsed.topP, Readable p
  seed : parsed.seed = some s

theorem readOptional_converts {s g : ℤ} (h : Converts overflow g s) :
    ∃ x, readOptional (ascii "seed") ((some g).map Int.cast) = .ok x ∧
      x.map (toLongLong overflow) = some s := by
  obtain ⟨d, hread, hcast⟩ := h
  refine ⟨some d, ?_, congrArg some hcast⟩
  show readDouble _ (g : ℚ) = .ok (some d)
  rw [readDouble, hread]

/-- One hop carries a seed on that its own double converts to. -/
theorem hop_carries {s : ℤ} (hself : Converts overflow s s) {stage : NativeStage}
    {frame next : DliFrame} {answer : StageAnswer} {parsed : ParsedRequestMetadata}
    (hcarries : Carries overflow s parsed)
    (hparsed : parseRequestMetadata overflow frame.metadataJson = .ok parsed)
    (hhop : hop overflow stage frame = some (answer, next)) :
    ∃ parsed', parseRequestMetadata overflow next.metadataJson = .ok parsed' ∧
      Carries overflow s parsed' := by
  obtain ⟨hshaped, htensor, hparse⟩ :=
    hop_reads hcarries.tensor hcarries.tokenIndex hcarries.topK hparsed hhop
  obtain ⟨temperature, htemperature, hagain⟩ :=
    @readOptional_readable (ascii "temperature") _ hcarries.temperature
  obtain ⟨topP, htopP, hagain'⟩ := @readOptional_readable (ascii "top_p") _ hcarries.topP
  obtain ⟨x, hseed, hcast⟩ := readOptional_converts hself
  rw [hcarries.seed] at hparse
  replace hparse := hparse.trans (readControls_ok overflow htemperature htopP hseed)
  refine ⟨_, hparse, ?_⟩
  exact {
    tokenIndex := hcarries.tokenIndex
    topK := hcarries.topK
    tensor := htensor ▸ hshaped
    temperature := hagain
    topP := hagain'
    seed := hcast }

/-- Any number of hops carries it on. -/
theorem chain_carries {s : ℤ} (hself : Converts overflow s s) {first : DliFrame}
    {parsed : ParsedRequestMetadata}
    (hparsed : parseRequestMetadata overflow first.metadataJson = .ok parsed)
    (hcarries : Carries overflow s parsed) (stages : ℕ → NativeStage) (i : ℕ)
    {frame : DliFrame} (hframe : chainFrame overflow stages first i = some frame) :
    ∃ parsed', parseRequestMetadata overflow frame.metadataJson = .ok parsed' ∧
      Carries overflow s parsed' := by
  induction i generalizing frame with
  | zero =>
    rw [← Option.some.inj hframe]
    exact ⟨parsed, hparsed, hcarries⟩
  | succ i ih =>
    rw [chainFrame, Option.bind_eq_some_iff] at hframe
    obtain ⟨previous, hprevious, hnext⟩ := hframe
    obtain ⟨⟨answer, next⟩, hhop, rfl⟩ := Option.map_eq_some_iff.mp hnext
    obtain ⟨reached, hreached, hcarried⟩ := ih hprevious
    exact hop_carries hself hcarried hreached hhop

/-- A seed reaches the sampling parameters as it was read. -/
theorem samplingParams_seed_iff (toDouble : ℚ → D) (frame : DliFrame)
    (parsed : ParsedRequestMetadata) (s : ℤ) :
    ((samplingParams (runtimeRequest toDouble (makeRuntimeRequest frame parsed)) :
        LlamaSamplingParams F).hasSeed = true ∧
      (samplingParams (runtimeRequest toDouble (makeRuntimeRequest frame parsed)) :
        LlamaSamplingParams F).seed = s) ↔ parsed.seed = some s := by
  have hseed : (runtimeRequest toDouble (makeRuntimeRequest frame parsed)).seed =
    parsed.seed := rfl
  unfold samplingParams
  dsimp only
  rw [hseed]
  cases parsed.seed with
  | none => exact iff_of_false (fun h => Bool.false_ne_true h.1) (Option.some_ne_none s).symm
  | some found => exact ⟨fun h => congrArg some h.2, fun h => ⟨rfl, Option.some.inj h⟩⟩

/-- The controls are read when each of them is. -/
theorem readControls_some {fields parsed : ParsedRequestMetadata} {temperature topP seed : Option ℚ}
    (h : readControls overflow fields temperature topP seed = .ok parsed) :
    ∃ t p s, readOptional (ascii "temperature") temperature = .ok t ∧
      readOptional (ascii "top_p") topP = .ok p ∧ readOptional (ascii "seed") seed = .ok s ∧
      parsed = { fields with
        temperature := t
        topP := p
        seed := s.map (toLongLong overflow) } := by
  unfold readControls at h
  obtain ⟨t, ht, h⟩ := ok_of_bind h
  obtain ⟨p, hp, h⟩ := ok_of_bind h
  obtain ⟨s, hs, h⟩ := ok_of_bind h
  exact ⟨t, p, s, ht, hp, hs, (Except.ok.inj h).symm⟩

theorem stod_of_readOptional {key : Bytes} {x : ℚ} {value : Option ℚ}
    (h : readOptional key (some x) = .ok value) : ∃ d, value = some d ∧ stod x = some d := by
  have hread : readDouble key x = .ok value := h
  unfold readDouble at hread
  cases hstod : stod x with
  | none =>
    rw [hstod] at hread
    cases hread
  | some d =>
    rw [hstod] at hread
    exact ⟨d, (Except.ok.inj hread).symm, rfl⟩

/-- A seed that was read is one that converts. -/
theorem converts_of_readOptional {found : Option ℤ} {value : Option ℚ} {s : ℤ}
    (h : readOptional (ascii "seed") (found.map Int.cast) = .ok value)
    (hs : value.map (toLongLong overflow) = some s) :
    ∃ g, found = some g ∧ Converts overflow g s := by
  cases found with
  | none =>
    rw [← Except.ok.inj h] at hs
    cases hs
  | some g =>
    obtain ⟨d, rfl, hread⟩ := stod_of_readOptional h
    exact ⟨g, rfl, d, hread, Option.some.inj hs⟩

end Seeds

section Requests

variable {F D G : Type} [FloatArith F] [FloatArith D] [Numerics F D G] {overflow : ℚ → ℤ}

theorem clampInt_bounds {defaultValue : ℤ} (h : 0 ≤ defaultValue ∧ defaultValue ≤ 2)
    (found : Option ℤ) :
    0 ≤ clampInt defaultValue 0 kMaxNewTokensCeiling found ∧
      clampInt defaultValue 0 kMaxNewTokensCeiling found ≤ kMaxNewTokensCeiling := by
  unfold clampInt kMaxNewTokensCeiling
  cases found.bind stoiValue with
  | none => exact ⟨h.1, h.2.trans (by decide)⟩
  | some parsed =>
    dsimp only
    omega

/-- The metadata of a request fit the types that read them. -/
theorem metadata_fits (overflow : ℚ → ℤ) (bodyText requestId generationMode dtype : Bytes)
    {tokenIndex : ℤ} {shape : List ℤ} (hindex : IsInt tokenIndex)
    (hdims : ∀ d ∈ shape, -2 ^ 63 ≤ d ∧ d < 2 ^ 63) :
    RequestMetadata.Fits ((generateRequest overflow bodyText).metadata requestId tokenIndex
      generationMode dtype shape) where
  tokenIndex := hindex
  topK := by
    have hbounds := clampInt_bounds ⟨le_rfl, by decide⟩
      (searchField (ascii "top_k") scanInteger bodyText)
    unfold kMaxNewTokensCeiling at hbounds
    have hvalue : (generateRequest overflow bodyText).topK = clampInt 0 0 (2 ^ 20)
      (searchField (ascii "top_k") scanInteger bodyText) := rfl
    show IsInt (generateRequest overflow bodyText).topK
    unfold IsInt
    rw [hvalue]
    omega
  shape := hdims

/-- The nucleus bound of a request is read by the first stage, and again by the next. -/
theorem topP_readable (overflow : ℚ → ℤ) (bodyText : Bytes) :
    ∃ value, readOptional (ascii "top_p")
        ((generateRequest overflow bodyText).topP.map (roundTo (10 ^ (-6 : ℤ)))) = .ok value ∧
      ∀ v ∈ value, Readable v := by
  cases htopP : (generateRequest overflow bodyText).topP with
  | none => exact ⟨none, rfl, fun v hv => by cases hv⟩
  | some p =>
    have hread : (searchField (ascii "top_p") requestNumber bodyText).bind stod = some p := htopP
    obtain ⟨x, -, hx⟩ := Option.bind_eq_some_iff.mp hread
    obtain ⟨hvalue, hlarge⟩ := stod_spec hx
    have hholds : binary64.Holds p := hvalue ▸ binary64.holds_round x
    obtain ⟨value, hdecimals, hagain⟩ := stod_decimals hholds hlarge
    refine ⟨some value, ?_, fun v hv => Option.some.inj hv ▸ hagain⟩
    show readDouble _ (roundTo (10 ^ (-6 : ℤ)) p) = .ok (some value)
    rw [readDouble, hdecimals]

/-- The first stage reads a seed that the integer of the gateway converts to. -/
theorem first_carries {bodyText requestId generationMode dtype : Bytes} {tokenIndex s g : ℤ}
    {shape : List ℤ}
    (hfits : RequestMetadata.Fits ((generateRequest overflow bodyText).metadata requestId tokenIndex
      generationMode dtype shape)) (hne : shape ≠ [])
    (htemperature : Readable (generateRequest overflow bodyText).temperature)
    (hseed : (generateRequest overflow bodyText).seed = some g) (hg : Converts overflow g s) :
    ∃ first, parseRequestMetadata overflow (requestMetadataJson ((generateRequest overflow
        bodyText).metadata requestId tokenIndex generationMode dtype shape)) = .ok first ∧
      Carries overflow s first := by
  obtain ⟨t, ht, hagain⟩ := htemperature.again
  have ht' : readOptional (ascii "temperature")
      (some (sixDigits.round (generateRequest overflow bodyText).temperature)) =
        .ok (some t) := by
    show readDouble _ _ = _
    rw [readDouble, ht]
  obtain ⟨topP, htopP, hagain'⟩ := topP_readable overflow bodyText
  obtain ⟨x, hx, hcast⟩ := readOptional_converts hg
  rw [← hseed] at hx
  refine ⟨_, (parse_request overflow hfits).trans (readControls_ok overflow ht' htopP hx), ?_⟩
  exact {
    tokenIndex := hfits.tokenIndex
    topK := fun k hk => Option.some.inj hk ▸ hfits.topK
    tensor := shaped_request hne hfits.shape
    temperature := fun v hv => Option.some.inj hv ▸ hagain
    topP := hagain'
    seed := hcast }

/-- A stub passes on every frame that it can read. -/
theorem stub_hop (serviceName : Bytes) (stageId : ℤ) (computeTimeMs : ℚ) {frame : DliFrame}
    {parsed : ParsedRequestMetadata}
    (hparsed : parseRequestMetadata overflow frame.metadataJson = .ok parsed) :
    ∃ answer next, hop overflow (stubStage serviceName stageId computeTimeMs) frame =
      some (answer, next) := by
  unfold hop
  rw [hparsed]
  exact ⟨_, _, rfl⟩

/-- The seed of a request arrives exactly when the stages can read the temperature, the
integer that the gateway sends converts to the seed, and the seed to itself. -/
theorem seedArrives_iff (toDouble : ℚ → D) (overflow : ℚ → ℤ) (bodyText : Bytes) (s : ℤ) :
    SeedArrives F toDouble overflow (generateRequest overflow bodyText) s ↔
      Readable (generateRequest overflow bodyText).temperature ∧
        ∃ g, (generateRequest overflow bodyText).seed = some g ∧ Converts overflow g s ∧
          Converts overflow s s := by
  constructor
  · intro harrives
    -- one token index and one dimension are enough, over a chain of stubs
    have hindex : IsInt 0 := by
      unfold IsInt
      decide
    have hdims : ∀ d ∈ [(1 : ℤ)], -2 ^ 63 ≤ d ∧ d < 2 ^ 63 := by decide
    have hne : [(1 : ℤ)] ≠ [] := List.cons_ne_nil _ _
    have hparse := parse_request overflow
      (metadata_fits overflow bodyText [] [] [] hindex hdims)
    obtain ⟨parsed, hparsed, hseed⟩ := harrives [] 0 [] [] [1] hindex hne hdims
      (fun _ => stubStage [] 0 0) [] 0 _ rfl
    rw [samplingParams_seed_iff] at hseed
    obtain ⟨t, p, x, ht, -, hx, hfields⟩ := readControls_some (hparse.symm.trans hparsed)
    obtain ⟨d, -, hd⟩ := stod_of_readOptional ht
    have hcast : x.map (toLongLong overflow) = some s := by
      rw [hfields] at hseed
      exact hseed
    obtain ⟨g, hg, hfirst⟩ := converts_of_readOptional hx hcast
    refine ⟨⟨d, hd⟩, g, hg, hfirst, ?_⟩
    -- the second stage reads the seed that the first one writes
    obtain ⟨answer, next, hhop⟩ := stub_hop [] 0 0 hparsed
    obtain ⟨again, hagain, hseed'⟩ := harrives [] 0 [] [] [1] hindex hne hdims
      (fun _ => stubStage [] 0 0) [] 1 next (by
        rw [chainFrame, chainFrame, Option.bind_some, hhop]
        rfl)
    rw [samplingParams_seed_iff] at hseed'
    have hshaped : Shaped parsed.tensor := by
      rw [hfields]
      exact shaped_request hne hdims
    have hsame : IsInt parsed.tokenIndex ∧ ∀ k ∈ parsed.topK, IsInt k := by
      rw [hfields]
      exact ⟨hindex, fun k hk => Option.some.inj hk ▸
        (metadata_fits overflow bodyText [] [] [] hindex hdims).topK⟩
    obtain ⟨-, -, hnext⟩ := hop_reads hshaped hsame.1 hsame.2 hparsed hhop
    rw [hseed] at hnext
    obtain ⟨t', p', y, -, -, hy, hfields'⟩ := readControls_some (hnext.symm.trans hagain)
    have hcast' : y.map (toLongLong overflow) = some s := by
      rw [hfields'] at hseed'
      exact hseed'
    obtain ⟨g', hg', hself⟩ := converts_of_readOptional hy hcast'
    rw [← Option.some.inj hg'] at hself
    exact hself
  · intro h requestId tokenIndex generationMode dtype shape hindex hne hdims stages tensorBytes i
      frame hframe
    obtain ⟨htemperature, g, hg, hfirst, hself⟩ := h
    have hfits := metadata_fits overflow bodyText requestId generationMode dtype
      hindex hdims
    obtain ⟨first, hparse, hstart⟩ := first_carries hfits hne htemperature hg hfirst
    obtain ⟨parsed, hparsed, hcarries⟩ := chain_carries hself hparse hstart stages i hframe
    exact ⟨parsed, hparsed, (samplingParams_seed_iff toDouble frame parsed s).mpr hcarries.seed⟩

/-- The temperature that a body asks for. -/
def temperatureOf (body : Body) : ℚ := max 0 (((numberOf "temperature" body).bind stod).getD 0)

theorem maxNewTokens_body (overflow : ℚ → ℤ) {body : Body} (hbody : body.WellFormed) :
    (generateRequest overflow body.text).maxNewTokens =
      clampInt 2 0 kMaxNewTokensCeiling (integerOf "max_new_tokens" body) :=
  parseIntFieldOrDefault_body hbody (by decide) 2 0 kMaxNewTokensCeiling

theorem minNewTokens_body (overflow : ℚ → ℤ) {body : Body} (hbody : body.WellFormed) :
    (generateRequest overflow body.text).minNewTokens =
      min (generateRequest overflow body.text).maxNewTokens
        (clampInt 0 0 kMaxNewTokensCeiling (integerOf "min_new_tokens" body)) :=
  congrArg (min _) (parseIntFieldOrDefault_body hbody (by decide) 0 0 kMaxNewTokensCeiling)

theorem topK_body (overflow : ℚ → ℤ) {body : Body} (hbody : body.WellFormed) :
    (generateRequest overflow body.text).topK =
      clampInt 0 0 kMaxNewTokensCeiling (integerOf "top_k" body) :=
  parseIntFieldOrDefault_body hbody (by decide) 0 0 kMaxNewTokensCeiling

theorem temperature_body (overflow : ℚ → ℤ) {body : Body} (hbody : body.WellFormed) :
    (generateRequest overflow body.text).temperature = temperatureOf body :=
  congrArg (fun found => max 0 (Option.getD found 0)) (parseDoubleField_body hbody (by decide))

/-- The integer that the gateway sends as the seed of a body. -/
theorem seed_body {body : Body} (hbody : body.WellFormed) (g : ℤ) :
    (generateRequest overflow body.text).seed = some g ↔
      ∃ x, numberOf "seed" body = some x ∧ Converts overflow x g := by
  have hseed : (generateRequest overflow body.text).seed =
      ((numberOf "seed" body).bind stod).map (toLongLong overflow) :=
    congrArg (Option.map (toLongLong overflow)) (parseDoubleField_body hbody (by decide))
  rw [hseed, Option.map_eq_some_iff]
  constructor
  · intro h
    obtain ⟨d, hd, hg⟩ := h
    obtain ⟨x, hx, hread⟩ := Option.bind_eq_some_iff.mp hd
    exact ⟨x, hx, d, hread, hg⟩
  · intro h
    obtain ⟨x, hx, d, hread, hg⟩ := h
    exact ⟨d, Option.bind_eq_some_iff.mpr ⟨x, hx, hread⟩, hg⟩

/-- The numbers of a flat object arrive exactly when: the integers found fit an `int`, or
clamp to the default anyway; and the seed found is converted to an integer that the stages
convert to the seed, which converts to itself, in metadata with a readable temperature. -/
theorem numeric_fields_iff (toDouble : ℚ → D) (overflow : ℚ → ℤ) {body : Body}
    (hbody : body.WellFormed) :
    (∀ n, (generateRequest overflow body.text).maxNewTokens = clamped n ↔
        Clamps id 2 (integerOf "max_new_tokens" body) n) ∧
      (∀ n, (generateRequest overflow body.text).minNewTokens =
          min (generateRequest overflow body.text).maxNewTokens (clamped n) ↔
        Clamps (min (clampInt 2 0 kMaxNewTokensCeiling (integerOf "max_new_tokens" body))) 0
          (integerOf "min_new_tokens" body) n) ∧
      (∀ n, (generateRequest overflow body.text).topK = clamped n ↔
        Clamps id 0 (integerOf "top_k" body) n) ∧
      ∀ s, SeedArrives F toDouble overflow (generateRequest overflow body.text) s ↔
        Readable (temperatureOf body) ∧ ∃ x g, numberOf "seed" body = some x ∧
          Converts overflow x g ∧ Converts overflow g s ∧ Converts overflow s s := by
  refine ⟨fun n => ?_, fun n => ?_, fun n => ?_, fun s => ?_⟩
  · rw [maxNewTokens_body _ hbody]
    exact clampInt_eq_iff id 2 n _
  · rw [minNewTokens_body _ hbody, maxNewTokens_body _ hbody]
    exact clampInt_eq_iff _ 0 n _
  · rw [topK_body _ hbody]
    exact clampInt_eq_iff id 0 n _
  · rw [seedArrives_iff, temperature_body _ hbody]
    constructor
    · intro h
      obtain ⟨htemperature, g, hg, hconverts⟩ := h
      obtain ⟨x, hx, hfound⟩ := (seed_body hbody g).mp hg
      exact ⟨htemperature, x, g, hx, hfound, hconverts⟩
    · intro h
      obtain ⟨htemperature, x, g, hx, hfound, hconverts⟩ := h
      exact ⟨htemperature, g, (seed_body hbody g).mpr ⟨x, hx, hfound⟩, hconverts⟩

/-- A request with a limit and a seed. -/
def numericBody (maxNewTokens seed : ℤ) : Body where
  members :=
    [{ name := ascii "max_new_tokens", value := .number (decimalLiteral maxNewTokens) },
      { name := ascii "seed", value := .number (decimalLiteral seed) }]

theorem numericBody_wellFormed (maxNewTokens seed : ℤ) :
    (numericBody maxNewTokens seed).WellFormed where
  members := by
    intro m hm
    have hblank : Blank [] := fun _ hb => absurd hb List.not_mem_nil
    rcases List.mem_pair.mp hm with rfl | rfl
    · exact ⟨(keyLiteral_wellFormed (by decide)).escaped, decimalLiteral_wellFormed _,
        hblank, hblank, hblank, hblank⟩
    · exact ⟨(keyLiteral_wellFormed (by decide)).escaped, decimalLiteral_wellFormed _,
        hblank, hblank, hblank, hblank⟩
  blanks := ⟨fun _ hb => absurd hb List.not_mem_nil, fun _ hb => absurd hb List.not_mem_nil,
    fun _ hb => absurd hb List.not_mem_nil⟩

theorem numericBody_maxNewTokens (maxNewTokens seed : ℤ) :
    integerOf "max_new_tokens" (numericBody maxNewTokens seed) = some maxNewTokens :=
  congrArg some (decimalLiteral_integer maxNewTokens)

theorem numericBody_seed (maxNewTokens seed : ℤ) :
    numberOf "seed" (numericBody maxNewTokens seed) = some (seed : ℚ) := by
  have hvalue : (decimalLiteral seed).value = seed := by
    rw [NumberLiteral.value_of_integer rfl rfl, decimalLiteral_integer]
  exact congrArg some hvalue

/-- The numbers of a request with a small limit and a small seed. -/
theorem numeric_fields_small :
    let body := numericBody 3 7
    let request := generateRequest (fun _ => 0) body.text
    (∀ n, request.maxNewTokens = clamped n ↔
        Clamps id 2 (integerOf "max_new_tokens" body) n) ∧
      (∀ n, request.minNewTokens = min request.maxNewTokens (clamped n) ↔
        Clamps (min (clampInt 2 0 kMaxNewTokensCeiling (integerOf "max_new_tokens" body))) 0
          (integerOf "min_new_tokens" body) n) ∧
      (∀ n, request.topK = clamped n ↔ Clamps id 0 (integerOf "top_k" body) n) ∧
      ∀ s, SeedArrives Binary32 (fun x => SoftFloat.ofRatio x.num x.den) (fun _ => 0) request s ↔
        Readable (temperatureOf body) ∧ ∃ x g, numberOf "seed" body = some x ∧
          Converts (fun _ => 0) x g ∧ Converts (fun _ => 0) g s ∧ Converts (fun _ => 0) s s :=
  numeric_fields_iff _ _ (numericBody_wellFormed 3 7)

/-- A limit of 2147483648 tokens arrives as two tokens, and a seed of 9007199254740993
does not arrive. -/
theorem not_numeric_fields_large :
    let body := numericBody (2 ^ 31) (2 ^ 53 + 1)
    let request := generateRequest (fun _ => 0) body.text
    body.WellFormed ∧ integerOf "max_new_tokens" body = some (2 ^ 31) ∧
      request.maxNewTokens = 2 ∧ clamped (2 ^ 31) = 2 ^ 20 ∧
      numberOf "seed" body = some ((2 ^ 53 + 1 : ℤ) : ℚ) ∧
      ¬SeedArrives Binary32 (fun x => SoftFloat.ofRatio x.num x.den) (fun _ => 0) request
        (2 ^ 53 + 1) := by
  have hbody := numericBody_wellFormed (2 ^ 31) (2 ^ 53 + 1)
  refine ⟨hbody, numericBody_maxNewTokens _ _, ?_, by decide, numericBody_seed _ _, ?_⟩
  · rw [maxNewTokens_body _ hbody, numericBody_maxNewTokens]
    decide
  · intro harrives
    obtain ⟨-, g, -, -, hself⟩ := (seedArrives_iff _ _ _ _).mp harrives
    rw [converts_integer_iff (by decide)] at hself
    revert hself
    decide +kernel

end Requests

end LayerInference.NumericFields
