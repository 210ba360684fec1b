import LayerInference.ExactSampling
import LayerInference.NumericFields
import Mathlib.Data.List.Permutation

/-!
# The nucleus of a requested bound

The bound of a request is read by the gateway, written with six decimals, read and
written once for every hop, and rounded to a float. All of this keeps the order of
two bounds. A bound whose decimals are not all zero stays positive, and then a
greater one keeps at least the same candidates. A bound of zero switches the
filter off, and all first candidates are kept.
-/

namespace LayerInference.NucleusBounds

open ByteStrings JsonFields Rounding NumberTexts NumberReads RequestBodies TensorAbi
  FloatArithmetic CpuExecutor PartitionExecution FrameProtocol MetadataTexts MetadataReader MetadataRoundTrips
  MetadataHops PartialRuntime GenerateRequests NumericFields Sampling RunningSums ExactSampling

section Controls

variable {overflow : ℚ → ℤ} {temperature topP : Option ℚ} {topK : Option ℤ}

/-- A stage that passes a frame on has read it. -/
theorem hop_parsed {stage : NativeStage} {frame next : DliFrame} {answer : StageAnswer}
    (hhop : hop overflow stage frame = some (answer, next)) :
    ∃ parsed, parseRequestMetadata overflow frame.metadataJson = .ok parsed := by
  unfold hop at hhop
  cases hparse : parseRequestMetadata overflow frame.metadataJson with
  | error message =>
    rw [hparse] at hhop
    cases hhop
  | ok parsed => exact ⟨parsed, rfl⟩

/-- A stage has read these sampling controls, which the next one will read again. -/
structure Controlled (temperature topP : Option ℚ) (topK : Option ℤ)
    (parsed : ParsedRequestMetadata) : Prop where
  temperature : parsed.temperature = temperature
  topP : parsed.topP = topP
  topK : parsed.topK = topK
  tokenIndex : IsInt parsed.tokenIndex
  fits : ∀ k ∈ parsed.topK, IsInt k
  tensor : Shaped parsed.tensor
  temperatureStable : ∀ t ∈ parsed.temperature, StableNumber t
  topPStable : ∀ p ∈ parsed.topP, StableNumber p

/-- One hop keeps the controls, when the next stage can read its frame at all. -/
theorem hop_controlled {stage : NativeStage} {frame next : DliFrame} {answer : StageAnswer}
    {parsed parsed' : ParsedRequestMetadata}
    (hparsed : parseRequestMetadata overflow frame.metadataJson = .ok parsed)
    (hcontrolled : Controlled temperature topP topK parsed)
    (hhop : hop overflow stage frame = some (answer, next))
    (hnext : parseRequestMetadata overflow next.metadataJson = .ok parsed') :
    Controlled temperature topP topK parsed' := by
  obtain ⟨hshaped, htensor, hparse⟩ :=
    hop_reads hcontrolled.tensor hcontrolled.tokenIndex hcontrolled.fits hparsed hhop
  obtain ⟨t, p, s, ht, hp, -, hfields⟩ := readControls_some (hparse.symm.trans hnext)
  have ht' := Except.ok.inj ((readOptional_stable hcontrolled.temperatureStable).symm.trans ht)
  have hp' := Except.ok.inj ((readOptional_stable hcontrolled.topPStable).symm.trans hp)
  rw [hfields, ← ht', ← hp']
  exact { hcontrolled with tensor := htensor ▸ hshaped }

/-- Any number of hops keeps them. -/
theorem chain_controlled {first : DliFrame}
    (hfirst : ∀ parsed, parseRequestMetadata overflow first.metadataJson = .ok parsed →
      Controlled temperature topP topK parsed)
    (stages : ℕ → NativeStage) (i : ℕ) {frame : DliFrame} {parsed : ParsedRequestMetadata}
    (hframe : chainFrame overflow stages first i = some frame)
    (hparsed : parseRequestMetadata overflow frame.metadataJson = .ok parsed) :
    Controlled temperature topP topK parsed := by
  induction i generalizing frame parsed with
  | zero =>
    rw [← Option.some.inj hframe] at hparsed
    exact hfirst parsed hparsed
  | succ i ih =>
    rw [chainFrame, Option.bind_eq_some_iff] at hframe
    obtain ⟨previous, hprevious, hnext⟩ := hframe
    obtain ⟨⟨answer, next⟩, hhop, rfl⟩ := Option.map_eq_some_iff.mp hnext
    obtain ⟨reached, hreached⟩ := hop_parsed hhop
    exact hop_controlled hreached (ih hprevious hreached) hhop hparsed

end Controls

section Values

/-- The decimals with which the gateway writes a bound. -/
def sentDecimals (p : ℚ) : ℚ := roundTo (10 ^ (-6 : ℤ)) (binary64.round p)

/-- The bound that every stage reads. -/
def readBound (p : ℚ) : Option ℚ := (stod p).map fun _ => binary64.round (sentDecimals p)

/-- The bound as the sampler has it: one, if it has none. -/
def floatBound (p : ℚ) : ℚ := ((readBound p).map binary32.round).getD 1

variable {p q : ℚ}

theorem binary64_unit (hlow : 0 ≤ p) (hhigh : p ≤ 1) :
    0 ≤ binary64.round p ∧ binary64.round p ≤ 1 := by
  have hone : binary64.round ((1 : ℤ) : ℚ) = ((1 : ℤ) : ℚ) := binary64_integer (by decide)
  rw [Int.cast_one] at hone
  exact ⟨binary64.round_nonneg hlow, (binary64.round_mono hlow hhigh).trans_eq hone⟩

theorem readBound_eq (hlow : 0 ≤ p) (hhigh : p ≤ 1) :
    readOptional (ascii "top_p") ((stod p).map (roundTo (10 ^ (-6 : ℤ)))) = .ok (readBound p) ∧
      ∀ v ∈ readBound p, StableNumber v := by
  have hunit := binary64_unit hlow hhigh
  have hrange : ∀ d ∈ stod p, 0 ≤ d ∧ d ≤ 1 := by
    intro d hd
    rw [(stod_spec hd).1]
    exact hunit
  have hsame : readBound p =
      (stod p).map fun d => binary64.round (roundTo (10 ^ (-6 : ℤ)) d) := by
    unfold readBound sentDecimals
    cases hread : stod p with
    | none => rfl
    | some d => rw [(stod_spec hread).1]; rfl
  rw [hsame]
  exact readOptional_decimals hrange

/-- The metadata of a request with a bound in the unit interval. -/
theorem first_controlled {overflow : ℚ → ℤ} {body : Body} (hbody : body.WellFormed)
    (hp : numberOf "top_p" body = some p) (hlow : 0 ≤ p) (hhigh : p ≤ 1)
    {requestId generationMode dtype : Bytes} {tokenIndex : ℤ} {shape : List ℤ}
    (hindex : IsInt tokenIndex) (hne : shape ≠ [])
    (hdims : ∀ d ∈ shape, -2 ^ 63 ≤ d ∧ d < 2 ^ 63) {parsed : ParsedRequestMetadata}
    (hparsed : parseRequestMetadata overflow (requestMetadataJson ((generateRequest overflow
      body.text).metadata requestId tokenIndex generationMode dtype shape)) = .ok parsed) :
    Controlled (stod (sixDigits.round (temperatureOf body))) (readBound p)
      (some (clampInt 0 0 kMaxNewTokensCeiling (integerOf "top_k" body))) parsed := by
  have hfits := metadata_fits overflow body.text requestId generationMode dtype
    hindex hdims
  obtain ⟨hbound, hstable⟩ := readBound_eq hlow hhigh
  have htopP : (generateRequest overflow body.text).topP = stod p := by
    have hread : (generateRequest overflow body.text).topP =
        (fieldOf (ascii "top_p") readNumber body.members).bind stod :=
      parseDoubleField_body hbody (by decide)
    have hfound : fieldOf (ascii "top_p") readNumber body.members = some p := hp
    rw [hread, hfound, Option.bind_some]
  obtain ⟨t, b, s, ht, hb, -, hfields⟩ :=
    readControls_some ((parse_request overflow hfits).symm.trans hparsed)
  have hsent : ((generateRequest overflow body.text).metadata requestId tokenIndex generationMode
      dtype shape).topP = stod p := htopP
  rw [hsent] at hb
  have hb' := Except.ok.inj (hbound.symm.trans hb)
  obtain ⟨d, rfl, hd⟩ := stod_of_readOptional ht
  have hsentTemperature : ((generateRequest overflow body.text).metadata requestId tokenIndex
      generationMode dtype shape).temperature = temperatureOf body := temperature_body overflow hbody
  rw [hsentTemperature] at hd
  rw [hfields]
  exact {
    temperature := hd.symm
    topP := hb'.symm
    topK := congrArg some (topK_body overflow hbody)
    tokenIndex := hindex
    fits := fun k hk => Option.some.inj hk ▸ hfits.topK
    tensor := shaped_request hne hdims
    temperatureStable := fun v hv => by
      rw [← Option.some.inj hv]
      exact stableNumber_stod (le_max_left 0 _) hd
    topPStable := hb' ▸ hstable }

/-- The decimals of a bound in the unit interval keep its order. -/
theorem sentDecimals_mono (hlow : 0 ≤ p) (hle : p ≤ q) :
    0 ≤ sentDecimals p ∧ sentDecimals p ≤ sentDecimals q := by
  have hunit : (0 : ℚ) < 10 ^ (-6 : ℤ) := zpow_pos (by norm_num) _
  have hround := binary64.round_mono hlow hle
  exact ⟨(roundTo_zero _).symm.trans_le (roundTo_mono hunit (binary64.round_nonneg hlow)),
    roundTo_mono hunit hround⟩

/-- A decimal of a bound counts at least a millionth. -/
theorem millionth_le (hlow : 0 ≤ p) (hdecimals : sentDecimals p ≠ 0) :
    (10 : ℚ) ^ (-6 : ℤ) ≤ sentDecimals p := by
  have hunit : (0 : ℚ) < 10 ^ (-6 : ℤ) := zpow_pos (by norm_num) _
  have hnonneg := (sentDecimals_mono hlow le_rfl).1
  have hcount : sentDecimals p =
    (roundEven (binary64.round p / 10 ^ (-6 : ℤ)) : ℚ) * 10 ^ (-6 : ℤ) := rfl
  generalize roundEven (binary64.round p / 10 ^ (-6 : ℤ)) = n at hcount
  have hpos : 0 < (n : ℚ) := by
    have hproduct : 0 < (n : ℚ) * 10 ^ (-6 : ℤ) :=
      hcount ▸ lt_of_le_of_ne hnonneg (Ne.symm hdecimals)
    exact (mul_pos_iff_of_pos_right hunit).mp hproduct
  have hone : (1 : ℚ) ≤ n := by
    have hint : 0 < n := by exact_mod_cast hpos
    exact_mod_cast hint
  rw [hcount]
  exact le_mul_of_one_le_left hunit.le hone

/-- A bound with a decimal is not too small to be read. -/
theorem stod_of_decimals (hlow : 0 ≤ p) (hhigh : p ≤ 1) (hdecimals : sentDecimals p ≠ 0) :
    stod p = some (binary64.round p) := by
  have hnormal : (2 : ℚ) ^ (-1022 : ℤ) ≤ p := by
    by_contra hsmall
    have hpower : binary64.Holds (((1 : ℤ) : ℚ) * ((2 : ℕ) : ℚ) ^ (-21 : ℤ)) :=
      binary64.holds_of_multiple (by decide) fun least hleast => by
        rw [← Option.some.inj hleast]
        decide
    rw [Int.cast_one, one_mul, Nat.cast_ofNat] at hpower
    have hstep : (2 : ℚ) ^ (-1022 : ℤ) ≤ 2 ^ (-21 : ℤ) :=
      zpow_le_zpow_right₀ (by norm_num) (by norm_num)
    have hround := (binary64.round_mono hlow ((not_le.mp hsmall).le.trans hstep)).trans_eq
      (binary64.round_of_holds hpower)
    have hunit : (0 : ℚ) < 10 ^ (-6 : ℤ) := zpow_pos (by norm_num) _
    have hhalf : (2 : ℚ) ^ (-21 : ℤ) < 10 ^ (-6 : ℤ) / 2 := by norm_num
    have hzero : roundTo (10 ^ (-6 : ℤ)) (binary64.round p) =
        ((0 : ℤ) : ℚ) * 10 ^ (-6 : ℤ) := by
      refine roundTo_of_near hunit ?_
      rw [Int.cast_zero, zero_mul, sub_zero, abs_of_nonneg (binary64.round_nonneg hlow)]
      exact hround.trans_lt hhalf
    rw [Int.cast_zero, zero_mul] at hzero
    exact hdecimals hzero
  have hunit := binary64_unit hlow hhigh
  refine stod_of_normal (hnormal.trans (le_abs_self p)) ?_
  rw [abs_of_nonneg hunit.1]
  exact hunit.2.trans_lt (one_lt_pow₀ (by norm_num) (by norm_num))

/-- A bound with a decimal stays positive, and a greater one stays greater. -/
theorem floatBound_mono (hlow : 0 ≤ p) (hle : p ≤ q) (hhigh : q ≤ 1)
    (hdecimals : sentDecimals p ≠ 0) : 0 < floatBound p ∧ floatBound p ≤ floatBound q := by
  have hmono := sentDecimals_mono hlow hle
  have hmillionth := millionth_le hlow hdecimals
  have hunit : (0 : ℚ) < 10 ^ (-6 : ℤ) := zpow_pos (by norm_num) _
  have hdecimals' : sentDecimals q ≠ 0 :=
    (hunit.trans_le (hmillionth.trans hmono.2)).ne'
  have hvalue : ∀ {x : ℚ}, 0 ≤ x → x ≤ 1 → sentDecimals x ≠ 0 →
      floatBound x = binary32.round (binary64.round (sentDecimals x)) := by
    intro x hx hx' hne
    rw [floatBound, readBound, stod_of_decimals hx hx' hne]
    rfl
  rw [hvalue hlow (hle.trans hhigh) hdecimals, hvalue (hlow.trans hle) hhigh hdecimals']
  have hround := binary64.round_mono hmono.1 hmono.2
  have hstep : (2 : ℚ) ^ (-20 : ℤ) ≤ sentDecimals p := by
    refine le_trans ?_ hmillionth
    norm_num
  have hholds64 : binary64.Holds (((1 : ℤ) : ℚ) * ((2 : ℕ) : ℚ) ^ (-20 : ℤ)) :=
    binary64.holds_of_multiple (by decide) fun least hleast => by
      rw [← Option.some.inj hleast]
      decide
  have hholds32 : binary32.Holds (((1 : ℤ) : ℚ) * ((2 : ℕ) : ℚ) ^ (-20 : ℤ)) :=
    binary32.holds_of_multiple (by decide) fun least hleast => by
      rw [← Option.some.inj hleast]
      decide
  rw [Int.cast_one, one_mul, Nat.cast_ofNat] at hholds64 hholds32
  have hpower : (0 : ℚ) < 2 ^ (-20 : ℤ) := zpow_pos (by norm_num) _
  have hlow64 := binary64.round_mono hpower.le hstep
  rw [binary64.round_of_holds hholds64] at hlow64
  have hlow32 := binary32.round_mono hpower.le hlow64
  rw [binary32.round_of_holds hholds32] at hlow32
  exact ⟨hpower.trans_le hlow32,
    binary32.round_mono (binary64.round_nonneg hmono.1) hround⟩

theorem sentDecimals_zero (h : p = 0) : sentDecimals p = 0 := by
  rw [sentDecimals, h, NumberFormat.round_zero, roundTo_zero]

/-- A bound without a decimal switches the filter off. -/
theorem floatBound_off (hdecimals : sentDecimals p = 0) :
    ¬(0 < floatBound p ∧ floatBound p < 1) := by
  unfold floatBound readBound
  rw [hdecimals, NumberFormat.round_zero]
  cases stod p with
  | none => exact fun h => absurd h.2 (lt_irrefl 1)
  | some d =>
    intro h
    have hzero : 0 < binary32.round 0 := h.1
    rw [NumberFormat.round_zero] at hzero
    exact absurd hzero (lt_irrefl 0)

end Values

section Sampler

variable {logits : List ℝ} {sampling : LlamaSamplingParams ℝ}
  {sort : List (ℕ × ℝ) → List (ℕ × ℝ)} {mass : ℕ → ℝ} {top kept kept' : List ℕ} {a b : ℝ}

/-- A greater bound keeps at least the candidates of a smaller positive one. -/
theorem nucleus_nested (h : Nucleus a mass top kept) (h' : Nucleus b mass top kept')
    (hpos : 0 < a) (hab : a ≤ b) : kept ⊆ kept' := by
  by_cases hb : b < 1
  · have hreach := h'.reaches (hpos.trans_le hab) hb
    have htake : top.take kept'.length = kept' := List.prefix_iff_eq_take.mp h'.front |>.symm
    have hlength : kept.length ≤ kept'.length := by
      by_contra hlonger
      have hshort := h.shortest hpos (hab.trans_lt hb) kept'.length (not_le.mp hlonger)
      rw [htake] at hshort
      exact absurd (hab.trans hreach) (not_le.mpr hshort)
    have hprefix : kept <+: kept' :=
      List.prefix_of_prefix_length_le h.front h'.front hlength
    exact hprefix.subset
  · rw [h'.all fun hfilter => hb hfilter.2]
    exact h.front.subset

variable [Exponential]

/-- The tokens that the sampler returns for some draw. -/
def returnable (sort : List (ℕ × ℝ) → List (ℕ × ℝ)) (logits : List ℝ)
    (sampling : LlamaSamplingParams ℝ) : Set ℕ :=
  {token | ∃ draw, 0 ≤ draw ∧ draw < 1 ∧
    sampleToken (exactPlatform sort) logits sampling draw = token}

/-- With the sampler on, the token of a draw is the one that the loop selects. -/
theorem sampleToken_of_select (henabled : sampling.enabled = true)
    (htemp : 0 < sampling.temperature) {draw : ℝ} {token : ℕ}
    (h : selectToken (exactPlatform sort) logits sampling draw = some token) :
    sampleToken (exactPlatform sort) logits sampling draw = token := by
  have hon : ¬(!sampling.enabled || FloatArith.le sampling.temperature 0) = true := by
    rw [henabled, Bool.not_true, Bool.false_or]
    exact fun hle => absurd (of_decide_eq_true hle) (not_le.mpr htemp)
  rw [sampleToken, if_neg hon, h]
  rfl

/-- With the sampler off, the draw and the bound do not matter. -/
theorem sampleToken_off (hoff : ¬(sampling.enabled = true ∧ 0 < sampling.temperature)) (draw : ℝ) :
    sampleToken (exactPlatform sort) logits sampling draw = greedyToken logits := by
  have hoff' : (!sampling.enabled || FloatArith.le sampling.temperature 0) = true := by
    cases henabled : sampling.enabled with
    | false => rfl
    | true => exact decide_eq_true (not_lt.mp fun htemp => hoff ⟨henabled, htemp⟩)
  rw [sampleToken, if_pos hoff']

theorem returnable_off (hoff : ¬(sampling.enabled = true ∧ 0 < sampling.temperature)) :
    returnable sort logits sampling = {greedyToken logits} := by
  ext token
  rw [Set.mem_singleton_iff]
  constructor
  · intro hreturned
    obtain ⟨draw, -, -, hsample⟩ := hreturned
    rw [← hsample]
    exact sampleToken_off hoff draw
  · intro htoken
    exact ⟨0, le_rfl, zero_lt_one, (sampleToken_off hoff 0).trans htoken.symm⟩

/-- The seed does not decide which tokens are returned. -/
theorem returnable_congr {sampling' : LlamaSamplingParams ℝ}
    (henabled : sampling.enabled = sampling'.enabled)
    (htemperature : sampling.temperature = sampling'.temperature)
    (htopK : sampling.topK = sampling'.topK) (htopP : sampling.topP = sampling'.topP) :
    returnable sort logits sampling = returnable sort logits sampling' := by
  cases sampling with
  | mk enabled temperature topK topP hasSeed seed =>
    cases sampling' with
    | mk enabled' temperature' topK' topP' hasSeed' seed' =>
      cases henabled
      cases htemperature
      cases htopK
      cases htopP
      rfl

/-- The first candidates are distinct tokens. -/
theorem topCandidates_nodup (hsort : SortsDescending sort) :
    ((topCandidates sort logits sampling).map Prod.fst).Nodup := by
  rw [topCandidates_ids hsort]
  have hperm : (sortedOrder sort logits sampling.temperature).Perm (List.range logits.length) := by
    rw [← scaledCandidates_ids logits sampling.temperature]
    exact (hsort.perm _).map Prod.fst
  exact (List.take_sublist _ _).nodup (hperm.nodup_iff.mpr List.nodup_range)

/-- A sampler that is on returns exactly the candidates that it keeps. -/
theorem returnable_eq (hsort : SortsDescending sort) (hne : logits ≠ [])
    (henabled : sampling.enabled = true) (htemp : 0 < sampling.temperature) :
    let top := (topCandidates sort logits sampling).map Prod.fst
    ∃ kept, Nucleus sampling.topP (probability logits sampling.temperature top) top kept ∧
      ∀ token, token ∈ returnable sort logits sampling ↔ token ∈ kept := by
  intro top
  obtain ⟨kept, hnucleus, hkept, hdistribution⟩ :=
    @keptDistribution_eq _ logits sampling sort hsort hne
  refine ⟨kept, hnucleus, fun token => ?_⟩
  have hne' : top ≠ [] := fun h => hkept (List.prefix_nil.mp (h ▸ hnucleus.front))
  have hmass : ∀ i, 0 < probability logits sampling.temperature top i := probability_pos hne'
  have hnodup : kept.Nodup := hnucleus.front.sublist.nodup (topCandidates_nodup hsort)
  constructor
  · intro hreturned
    obtain ⟨draw, -, hhigh, hsample⟩ := hreturned
    obtain ⟨found, hfound, hpick⟩ := (select_kept hmass hkept).1 hhigh
    have hselect : selectToken (exactPlatform sort) logits sampling draw = some found := by
      rw [selectToken, hdistribution]
      exact hpick
    rw [← hsample, sampleToken_of_select henabled htemp hselect]
    exact hfound
  · intro htoken
    obtain ⟨n, hn, htoken'⟩ := List.mem_iff_getElem.mp htoken
    obtain ⟨hlength, hlow, hhigh⟩ := share_interval hmass hn
    have hpos : 0 < probability logits sampling.temperature top kept[n] /
        (kept.map (probability logits sampling.temperature top)).sum :=
      div_pos (hmass _) (sum_map_pos hmass hkept)
    -- a draw in the middle of the part of this token
    let first := share (probability logits sampling.temperature top) kept n
    let last := share (probability logits sampling.temperature top) kept (n + 1)
    have hless : first < last := sub_pos.mp (hlength ▸ hpos)
    have hpick := ((select_kept hmass hkept).2 hnodup n hn).mpr
      ⟨Or.inr (left_lt_add_div_two.mpr hless), (add_div_two_lt_right.mpr hless).le⟩
    have hselect : selectToken (exactPlatform sort) logits sampling ((first + last) / 2) =
        some kept[n] := by
      rw [selectToken, hdistribution]
      exact hpick
    refine ⟨(first + last) / 2, ?_, ?_, ?_⟩
    · exact hlow.trans (left_lt_add_div_two.mpr hless).le
    · exact (add_div_two_lt_right.mpr hless).trans_le hhigh
    · rw [sampleToken_of_select henabled htemp hselect]
      exact htoken'

/-- A greater bound lets the sampler return at least the same tokens. -/
theorem returnable_mono (hsort : SortsDescending sort) (hne : logits ≠ [])
    (hpos : 0 < sampling.topP) (hle : sampling.topP ≤ b) :
    returnable sort logits sampling ⊆ returnable sort logits { sampling with topP := b } := by
  by_cases hon : sampling.enabled = true ∧ 0 < sampling.temperature
  · obtain ⟨kept, hnucleus, hreturned⟩ := @returnable_eq logits sampling sort _ hsort hne hon.1 hon.2
    obtain ⟨kept', hnucleus', hreturned'⟩ :=
      @returnable_eq logits { sampling with topP := b } sort _ hsort hne hon.1 hon.2
    intro token htoken
    exact (hreturned' token).mpr
      (nucleus_nested hnucleus hnucleus' hpos hle ((hreturned token).mp htoken))
  · rw [returnable_off hon, @returnable_off logits { sampling with topP := b } sort _ hon]

/-- A bound outside of the unit interval is as good as none. -/
theorem returnable_unbounded (hsort : SortsDescending sort) (hne : logits ≠ [])
    (hoff : ¬(0 < sampling.topP ∧ sampling.topP < 1)) :
    returnable sort logits sampling = returnable sort logits { sampling with topP := 1 } := by
  have hone : ¬((0 : ℝ) < 1 ∧ (1 : ℝ) < 1) := fun h => absurd h.2 (lt_irrefl 1)
  by_cases hon : sampling.enabled = true ∧ 0 < sampling.temperature
  · obtain ⟨kept, hnucleus, hreturned⟩ := @returnable_eq logits sampling sort _ hsort hne hon.1 hon.2
    obtain ⟨kept', hnucleus', hreturned'⟩ :=
      @returnable_eq logits { sampling with topP := 1 } sort _ hsort hne hon.1 hon.2
    ext token
    rw [hreturned, hreturned', hnucleus.all hoff, hnucleus'.all hone]
    rfl
  · rw [returnable_off hon, @returnable_off logits { sampling with topP := 1 } sort _ hon]

end Sampler

section Requests

/-- The sampling parameters of a request, from two conversions of its doubles. -/
def requestParams {F : Type} [FloatArith F] (positive : ℚ → Bool) (toFloat : ℚ → F)
    (request : StageRequest) : LlamaSamplingParams F where
  enabled := request.temperature.elim false positive
  temperature := request.temperature.elim 1 toFloat
  topK := request.topK.getD 0
  topP := request.topP.elim 1 toFloat
  hasSeed := request.seed.isSome
  seed := request.seed.getD 0

/-- The parameters of the runtime are these at the conversions of its platform. -/
theorem samplingParams_eq {F D G : Type} [FloatArith F] [FloatArith D] [Numerics F D G]
    (toDouble : ℚ → D) (request : StageRequest) :
    samplingParams (runtimeRequest toDouble request) =
      requestParams (fun t => FloatArith.lt 0 (toDouble t))
        (fun x => (Numerics.toFloat (toDouble x) : F)) request := by
  unfold samplingParams runtimeRequest requestParams
  cases request.temperature <;> cases request.topP <;> rfl

/-- The request of a stage that a frame of some generation of this body reaches, over any
chain and after any number of hops. -/
def Reaches (overflow : ℚ → ℤ) (body : Body) (request : StageRequest) : Prop :=
  ∃ (requestId : Bytes) (tokenIndex : ℤ) (generationMode dtype : Bytes) (shape : List ℤ)
    (stages : ℕ → NativeStage) (tensorBytes : Bytes) (i : ℕ) (frame : DliFrame)
    (parsed : ParsedRequestMetadata),
    IsInt tokenIndex ∧ shape ≠ [] ∧ (∀ d ∈ shape, -2 ^ 63 ≤ d ∧ d < 2 ^ 63) ∧
      chainFrame overflow stages ⟨requestMetadataJson ((generateRequest overflow
        body.text).metadata requestId tokenIndex generationMode dtype shape), tensorBytes⟩ i =
          some frame ∧
      parseRequestMetadata overflow frame.metadataJson = .ok parsed ∧
      request = makeRuntimeRequest frame parsed

/-- The controls that reach a stage are those of the body. -/
theorem Reaches.controls {overflow : ℚ → ℤ} {body : Body} {request : StageRequest}
    (h : Reaches overflow body request) (hbody : body.WellFormed) {p : ℚ}
    (hp : numberOf "top_p" body = some p) (hlow : 0 ≤ p) (hhigh : p ≤ 1) :
    request.temperature = stod (sixDigits.round (temperatureOf body)) ∧
      request.topK = some (clampInt 0 0 kMaxNewTokensCeiling (integerOf "top_k" body)) ∧
      request.topP = readBound p := by
  obtain ⟨requestId, tokenIndex, generationMode, dtype, shape, stages, tensorBytes, i, frame,
    parsed, hindex, hne, hdims, hframe, hparsed, rfl⟩ := h
  have hcontrolled := chain_controlled (fun first hfirst => first_controlled hbody hp hlow hhigh
    hindex hne hdims hfirst) stages i hframe hparsed
  exact ⟨hcontrolled.temperature, hcontrolled.topK, hcontrolled.topP⟩

variable [Exponential]

/-- The parameters in exact arithmetic: floats are the nearest numbers of their format. -/
noncomputable def exactParams (request : StageRequest) : LlamaSamplingParams ℝ :=
  requestParams (fun t => decide (0 < t)) (fun x => (binary32.round x : ℝ)) request

/-- The bound that the sampler gets. -/
theorem exactParams_topP {request : StageRequest} {p : ℚ} (h : request.topP = readBound p) :
    (exactParams request).topP = (floatBound p : ℝ) := by
  unfold exactParams requestParams floatBound
  dsimp only
  rw [h]
  cases readBound p with
  | none => exact Rat.cast_one.symm
  | some v => rfl

/-- Two requests with the same temperature, the same `top_k` and bounds `p ≤ q` in the unit
interval: with a decimal in `p`, every token that the first may return the second may
return as well; a bound of zero is as good as none. -/
theorem nucleus_monotone {sort : List (ℕ × ℝ) → List (ℕ × ℝ)} (hsort : SortsDescending sort)
    {logits : List ℝ} (hne : logits ≠ []) {overflow : ℚ → ℤ} {body body' : Body}
    (hbody : body.WellFormed) (hbody' : body'.WellFormed)
    (htemperature : numberOf "temperature" body = numberOf "temperature" body')
    (htopK : integerOf "top_k" body = integerOf "top_k" body') {p q : ℚ}
    (hp : numberOf "top_p" body = some p) (hq : numberOf "top_p" body' = some q)
    (hlow : 0 ≤ p) (hle : p ≤ q) (hhigh : q ≤ 1) {request request' : StageRequest}
    (hreaches : Reaches overflow body request) (hreaches' : Reaches overflow body' request') :
    (sentDecimals p ≠ 0 → returnable sort logits (exactParams request) ⊆
        returnable sort logits (exactParams request')) ∧
      (p = 0 → returnable sort logits (exactParams request) =
        returnable sort logits { exactParams request with topP := 1 }) := by
  obtain ⟨ht, hk, hbound⟩ := hreaches.controls hbody hp hlow (hle.trans hhigh)
  obtain ⟨ht', hk', hbound'⟩ := hreaches'.controls hbody' hq (hlow.trans hle) hhigh
  have hvalue := exactParams_topP hbound
  have hvalue' := exactParams_topP hbound'
  constructor
  · intro hdecimals
    obtain ⟨hpos, hmono⟩ := floatBound_mono hlow hle hhigh hdecimals
    have hpos' : 0 < (exactParams request).topP := by
      rw [hvalue]
      exact_mod_cast hpos
    have hmono' : (exactParams request).topP ≤ (exactParams request').topP := by
      rw [hvalue, hvalue']
      exact_mod_cast hmono
    have hsame : request'.temperature = request.temperature ∧ request'.topK = request.topK := by
      rw [ht, ht', hk, hk', temperatureOf, temperatureOf, htemperature, htopK]
      exact ⟨rfl, rfl⟩
    have hparams : returnable sort logits (exactParams request') =
        returnable sort logits
          { exactParams request with topP := (exactParams request').topP } := by
      unfold exactParams requestParams
      rw [hsame.1, hsame.2]
      exact returnable_congr rfl rfl rfl rfl
    rw [hparams]
    exact returnable_mono hsort hne hpos' hmono'
  · intro hzero
    refine returnable_unbounded hsort hne ?_
    rw [hvalue]
    have hoff := floatBound_off (sentDecimals_zero hzero)
    exact_mod_cast hoff

end Requests

section Two

/-- A literal of one digit, and perhaps one decimal. -/
def shortLiteral (whole fraction : Bytes) : NumberLiteral := ⟨false, whole, fraction, none⟩

/-- A request at temperature one with a bound. -/
def boundBody (bound : NumberLiteral) : Body where
  members :=
    [{ name := ascii "temperature", value := .number (shortLiteral (ascii "1") []) },
      { name := ascii "top_p", value := .number bound }]

theorem boundBody_wellFormed {bound : NumberLiteral} (h : bound.WellFormed) :
    (boundBody bound).WellFormed where
  members := by
    intro m hm
    have hblank : Blank [] := fun _ hb => absurd hb List.not_mem_nil
    have hone : (shortLiteral (ascii "1") []).WellFormed :=
      ⟨List.all_eq_true.mp rfl, by decide, List.all_eq_true.mp rfl, fun p hp => by cases hp⟩
    rcases List.mem_pair.mp hm with rfl | rfl
    · exact ⟨(keyLiteral_wellFormed (by decide)).escaped, hone, hblank, hblank, hblank, hblank⟩
    · exact ⟨(keyLiteral_wellFormed (by decide)).escaped, h, hblank, hblank, hblank, hblank⟩
  blanks := ⟨fun _ hb => absurd hb List.not_mem_nil, fun _ hb => absurd hb List.not_mem_nil,
    fun _ hb => absurd hb List.not_mem_nil⟩

def zeroBound : NumberLiteral := shortLiteral (ascii "0") []

def halfBound : NumberLiteral := shortLiteral (ascii "0") (ascii "5")

theorem zeroBound_wellFormed : zeroBound.WellFormed :=
  ⟨List.all_eq_true.mp rfl, by decide, List.all_eq_true.mp rfl, fun p hp => by cases hp⟩

theorem halfBound_wellFormed : halfBound.WellFormed :=
  ⟨List.all_eq_true.mp rfl, by decide, List.all_eq_true.mp rfl, fun p hp => by cases hp⟩

/-- What the numbers of both bounds are read as. -/
theorem bounds_read : stod (sixDigits.round 1) = some 1 ∧ binary32.round 1 = 1 ∧
    (0 ≤ zeroBound.value ∧ zeroBound.value ≤ halfBound.value ∧ halfBound.value ≤ 1) ∧
    (zeroBound.value = 0 ∧ floatBound zeroBound.value = 0) ∧
    halfBound.value = 1 / 2 ∧ floatBound halfBound.value = 1 / 2 := by
  decide +kernel

theorem boundBody_topP (bound : NumberLiteral) :
    numberOf "top_p" (boundBody bound) = some bound.value := rfl

theorem temperatureOf_boundBody (bound : NumberLiteral) : temperatureOf (boundBody bound) = 1 := by
  have hfound : numberOf "temperature" (boundBody bound) =
    some (shortLiteral (ascii "1") []).value := rfl
  unfold temperatureOf
  rw [hfound]
  decide +kernel

/-- The frame of the gateway reaches a stage that is the only one. -/
theorem boundBody_reaches {bound : NumberLiteral} (h : bound.WellFormed) (hlow : 0 ≤ bound.value)
    (hhigh : bound.value ≤ 1) : ∃ request, Reaches (fun _ => 0) (boundBody bound) request := by
  have hbody := boundBody_wellFormed h
  have hindex : IsInt 0 := by
    unfold IsInt
    decide
  have hdims : ∀ d ∈ [(1 : ℤ)], -2 ^ 63 ≤ d ∧ d < 2 ^ 63 := by decide
  have hfits := metadata_fits (fun _ => 0) (boundBody bound).text [] [] [] hindex hdims
  have ht : readOptional (ascii "temperature") (some (sixDigits.round
      (generateRequest (fun _ => 0) (boundBody bound).text).temperature)) = .ok (some 1) := by
    have hread : stod (sixDigits.round 1) = some 1 := bounds_read.1
    rw [temperature_body _ hbody, temperatureOf_boundBody]
    show readDouble _ _ = _
    rw [readDouble, hread]
  have hp : readOptional (ascii "top_p")
      ((generateRequest (fun _ => 0) (boundBody bound).text).topP.map (roundTo (10 ^ (-6 : ℤ)))) =
        .ok (readBound bound.value) := by
    have htopP : (generateRequest (fun _ => 0) (boundBody bound).text).topP = stod bound.value :=
      parseDoubleField_body hbody (by decide)
    rw [htopP]
    exact (readBound_eq hlow hhigh).1
  have hs : readOptional (ascii "seed")
      ((generateRequest (fun _ => 0) (boundBody bound).text).seed.map Int.cast) = .ok none := by
    have hseed : (generateRequest (fun _ => 0) (boundBody bound).text).seed = none :=
      congrArg (Option.map (toLongLong fun _ => 0)) (parseDoubleField_body hbody (by decide))
    rw [hseed]
    rfl
  have hparsed := (parse_request (fun _ => 0) hfits).trans (readControls_ok (fun _ => 0) ht hp hs)
  exact ⟨_, [], 0, [], [], [1], fun _ => stubStage [] 0 0, [], 0, _, _, hindex,
    List.cons_ne_nil _ _, hdims, rfl, hparsed, rfl⟩

/-- Bounds of zero and one half, for two logits. -/
theorem nucleus_monotone_zero_half : ∃ request request',
    Reaches (fun _ => 0) (boundBody zeroBound) request ∧
      Reaches (fun _ => 0) (boundBody halfBound) request' ∧
      (sentDecimals zeroBound.value ≠ 0 → returnable mergeByLogit [1, 0] (exactParams request) ⊆
        returnable mergeByLogit [1, 0] (exactParams request')) ∧
      (zeroBound.value = 0 →
        returnable mergeByLogit [1, 0] (exactParams request) =
          returnable mergeByLogit [1, 0] { exactParams request with topP := 1 }) := by
  obtain ⟨-, -, hzero, -⟩ := bounds_read
  obtain ⟨request, hreaches⟩ :=
    boundBody_reaches zeroBound_wellFormed hzero.1 (hzero.2.1.trans hzero.2.2)
  obtain ⟨request', hreaches'⟩ :=
    boundBody_reaches halfBound_wellFormed (hzero.1.trans hzero.2.1) hzero.2.2
  exact ⟨request, request', hreaches, hreaches',
    nucleus_monotone (sortsDescending_mergeSort weakOrder_real) (List.cons_ne_nil _ _)
      (boundBody_wellFormed zeroBound_wellFormed) (boundBody_wellFormed halfBound_wellFormed)
      rfl rfl rfl rfl hzero.1 hzero.2.1 hzero.2.2 hreaches hreaches'⟩

/-- Two candidates in descending order. -/
theorem order_two {order : List ℕ} (h : ByLogit [1, 0] order) : order = [0, 1] := by
  have hperm : order.Perm [0, 1] := h.perm
  rcases List.perm_pair.mp hperm with rfl | rfl
  · rfl
  · have hordered := List.pairwise_pair.mp h.ordered
    have hle : (1 : ℝ) ≤ 0 := hordered
    exact absurd hle (by norm_num)

/-- What the sampler gets of a body. -/
theorem exactParams_boundBody {bound : NumberLiteral} (h : bound.WellFormed)
    (hlow : 0 ≤ bound.value) (hhigh : bound.value ≤ 1) {request : StageRequest}
    (hreaches : Reaches (fun _ => 0) (boundBody bound) request) :
    (exactParams request).enabled = true ∧ (exactParams request).temperature = 1 ∧
      (exactParams request).topK = 0 ∧ (exactParams request).topP = (floatBound bound.value : ℝ) := by
  obtain ⟨ht, hk, hp⟩ := hreaches.controls (boundBody_wellFormed h) (boundBody_topP bound) hlow hhigh
  obtain ⟨hread, hone, -⟩ := bounds_read
  rw [temperatureOf_boundBody, hread] at ht
  refine ⟨?_, ?_, ?_, exactParams_topP hp⟩
  · unfold exactParams requestParams
    rw [ht]
    rfl
  · unfold exactParams requestParams
    rw [ht]
    show ((binary32.round 1 : ℚ) : ℝ) = 1
    rw [hone, Rat.cast_one]
  · unfold exactParams requestParams
    rw [hk]
    rfl

/-- The candidates of such a body: both tokens, the first one in front. -/
theorem candidates_boundBody {sampling : LlamaSamplingParams ℝ}
    (htemperature : sampling.temperature = 1) (htopK : sampling.topK = 0) :
    (topCandidates mergeByLogit [1, 0] sampling).map Prod.fst = [0, 1] := by
  have hsort : SortsDescending mergeByLogit := sortsDescending_mergeSort weakOrder_real
  have horder := order_two (@sortedOrder_byLogit _ [1, 0] _ hsort 1 zero_lt_one)
  rw [topCandidates_ids hsort, htopK, htemperature, horder]
  rfl

/-- The first of the two tokens has more than half of the mass. -/
theorem half_le_first : (1 / 2 : ℝ) ≤ (([0, 1].take 1).map (probability [1, 0] 1 [0, 1])).sum := by
  have hless : Real.exp (-1) < Real.exp 0 := Real.exp_strictMono (by norm_num)
  have hpos := Real.exp_pos (-1)
  have hfirst : weight [1, 0] 1 [0, 1] 0 = Real.exp 0 := by
    show Real.exp _ = _
    norm_num
  have hsecond : weight [1, 0] 1 [0, 1] 1 = Real.exp (-1) := by
    show Real.exp _ = _
    norm_num
  show (1 / 2 : ℝ) ≤ probability [1, 0] 1 [0, 1] 0 + 0
  unfold probability
  rw [List.map_cons, List.map_cons, List.map_nil, List.sum_cons, List.sum_cons, List.sum_nil,
    hfirst, hsecond, add_zero, add_zero, le_div_iff₀ (by positivity)]
  linarith

/-- At a bound of zero the second token may be returned, at one half it may not. -/
theorem not_nucleus_monotone_zero :
    zeroBound.value = 0 ∧ halfBound.value = 1 / 2 ∧ ∃ request request',
      Reaches (fun _ => 0) (boundBody zeroBound) request ∧
        Reaches (fun _ => 0) (boundBody halfBound) request' ∧
        1 ∈ returnable mergeByLogit [1, 0] (exactParams request) ∧
        1 ∉ returnable mergeByLogit [1, 0] (exactParams request') := by
  have hsort : SortsDescending mergeByLogit := sortsDescending_mergeSort weakOrder_real
  obtain ⟨-, -, ⟨hlow, hle, hhigh⟩, ⟨hnone, hzeroFloat⟩, hequal, hhalfFloat⟩ := bounds_read
  have hzero : 0 ≤ zeroBound.value ∧ zeroBound.value ≤ 1 ∧ floatBound zeroBound.value = 0 :=
    ⟨hlow, hle.trans hhigh, hzeroFloat⟩
  have hhalf : 0 ≤ halfBound.value ∧ halfBound.value ≤ 1 ∧ floatBound halfBound.value = 1 / 2 :=
    ⟨hlow.trans hle, hhigh, hhalfFloat⟩
  obtain ⟨request, hreaches⟩ := boundBody_reaches zeroBound_wellFormed hzero.1 hzero.2.1
  obtain ⟨request', hreaches'⟩ := boundBody_reaches halfBound_wellFormed hhalf.1 hhalf.2.1
  obtain ⟨hon, htemp, htopK, htopP⟩ :=
    exactParams_boundBody zeroBound_wellFormed hzero.1 hzero.2.1 hreaches
  obtain ⟨hon', htemp', htopK', htopP'⟩ :=
    exactParams_boundBody halfBound_wellFormed hhalf.1 hhalf.2.1 hreaches'
  refine ⟨hnone, hequal, request, request', hreaches, hreaches', ?_, ?_⟩
  · obtain ⟨kept, hnucleus, hreturned⟩ := @returnable_eq [1, 0] (exactParams request) _ _ hsort
      (List.cons_ne_nil _ _) hon (htemp ▸ zero_lt_one)
    rw [candidates_boundBody htemp htopK, htopP, hzero.2.2, Rat.cast_zero] at hnucleus
    rw [hreturned, hnucleus.all fun h => absurd h.1 (lt_irrefl 0)]
    decide
  · obtain ⟨kept, hnucleus, hreturned⟩ := @returnable_eq [1, 0] (exactParams request') _ _ hsort
      (List.cons_ne_nil _ _) hon' (htemp' ▸ zero_lt_one)
    have hcast : ((1 / 2 : ℚ) : ℝ) = 1 / 2 := by norm_num
    rw [candidates_boundBody htemp' htopK', htopP', hhalf.2.2, hcast, htemp'] at hnucleus
    rw [hreturned]
    intro hsecond
    have hlength : kept.length ≤ 1 := by
      by_contra hlonger
      have hshort := hnucleus.shortest (by norm_num) (by norm_num) 1 (not_le.mp hlonger)
      exact absurd half_le_first (not_le.mpr hshort)
    have hstart := hnucleus.front
    rw [List.prefix_iff_eq_take] at hstart
    have hfirst : kept ⊆ [0] := by
      rw [hstart]
      exact ((List.take_prefix_take_left hlength)).subset
    exact absurd (hfirst hsecond) (by decide)

end Two

end LayerInference.NucleusBounds
