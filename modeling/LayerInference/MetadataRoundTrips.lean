import LayerInference.MetadataReader

/-!
# What a stage reads of a written text

The two request forms and the answers of a stage are read back field by field.
Strings come back as their escapes denote them, integers as they are, and a
number as the nearest double of its decimals. No other field decides what is
read, whatever the strings contain, since a string is never taken for a key.
-/

namespace LayerInference.MetadataRoundTrips

open ByteStrings TextStreams JsonText QuotedTexts JsonFields ManifestTexts Rounding NumberTexts
  JsonPieces TensorAbi MetadataTexts MetadataReader

variable (overflow : ℚ → ℤ)

/-- The fields read without the sampling controls that are numbers, and then
these. -/
def readControls (fields : ParsedRequestMetadata) (temperature topP seed : Option ℚ) :
    Except Bytes ParsedRequestMetadata := do
  let temperature ← readOptional (ascii "temperature") temperature
  let topP ← readOptional (ascii "top_p") topP
  let seed ← readOptional (ascii "seed") seed
  return { fields with
    temperature := temperature
    topP := topP
    seed := seed.map (toLongLong overflow) }

theorem readControls_ok {fields : ParsedRequestMetadata} {temperature topP seed : Option ℚ}
    {t p s : Option ℚ} (ht : readOptional (ascii "temperature") temperature = .ok t)
    (hp : readOptional (ascii "top_p") topP = .ok p)
    (hs : readOptional (ascii "seed") seed = .ok s) :
    readControls overflow fields temperature topP seed =
      .ok { fields with
        temperature := t
        topP := p
        seed := s.map (toLongLong overflow) } := by
  unfold readControls
  rw [ht, hp, hs]
  rfl

/-- The value of an integer of 32 bits. -/
def IsInt (n : ℤ) : Prop := -2 ^ 31 ≤ n ∧ n < 2 ^ 31

/-- Integers that fit the types of the request. -/
structure RequestMetadata.Fits (m : RequestMetadata) : Prop where
  tokenIndex : IsInt m.tokenIndex
  topK : IsInt m.topK
  shape : ∀ d ∈ m.shape, -2 ^ 63 ≤ d ∧ d < 2 ^ 63

/-- The fields of a request as the first stage reads them. -/
def requestFields (m : RequestMetadata) : ParsedRequestMetadata where
  requestId := settled m.requestId
  tokenIndex := m.tokenIndex
  generationMode := settled m.generationMode
  tensor := ⟨settled m.dtype, m.shape, ascii "little"⟩
  kvCacheEnabled := true
  activationPrecision := settled m.activationPrecision
  persistentSessionsEnabled := m.persistentSessionsEnabled
  metadataLevel :=
    if metadataLevelIsCompact m.metadataLevel then ascii "debug" else settled m.metadataLevel
  nativeStageChainingEnabled := m.nativeStageChainingEnabled
  topK := some m.topK
  stageInputTokenCount := inferSequenceLengthFromShape m.shape

/-- A key in front of the optional fields is found there, or else behind them. -/
theorem behind_parts {key : Bytes} {head middle : List Piece} (hhead : behind key head = none)
    (hmiddle : behind key middle = none) (tail : List Piece) :
    behind key (head ++ (middle ++ tail)) = behind key tail := by
  rw [behind_append hhead, behind_append hmiddle]

theorem behind_seedPieces {key : Bytes} (h : ascii "seed" ≠ key) (seed : Option ℤ) :
    behind key (seedPieces seed) = none := by
  cases seed with
  | none => rfl
  | some s => exact if_neg h

theorem settled_little : settled (ascii "little") = ascii "little" :=
  settled_of_plain (List.all_eq_true.mp rfl)

theorem settled_binary : settled (ascii "binary_octet_stream") = ascii "binary_octet_stream" :=
  settled_of_plain (List.all_eq_true.mp rfl)

section Texts

variable {head tail : List Piece} {seed : Option ℤ} {key : Bytes}

/-- A key that is only in front is found there. -/
theorem found_head {piece : Piece} (h : ∃ rest, behind key head = some (piece :: rest)) :
    ∃ rest, behind key (head ++ (seedPieces seed ++ tail)) = some (piece :: rest) := by
  obtain ⟨rest, hrest⟩ := h
  exact ⟨_, behind_append_some hrest _⟩

theorem absent_all (hhead : behind key head = none) (hseed : ascii "seed" ≠ key)
    (htail : behind key tail = none) : behind key (head ++ (seedPieces seed ++ tail)) = none :=
  (behind_parts hhead (behind_seedPieces hseed seed) tail).trans htail

/-- The value of `top_p` is the last one before the seed. -/
theorem read_topP {topP : Option ℚ}
    (hhead : behind (ascii "top_p") head = some [topPPiece topP])
    (htail : behind (ascii "top_p") tail = none) :
    extractDoubleField (piecesText (head ++ (seedPieces seed ++ tail))) (ascii "top_p") =
      readOptional (ascii "top_p") (topP.map (roundTo (10 ^ (-6 : ℤ)))) := by
  have hfound := behind_append_some hhead (seedPieces seed ++ tail)
  cases topP with
  | none =>
    exact extractDoubleField_null (by decide) hfound
      ((behind_append (behind_seedPieces (by decide) seed) tail).trans htail)
  | some p =>
    have hspec := toStringLiteral_spec p
    rw [Option.map_some, ← hspec.2]
    exact @extractDoubleField_some _ _ (by decide) (toStringLiteral p) hspec.1 .comma ⟨_, hfound⟩

/-- The seed is read as the integer that it is. -/
theorem read_seed (hhead : behind (ascii "seed") head = none)
    (htail : behind (ascii "seed") tail = none) :
    extractDoubleField (piecesText (head ++ (seedPieces seed ++ tail))) (ascii "seed") =
      readOptional (ascii "seed") (seed.map Int.cast) := by
  have hbehind := behind_append hhead (seedPieces seed ++ tail)
  cases seed with
  | none => exact extractDoubleField_none (by decide) (hbehind.trans htail)
  | some s =>
    have hvalue : (decimalLiteral s).value = s := by
      rw [NumberLiteral.value_of_integer rfl rfl, decimalLiteral_integer]
    rw [Option.map_some, ← hvalue]
    exact @extractDoubleField_some _ _ (by decide) (decimalLiteral s) (decimalLiteral_wellFormed s)
      .comma ⟨tail, hbehind⟩

end Texts

section Compact

variable {m : RequestMetadata} {long short : Bytes}

/-- A long name is nowhere in the short form. -/
theorem compact_absent (hhead : behind long (compactHeadPieces m) = none)
    (hseed : ascii "seed" ≠ long := by decide) (hlast : ascii "m" ≠ long := by decide) :
    behind long (compactPieces m) = none := absent_all hhead hseed (if_neg hlast)

theorem compact_string {value : Bytes} (hhead : behind long (compactHeadPieces m) = none)
    (h : ∃ rest, behind short (compactHeadPieces m) = some (.string value .comma :: rest))
    (hlong : IsName long := by decide) (hshort : IsName short := by decide)
    (hseed : ascii "seed" ≠ long := by decide) (hlast : ascii "m" ≠ long := by decide) :
    extractStringAlias (piecesText (compactPieces m)) long short = some (settled value) :=
  extractStringAlias_short hlong hshort (compact_absent hhead hseed hlast) (found_head h)

theorem compact_flag {value : Bool} (hhead : behind long (compactHeadPieces m) = none)
    (h : ∃ rest, behind short (compactHeadPieces m) = some (flagPiece value .comma :: rest))
    (hlong : IsName long := by decide) (hshort : IsName short := by decide)
    (hseed : ascii "seed" ≠ long := by decide) (hlast : ascii "m" ≠ long := by decide) :
    extractBoolAlias (piecesText (compactPieces m)) long short = some value :=
  extractBoolAlias_short hlong hshort (compact_absent hhead hseed hlast) (found_head h)

/-- The short form is read under the short names. -/
theorem parse_compact (hfits : RequestMetadata.Fits m)
    (hlevel : metadataLevelIsCompact m.metadataLevel = true) :
    parseRequestMetadata overflow (piecesText (compactPieces m)) =
      readControls overflow (requestFields m) (some (sixDigits.round m.temperature))
        (m.topP.map (roundTo (10 ^ (-6 : ℤ)))) (m.seed.map Int.cast) := by
  have hrequestId : extractStringAlias (piecesText (compactPieces m)) (ascii "request_id")
      (ascii "rid") = _ := compact_string rfl ⟨_, rfl⟩
  have htokenIndex : extractIntAlias (piecesText (compactPieces m)) (ascii "token_index")
      (ascii "ti") = _ := extractIntAlias_short (by decide) (by decide) (compact_absent rfl)
    (found_head ⟨_, rfl⟩) hfits.tokenIndex
  have hnextTokenId : extractIntAlias (piecesText (compactPieces m)) (ascii "next_token_id")
      (ascii "nt") = _ := extractIntAlias_none (by decide) (by decide) (compact_absent rfl)
    (compact_absent rfl)
  have hmode : extractStringAlias (piecesText (compactPieces m)) (ascii "generation_mode")
      (ascii "gm") = _ := compact_string rfl ⟨_, rfl⟩
  have hprecision : extractStringAlias (piecesText (compactPieces m))
      (ascii "activation_precision") (ascii "ap") = _ := compact_string rfl ⟨_, rfl⟩
  have htransport : extractStringAlias (piecesText (compactPieces m)) (ascii "transport_mode")
      (ascii "tm") = _ := extractStringAlias_none (by decide) (by decide) (compact_absent rfl)
    (compact_absent rfl)
  have hprofile : extractStringField (piecesText (compactPieces m))
      (ascii "rebalance_profile") = _ := extractStringField_none (by decide) (compact_absent rfl)
  have hsessions : extractBoolAlias (piecesText (compactPieces m))
      (ascii "persistent_sessions_enabled") (ascii "ps") = _ := compact_flag rfl ⟨_, rfl⟩
  have htopology : extractBoolField (piecesText (compactPieces m))
      (ascii "topology_aware_routing") = _ :=
    extractBoolField_none (by decide) (compact_absent rfl)
  have hmetadataLevel : extractStringAlias (piecesText (compactPieces m)) (ascii "metadata_level")
      (ascii "ml") = _ := extractStringAlias_none (by decide) (by decide) (compact_absent rfl)
    (compact_absent rfl)
  have hchaining : extractBoolAlias (piecesText (compactPieces m))
      (ascii "native_stage_chaining_enabled") (ascii "nsc") = _ := compact_flag rfl ⟨_, rfl⟩
  have hdtype : extractStringAlias (piecesText (compactPieces m)) (ascii "dtype")
      (ascii "dt") = _ := compact_string rfl ⟨_, rfl⟩
  have hbyteOrder : extractStringAlias (piecesText (compactPieces m)) (ascii "byte_order")
      (ascii "bo") = _ := compact_string rfl ⟨_, rfl⟩
  have hshape : extractShape (piecesText (compactPieces m)) = _ :=
    extractShape_short (found_head ⟨_, rfl⟩) (compact_absent rfl) hfits.shape
  have hcache : extractBoolAlias (piecesText (compactPieces m)) (ascii "kv_cache_enabled")
      (ascii "kv") = _ := compact_flag rfl ⟨_, rfl⟩
  have htemperature : extractDoubleField (piecesText (compactPieces m)) (ascii "temperature") = _ :=
    extractDoubleField_some (l := streamLiteral m.temperature) (by decide) (found_head ⟨_, rfl⟩)
  have htopK : extractIntField (piecesText (compactPieces m)) (ascii "top_k") = _ :=
    extractIntField_some (by decide) (found_head ⟨_, rfl⟩) hfits.topK
  have htopP : extractDoubleField (piecesText (compactPieces m)) (ascii "top_p") = _ :=
    read_topP rfl rfl
  have hseed : extractDoubleField (piecesText (compactPieces m)) (ascii "seed") = _ :=
    read_seed rfl rfl
  rw [(streamLiteral_spec m.temperature).2] at htemperature
  unfold parseRequestMetadata
  simp only [hrequestId, htokenIndex, hnextTokenId, hmode, hprecision, htransport, hprofile,
    hsessions, htopology, hmetadataLevel, hchaining, hdtype, hbyteOrder, hshape, hcache,
    htemperature, htopK, htopP, hseed]
  unfold readControls requestFields
  rw [settled_little, if_pos hlevel]
  rfl

end Compact

section Debug

variable {m : RequestMetadata} {key : Bytes}

/-- A name that the long form does not have. -/
theorem debug_absent (hhead : behind key (debugHeadPieces m) = none)
    (hseed : ascii "seed" ≠ key := by decide) (hlast : ascii "min_new_tokens" ≠ key := by decide) :
    behind key (debugPieces m) = none := absent_all hhead hseed (if_neg hlast)

/-- The long form is read under the long names. -/
theorem parse_debug (hfits : RequestMetadata.Fits m)
    (hlevel : metadataLevelIsCompact m.metadataLevel = false) :
    parseRequestMetadata overflow (piecesText (debugPieces m)) =
      readControls overflow (requestFields m) (some (sixDigits.round m.temperature))
        (m.topP.map (roundTo (10 ^ (-6 : ℤ)))) (m.seed.map Int.cast) := by
  have hrequestId : extractStringAlias (piecesText (debugPieces m)) (ascii "request_id")
      (ascii "rid") = _ := extractStringAlias_long (by decide) (found_head ⟨_, rfl⟩)
  have htokenIndex : extractIntAlias (piecesText (debugPieces m)) (ascii "token_index")
      (ascii "ti") = _ := extractIntAlias_long (by decide) (found_head ⟨_, rfl⟩) hfits.tokenIndex
  have hnextTokenId : extractIntAlias (piecesText (debugPieces m)) (ascii "next_token_id")
      (ascii "nt") = _ :=
    extractIntAlias_none (by decide) (by decide) (debug_absent rfl) (debug_absent rfl)
  have hmode : extractStringAlias (piecesText (debugPieces m)) (ascii "generation_mode")
      (ascii "gm") = _ := extractStringAlias_long (by decide) (found_head ⟨_, rfl⟩)
  have hprecision : extractStringAlias (piecesText (debugPieces m))
      (ascii "activation_precision") (ascii "ap") = _ :=
    extractStringAlias_long (by decide) (found_head ⟨_, rfl⟩)
  have htransport : extractStringAlias (piecesText (debugPieces m)) (ascii "transport_mode")
      (ascii "tm") = _ := extractStringAlias_long (by decide) (found_head ⟨_, rfl⟩)
  have hprofile : extractStringField (piecesText (debugPieces m))
      (ascii "rebalance_profile") = _ := extractStringField_none (by decide) (debug_absent rfl)
  have hsessions : extractBoolAlias (piecesText (debugPieces m))
      (ascii "persistent_sessions_enabled") (ascii "ps") = _ :=
    extractBoolAlias_long (by decide) (found_head ⟨_, rfl⟩)
  have htopology : extractBoolField (piecesText (debugPieces m))
      (ascii "topology_aware_routing") = _ := extractBoolField_none (by decide) (debug_absent rfl)
  have hmetadataLevel : extractStringAlias (piecesText (debugPieces m)) (ascii "metadata_level")
      (ascii "ml") = _ := extractStringAlias_long (by decide) (found_head ⟨_, rfl⟩)
  have hchaining : extractBoolAlias (piecesText (debugPieces m))
      (ascii "native_stage_chaining_enabled") (ascii "nsc") = _ :=
    extractBoolAlias_long (by decide) (found_head ⟨_, rfl⟩)
  have hdtype : extractStringAlias (piecesText (debugPieces m)) (ascii "dtype")
      (ascii "dt") = _ := extractStringAlias_long (by decide) (found_head ⟨_, rfl⟩)
  have hbyteOrder : extractStringAlias (piecesText (debugPieces m)) (ascii "byte_order")
      (ascii "bo") = _ := extractStringAlias_long (by decide) (found_head ⟨_, rfl⟩)
  have hshape : extractShape (piecesText (debugPieces m)) = _ :=
    extractShape_long (found_head ⟨_, rfl⟩) (debug_absent rfl) hfits.shape
  have hcache : extractBoolAlias (piecesText (debugPieces m)) (ascii "kv_cache_enabled")
      (ascii "kv") = _ := extractBoolAlias_long (by decide) (found_head ⟨_, rfl⟩)
  have htemperature : extractDoubleField (piecesText (debugPieces m)) (ascii "temperature") = _ :=
    extractDoubleField_some (l := streamLiteral m.temperature) (by decide) (found_head ⟨_, rfl⟩)
  have htopK : extractIntField (piecesText (debugPieces m)) (ascii "top_k") = _ :=
    extractIntField_some (by decide) (found_head ⟨_, rfl⟩) hfits.topK
  have htopP : extractDoubleField (piecesText (debugPieces m)) (ascii "top_p") = _ :=
    read_topP rfl rfl
  have hseed : extractDoubleField (piecesText (debugPieces m)) (ascii "seed") = _ :=
    read_seed rfl rfl
  rw [(streamLiteral_spec m.temperature).2] at htemperature
  unfold parseRequestMetadata
  simp only [hrequestId, htokenIndex, hnextTokenId, hmode, hprecision, htransport, hprofile,
    hsessions, htopology, hmetadataLevel, hchaining, hdtype, hbyteOrder, hshape, hcache,
    htemperature, htopK, htopP, hseed]
  unfold readControls requestFields
  rw [settled_little, settled_binary, if_neg (by rw [hlevel]; exact Bool.false_ne_true)]
  rfl

end Debug

/-- What the first stage reads of a request. -/
theorem parse_request {m : RequestMetadata} (hfits : RequestMetadata.Fits m) :
    parseRequestMetadata overflow (requestMetadataJson m) =
      readControls overflow (requestFields m) (some (sixDigits.round m.temperature))
        (m.topP.map (roundTo (10 ^ (-6 : ℤ)))) (m.seed.map Int.cast) := by
  unfold requestMetadataJson requestMetadataPieces
  cases hlevel : metadataLevelIsCompact m.metadataLevel with
  | true => exact parse_compact overflow hfits hlevel
  | false => exact parse_debug overflow hfits hlevel

section Answers

variable {answer : StageAnswer} {serviceName : Bytes} {stageId : ℤ} {request : StageRequest}
  {key : Bytes} {back : List Piece}

theorem isName_metrics : IsName (ascii "metrics") := by decide

theorem isName_backend : IsName (ascii "backend_metadata") := by decide

/-- The metrics and the description of the backend, without the end. -/
def openTailPieces (answer : StageAnswer) : List Piece :=
  keyPiece "metrics" isName_metrics :: (metricsPieces answer.metrics ++
    (comma :: keyPiece "backend_metadata" isName_backend :: backendPieces answer.backend))

/-- An answer without its last brace. -/
def openAnswerPieces (answer : StageAnswer) (serviceName : Bytes) (stageId : ℤ)
    (request : StageRequest) : List Piece :=
  answerHeadPieces answer serviceName stageId request ++
    (controlPieces request ++ openTailPieces answer)

theorem runtimeResponseMetadataPieces_eq :
    runtimeResponseMetadataPieces answer serviceName stageId request =
      openAnswerPieces answer serviceName stageId request ++ [lastBrace] := by
  unfold runtimeResponseMetadataPieces answerTailPieces openAnswerPieces openTailPieces
  simp only [List.append_assoc, List.cons_append]

/-- The names of the sampling controls, and names that an answer does not have. -/
def controlKeys : List Bytes :=
  [ascii "temperature", ascii "top_k", ascii "top_p", ascii "seed"]

def missingKeys : List Bytes :=
  [ascii "rebalance_profile", ascii "topology_aware_routing", ascii "sh"]

/-- Pieces behind an answer without the names that the reader still looks for. -/
structure Silent (back : List Piece) : Prop where
  controls : ∀ name ∈ controlKeys, behind name back = none
  missing : ∀ name ∈ missingKeys, behind name back = none

theorem silent_lastBrace : Silent [lastBrace] := ⟨fun _ _ => rfl, fun _ _ => rfl⟩

/-- Integers that fit the types of an answer. -/
structure AnswerFits (answer : StageAnswer) (request : StageRequest) : Prop where
  tokenIndex : IsInt request.tokenIndex
  nextTokenId : IsInt answer.nextTokenId
  topK : ∀ k ∈ request.topK, IsInt k
  shape : ∀ d ∈ (answerTensor answer request).shape, -2 ^ 63 ≤ d ∧ d < 2 ^ 63

/-- The fields of an answer as the next stage reads them. -/
def answerFields (answer : StageAnswer) (request : StageRequest) : ParsedRequestMetadata where
  requestId := settled request.requestId
  tokenIndex := request.tokenIndex
  generationMode := settled request.generationMode
  tensor := ⟨settled (answerTensor answer request).dtype, (answerTensor answer request).shape,
    settled (answerTensor answer request).byteOrder⟩
  kvCacheEnabled := request.kvCacheEnabled
  activationPrecision := settled request.activationPrecision
  transportMode := settled request.transportMode
  persistentSessionsEnabled := request.persistentSessionsEnabled
  metadataLevel := settled request.metadataLevel
  nativeStageChainingEnabled := request.nativeStageChainingEnabled
  topK := request.topK
  nextTokenId := some answer.nextTokenId
  stageInputTokenCount := inferSequenceLengthFromShape (answerTensor answer request).shape

/-- A name that the fields in front have. -/
theorem answer_found {piece : Piece} (h : ∃ rest,
    behind key (answerHeadPieces answer serviceName stageId request) = some (piece :: rest)) :
    ∃ rest, behind key (openAnswerPieces answer serviceName stageId request ++ back) =
      some (piece :: rest) := by
  obtain ⟨rest, hrest⟩ := h
  exact ⟨_, behind_append_some (behind_append_some hrest _) back⟩

theorem behind_presentPieces {α : Type} {name : Bytes} (isName : IsName name) (h : name ≠ key)
    {value : α → Piece} (hvalue : ∀ x, behind key [value x] = none) (x : Option α) :
    behind key (presentPieces (.key name isName) value x) = none := by
  cases x with
  | none => rfl
  | some x =>
    show (if name = key then _ else behind key [value x]) = none
    rw [if_neg h, hvalue]

/-- A control of another name is passed over. -/
theorem behind_skip {α : Type} {name : Bytes} {isName : IsName name} (h : name ≠ key)
    {value : α → Piece} (hvalue : ∀ x, behind key [value x] = none) {x : Option α}
    {back : List Piece} (hback : behind key back = none) :
    behind key (presentPieces (.key name isName) value x ++ back) = none :=
  (behind_append (behind_presentPieces isName h hvalue x) back).trans hback

/-- The names in front of an answer, and those of its metrics and its backend. -/
def headKeys : List Bytes := keysOf (answerHeadPieces {} [] 0 {})

def metricsKeys : List Bytes := keysOf (metricsPieces {})

def backendKeys : List Bytes := keysOf (backendMetadataPieces {})

def tailKeys : List Bytes :=
  ascii "metrics" :: (metricsKeys ++ ascii "backend_metadata" :: backendKeys)

def answerKeys : List Bytes := headKeys ++ (controlKeys ++ tailKeys)

theorem keysOf_head : keysOf (answerHeadPieces answer serviceName stageId request) = headKeys := rfl

theorem keysOf_present {α : Type} {name : Bytes} {isName : IsName name} {value : α → Piece}
    (hvalue : ∀ x, keysOf [value x] = []) {x : Option α} :
    ∀ other ∈ keysOf (presentPieces (.key name isName) value x), other = name := by
  intro other hother
  cases x with
  | none => exact absurd hother List.not_mem_nil
  | some x =>
    change other ∈ name :: keysOf [value x] at hother
    rw [hvalue] at hother
    exact List.mem_singleton.mp hother

/-- The controls have at most their four names. -/
theorem keysOf_controls : ∀ name ∈ keysOf (controlPieces request), name ∈ controlKeys := by
  intro name hname
  unfold controlPieces at hname
  simp only [keysOf_append, List.mem_append] at hname
  unfold controlKeys
  simp only [List.mem_cons, List.not_mem_nil, or_false]
  rcases hname with h | h | h | h
  · exact .inl (keysOf_present (fun _ => rfl) name h)
  · exact .inr (.inl (keysOf_present (fun _ => rfl) name h))
  · exact .inr (.inr (.inl (keysOf_present (fun _ => rfl) name h)))
  · exact .inr (.inr (.inr (keysOf_present (fun _ => rfl) name h)))

theorem keysOf_tail : ∀ name ∈ keysOf (openTailPieces answer), name ∈ tailKeys := by
  have hsplit : keysOf (openTailPieces answer) = ascii "metrics" :: (metricsKeys ++
      ascii "backend_metadata" :: keysOf (backendPieces answer.backend)) := by
    have hmetrics : keysOf (metricsPieces answer.metrics) = metricsKeys := rfl
    unfold openTailPieces
    show ascii "metrics" :: keysOf (metricsPieces answer.metrics ++ _) = _
    rw [keysOf_append, hmetrics]
    rfl
  rw [hsplit]
  unfold tailKeys backendPieces
  cases answer.backend with
  | none =>
    intro name hname
    simp only [List.mem_cons, List.mem_append] at hname ⊢
    rcases hname with h | h | h | h
    · exact .inl h
    · exact .inr (.inl h)
    · exact .inr (.inr (.inl h))
    · exact absurd h List.not_mem_nil
  | some b => exact fun name hname => hname

theorem controlKeys_absent : ∀ name ∈ controlKeys, name ∉ tailKeys := by decide

theorem missingKeys_absent : ∀ name ∈ missingKeys, name ∉ answerKeys := by decide

/-- The end of an answer and what stands behind it. -/
theorem end_absent (hback : behind key back = none) (hkey : key ∉ tailKeys) :
    behind key (openTailPieces answer ++ back) = none :=
  (behind_append (behind_of_not_mem fun h => hkey (keysOf_tail key h)) back).trans hback

/-- A control is found where it stands, if it is present. -/
theorem behind_present {α : Type} {isName : IsName key} {value : α → Piece} {x : Option α}
    {front back : List Piece} (hfront : behind key front = none) (hback : behind key back = none) :
    behind key (front ++ (presentPieces (.key key isName) value x ++ back)) =
      x.map fun x => value x :: back := by
  rw [behind_append hfront]
  cases x with
  | none => exact hback
  | some x => exact if_pos rfl

/-- An optional double is read with six significant digits. -/
theorem read_optional_double {isName : IsName key} {x : Option ℚ} {front back : List Piece}
    (hfront : behind key front = none) (hback : behind key back = none) :
    extractDoubleField (piecesText
      (front ++ (presentPieces (.key key isName) (doublePiece · .comma) x ++ back))) key =
        readOptional key (x.map sixDigits.round) := by
  have hbehind := @behind_present key _ isName (doublePiece · .comma) x _ _ hfront hback
  cases x with
  | none => exact extractDoubleField_none isName hbehind
  | some x =>
    rw [Option.map_some, ← (streamLiteral_spec x).2]
    exact @extractDoubleField_some _ _ isName (streamLiteral x) (streamLiteral_spec x).1 .comma
      ⟨back, hbehind⟩

/-- An optional integer is read as a number. -/
theorem read_optional_integer {isName : IsName key} {n : Option ℤ} {front back : List Piece}
    (hfront : behind key front = none) (hback : behind key back = none) :
    extractDoubleField (piecesText
      (front ++ (presentPieces (.key key isName) (integerPiece · .comma) n ++ back))) key =
        readOptional key (n.map Int.cast) := by
  have hbehind := @behind_present key _ isName (integerPiece · .comma) n _ _ hfront hback
  cases n with
  | none => exact extractDoubleField_none isName hbehind
  | some n =>
    have hvalue : (decimalLiteral n).value = n := by
      rw [NumberLiteral.value_of_integer rfl rfl, decimalLiteral_integer]
    rw [Option.map_some, ← hvalue]
    exact @extractDoubleField_some _ _ isName (decimalLiteral n) (decimalLiteral_wellFormed n)
      .comma ⟨back, hbehind⟩

theorem read_optional_int {isName : IsName key} {n : Option ℤ} (hn : ∀ k ∈ n, IsInt k)
    {front back : List Piece} (hfront : behind key front = none) (hback : behind key back = none) :
    extractIntField (piecesText
      (front ++ (presentPieces (.key key isName) (integerPiece · .comma) n ++ back))) key =
        .ok n := by
  have hbehind := @behind_present key _ isName (integerPiece · .comma) n _ _ hfront hback
  cases n with
  | none => exact extractIntField_none isName hbehind
  | some n => exact @extractIntField_some _ _ isName n .comma ⟨back, hbehind⟩ (hn n rfl)

/-- The sampling controls of an answer. -/
theorem read_controls (hfits : AnswerFits answer request) (hback : Silent back) :
    let text := piecesText (openAnswerPieces answer serviceName stageId request ++ back)
    extractDoubleField text (ascii "temperature") =
        readOptional (ascii "temperature") (request.temperature.map sixDigits.round) ∧
      extractIntField text (ascii "top_k") = .ok request.topK ∧
      extractDoubleField text (ascii "top_p") =
        readOptional (ascii "top_p") (request.topP.map sixDigits.round) ∧
      extractDoubleField text (ascii "seed") =
        readOptional (ascii "seed") (request.seed.map Int.cast) := by
  intro text
  have hend : ∀ key ∈ controlKeys, behind key (openTailPieces answer ++ back) = none :=
    fun key hkey => end_absent (hback.controls key hkey) (controlKeys_absent key hkey)
  have htext : text = piecesText (answerHeadPieces answer serviceName stageId request ++
      (controlPieces request ++ openTailPieces answer) ++ back) := rfl
  unfold controlPieces at htext
  simp only [List.append_assoc] at htext
  refine ⟨?_, ?_, ?_, ?_⟩
  · rw [htext]
    exact read_optional_double rfl (behind_skip (by decide) (fun _ => rfl)
      (behind_skip (by decide) (fun _ => rfl) (behind_skip (by decide) (fun _ => rfl)
        (hend _ (.head _)))))
  · rw [htext, ← List.append_assoc]
    refine read_optional_int hfits.topK ?_ (behind_skip (by decide) (fun _ => rfl)
      (behind_skip (by decide) (fun _ => rfl)
        (hend _ (.tail _ (.head _)))))
    exact (behind_append rfl _).trans (behind_presentPieces _ (by decide) (fun _ => rfl) _)
  · rw [htext, ← List.append_assoc, ← List.append_assoc]
    refine read_optional_double ?_ (behind_skip (by decide) (fun _ => rfl)
      (hend _ (.tail _ (.tail _ (.head _)))))
    rw [List.append_assoc]
    exact (behind_append rfl _).trans (behind_skip (by decide) (fun _ => rfl)
      (behind_presentPieces _ (by decide) (fun _ => rfl) _))
  · rw [htext, ← List.append_assoc, ← List.append_assoc, ← List.append_assoc]
    refine read_optional_integer ?_
      (hend _ (.tail _ (.tail _ (.tail _ (.head _)))))
    rw [List.append_assoc, List.append_assoc]
    exact (behind_append rfl _).trans (behind_skip (by decide) (fun _ => rfl)
      (behind_skip (by decide) (fun _ => rfl)
        (behind_presentPieces _ (by decide) (fun _ => rfl) _)))

/-- A name that an answer does not have. -/
theorem answer_absent (hback : behind key back = none) (hkey : key ∉ answerKeys) :
    behind key (openAnswerPieces answer serviceName stageId request ++ back) = none := by
  refine (behind_append (behind_of_not_mem fun h => hkey ?_) back).trans hback
  unfold openAnswerPieces at h
  rw [keysOf_append, keysOf_append, keysOf_head] at h
  unfold answerKeys
  rcases List.mem_append.mp h with h | h
  · exact List.mem_append_left _ h
  · refine List.mem_append_right _ ?_
    rcases List.mem_append.mp h with h | h
    · exact List.mem_append_left _ (keysOf_controls key h)
    · exact List.mem_append_right _ (keysOf_tail key h)

/-- The fields read in front of an answer, and then the ones that stand behind. -/
def readLate (fields : ParsedRequestMetadata) (tail : Bytes) :
    Except Bytes ParsedRequestMetadata := do
  let temperature ← extractDoubleField tail (ascii "temperature")
  let topK ← extractIntField tail (ascii "top_k")
  let topP ← extractDoubleField tail (ascii "top_p")
  let seed ← extractDoubleField tail (ascii "seed")
  return { fields with
    rebalanceProfile :=
      (extractStringField tail (ascii "rebalance_profile")).getD (ascii "baseline")
    topologyAwareRouting := (extractBoolField tail (ascii "topology_aware_routing")).getD false
    temperature := temperature
    topK := topK
    topP := topP
    seed := seed.map (toLongLong overflow) }

theorem late_keys_absent : ∀ key ∈ controlKeys ++ missingKeys, key ∉ headKeys := by decide

theorem head_absent (hkey : key ∈ controlKeys ++ missingKeys) :
    behind key (answerHeadPieces answer serviceName stageId request) = none :=
  behind_of_not_mem (late_keys_absent key hkey)

/-- Whatever stands behind the fields in front, these are read from there. -/
theorem parse_head (hfits : AnswerFits answer request) (tail : Bytes) :
    parseRequestMetadata overflow
        (piecesText (answerHeadPieces answer serviceName stageId request) ++ tail) =
      readLate overflow (answerFields answer request) tail := by
  set text := piecesText (answerHeadPieces answer serviceName stageId request) ++ tail with htext
  have hrequestId : extractStringAlias text (ascii "request_id") (ascii "rid") = _ :=
    extractStringAlias_reads (by decide) ⟨_, rfl⟩ tail
  have htokenIndex : extractIntAlias text (ascii "token_index") (ascii "ti") = _ :=
    extractIntAlias_reads (by decide) ⟨_, rfl⟩ hfits.tokenIndex tail
  have hnextTokenId : extractIntAlias text (ascii "next_token_id") (ascii "nt") = _ :=
    extractIntAlias_reads (by decide) ⟨_, rfl⟩ hfits.nextTokenId tail
  have hmode : extractStringAlias text (ascii "generation_mode") (ascii "gm") = _ :=
    extractStringAlias_reads (by decide) ⟨_, rfl⟩ tail
  have hprecision : extractStringAlias text (ascii "activation_precision") (ascii "ap") = _ :=
    extractStringAlias_reads (by decide) ⟨_, rfl⟩ tail
  have htransport : extractStringAlias text (ascii "transport_mode") (ascii "tm") = _ :=
    extractStringAlias_reads (by decide) ⟨_, rfl⟩ tail
  have hprofile : extractStringField text (ascii "rebalance_profile") =
      extractStringField tail (ascii "rebalance_profile") :=
    extractStringField_past (by decide) (head_absent (by decide)) tail
  have hsessions : extractBoolAlias text (ascii "persistent_sessions_enabled") (ascii "ps") = _ :=
    extractBoolAlias_reads (by decide) ⟨_, rfl⟩ tail
  have htopology : extractBoolField text (ascii "topology_aware_routing") =
      extractBoolField tail (ascii "topology_aware_routing") :=
    extractBoolField_past (by decide) (head_absent (by decide)) tail
  have hmetadataLevel : extractStringAlias text (ascii "metadata_level") (ascii "ml") = _ :=
    extractStringAlias_reads (by decide) ⟨_, rfl⟩ tail
  have hchaining : extractBoolAlias text (ascii "native_stage_chaining_enabled")
      (ascii "nsc") = _ :=
    extractBoolAlias_reads (by decide) ⟨_, rfl⟩ tail
  have hdtype : extractStringAlias text (ascii "dtype") (ascii "dt") = _ :=
    extractStringAlias_reads (by decide) ⟨_, rfl⟩ tail
  have hbyteOrder : extractStringAlias text (ascii "byte_order") (ascii "bo") = _ :=
    extractStringAlias_reads (by decide) ⟨_, rfl⟩ tail
  have hshape : extractShape text = .ok (answerTensor answer request).shape :=
    @extractShape_reads ((answerHeadPieces answer serviceName stageId request).take 32) _ .comma
      _ (by decide) .comma _ rfl rfl hfits.shape tail
  have hcache : extractBoolAlias text (ascii "kv_cache_enabled") (ascii "kv") = _ :=
    extractBoolAlias_reads (by decide) ⟨_, rfl⟩ tail
  have htemperature : extractDoubleField text (ascii "temperature") =
      extractDoubleField tail (ascii "temperature") :=
    extractDoubleField_past (by decide) (head_absent (by decide)) tail
  have htopK : extractIntField text (ascii "top_k") = extractIntField tail (ascii "top_k") :=
    extractIntField_past (by decide) (head_absent (by decide)) tail
  have htopP : extractDoubleField text (ascii "top_p") =
      extractDoubleField tail (ascii "top_p") :=
    extractDoubleField_past (by decide) (head_absent (by decide)) tail
  have hseed : extractDoubleField text (ascii "seed") = extractDoubleField tail (ascii "seed") :=
    extractDoubleField_past (by decide) (head_absent (by decide)) tail
  unfold parseRequestMetadata
  simp only [hrequestId, htokenIndex, hnextTokenId, hmode, hprecision, htransport, hprofile,
    hsessions, htopology, hmetadataLevel, hchaining, hdtype, hbyteOrder, hshape, hcache,
    htemperature, htopK, htopP, hseed]
  rfl

/-- What is read of an answer does not depend on silent pieces behind it. -/
theorem parse_openAnswer (hfits : AnswerFits answer request) (hback : Silent back) :
    parseRequestMetadata overflow
        (piecesText (openAnswerPieces answer serviceName stageId request ++ back)) =
      readControls overflow (answerFields answer request)
        (request.temperature.map sixDigits.round) (request.topP.map sixDigits.round)
        (request.seed.map Int.cast) := by
  obtain ⟨htemperature, htopK, htopP, hseed⟩ :=
    @read_controls answer serviceName stageId request back hfits hback
  have hmissing : ∀ key ∈ missingKeys,
      behind key (openAnswerPieces answer serviceName stageId request ++ back) = none :=
    fun key hkey => answer_absent (hback.missing key hkey) (missingKeys_absent key hkey)
  have hprofile := extractStringField_none (by decide) (hmissing _ (.head _))
  have htopology := extractBoolField_none (by decide) (hmissing _ (.tail _ (.head _)))
  unfold openAnswerPieces at htemperature htopK htopP hseed hprofile htopology ⊢
  rw [List.append_assoc, piecesText_append] at htemperature htopK htopP hseed hprofile htopology ⊢
  rw [extractDoubleField_past (by decide) (head_absent (by decide))] at htemperature htopP hseed
  rw [extractIntField_past (by decide) (head_absent (by decide))] at htopK
  rw [extractStringField_past (by decide) (head_absent (by decide))] at hprofile
  rw [extractBoolField_past (by decide) (head_absent (by decide))] at htopology
  rw [parse_head overflow hfits]
  unfold readLate
  rw [htemperature, htopK, htopP, hseed, hprofile, htopology]
  rfl

/-- What a stage reads of the answer of the stage before it. -/
theorem parse_answer (hfits : AnswerFits answer request) :
    parseRequestMetadata overflow
        (runtimeResponseMetadataJson answer serviceName stageId request) =
      readControls overflow (answerFields answer request)
        (request.temperature.map sixDigits.round) (request.topP.map sixDigits.round)
        (request.seed.map Int.cast) := by
  unfold runtimeResponseMetadataJson
  rw [runtimeResponseMetadataPieces_eq]
  exact parse_openAnswer overflow hfits silent_lastBrace

end Answers

end LayerInference.MetadataRoundTrips
