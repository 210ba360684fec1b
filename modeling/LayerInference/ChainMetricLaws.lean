import LayerInference.NumberReads
import LayerInference.StageChainMetrics

/-!
# What survives in chain metrics

Chain metrics in the answer of a stage replace the ones that stood there, and the
request fields of the answer are read as before. What comes back of the metrics is
decided by one name: the communication time is looked for under the name that the
metrics of the stage itself use, and these stand in front.
-/

namespace LayerInference.ChainMetricLaws

open ByteStrings TextStreams QuotedTexts Rounding NumberTexts NumberReads JsonPieces
  MetadataTexts MetadataReader MetadataRoundTrips StageChainMetrics

variable {answer : StageAnswer} {serviceName : Bytes} {stageId : ℤ} {request : StageRequest}

section Answers

/-- The names of the inner object that are looked for first. -/
def readKeys : List Bytes :=
  [ascii "compute_ms", ascii "rpc_wall_ms", ascii "transport_payload_bytes", ascii "stage_count"]

/-- The names of the written fields. -/
def writtenKeys : List Bytes := keysOf (writtenPieces {})

theorem chain_names_absent :
    ∀ name ∈ ascii "chain_metrics" :: (readKeys ++ numberKeys), name ∉ answerKeys := by
  decide +kernel

theorem name_absent {key : Bytes}
    (hkey : key ∈ ascii "chain_metrics" :: (readKeys ++ numberKeys)) :
    behind key (openAnswerPieces answer serviceName stageId request) = none := by
  have h := @answer_absent answer serviceName stageId request key [] rfl
    (chain_names_absent key hkey)
  rwa [List.append_nil] at h

theorem read_absent {key : Bytes} (hkey : key ∈ readKeys) :
    behind key (openAnswerPieces answer serviceName stageId request) = none :=
  name_absent (List.mem_cons_of_mem _ (List.mem_append_left _ hkey))

theorem number_absent {key : Bytes} (hkey : key ∈ numberKeys) :
    behind key (openAnswerPieces answer serviceName stageId request) = none :=
  name_absent (List.mem_cons_of_mem _ (List.mem_append_right _ hkey))

/-- An answer has none of the fields that are removed. -/
theorem chainless_answer : Chainless (openAnswerPieces answer serviceName stageId request) :=
  ⟨name_absent List.mem_cons_self, fun _ hname => number_absent hname⟩

/-- The description of the backend ends with a brace. -/
theorem openAnswer_end : ∃ inner,
    piecesText (openAnswerPieces answer serviceName stageId request) = inner ++ [0x7d] := by
  have hbackend : ∃ inner, piecesText (backendPieces answer.backend) = inner ++ [0x7d] := by
    unfold backendPieces
    cases answer.backend with
    | none => exact ⟨[0x7b], rfl⟩
    | some b =>
      refine ⟨piecesText (backendMetadataPieces b).dropLast, ?_⟩
      have hlast : piecesText [lastBrace] = [0x7d] := rfl
      rw [← hlast, ← piecesText_append]
      rfl
  obtain ⟨inner, hinner⟩ := hbackend
  unfold openAnswerPieces openTailPieces
  refine ⟨piecesText (answerHeadPieces answer serviceName stageId request ++
    (controlPieces request ++ (keyPiece "metrics" :: (metricsPieces answer.metrics ++
      [comma, keyPiece "backend_metadata"])))) ++ inner, ?_⟩
  rw [List.append_assoc, ← hinner, ← piecesText_append]
  simp only [List.append_assoc, List.cons_append, List.nil_append]

theorem late_names_unwritten : ∀ name ∈ controlKeys ++ missingKeys, name ∉ writtenKeys := by
  decide +kernel

theorem silent_written (metrics : ChainMetrics) : Silent (comma :: writtenPieces metrics) := by
  have hnone : ∀ name ∈ controlKeys ++ missingKeys,
      behind name (comma :: writtenPieces metrics) = none :=
    fun name hname => behind_of_not_mem (late_names_unwritten name hname)
  exact ⟨fun name hname => hnone name (List.mem_append_left _ hname),
    fun name hname => hnone name (List.mem_append_right _ hname)⟩

/-- The answer with chain metrics, in pieces. -/
theorem put_answer (metrics : ChainMetrics) :
    putChainMetricsInMetadata (runtimeResponseMetadataJson answer serviceName stageId request)
        metrics =
      piecesText (openAnswerPieces answer serviceName stageId request ++
        comma :: writtenPieces metrics) := by
  unfold runtimeResponseMetadataJson
  rw [runtimeResponseMetadataPieces_eq]
  exact put_chainless chainless_answer openAnswer_end

end Answers

section Fields

variable {key : Bytes} {pieces : List Piece}

theorem extractNumberField_literal (hkey : IsName key) {l : NumberLiteral} {hl : l.WellFormed}
    {mark : Mark} (h : ∃ rest, behind key pieces = some (literalPiece l hl mark :: rest)) :
    extractNumberField (piecesText pieces) key = stod l.value := by
  obtain ⟨rest, hrest⟩ := h
  unfold extractNumberField
  rw [searchField_some hkey hrest (metadataNumber_pieces hl mark rest), Option.bind_some]

theorem extractNumberField_double (hkey : IsName key) {x : ℚ} {mark : Mark}
    (h : ∃ rest, behind key pieces = some (doublePiece x mark :: rest)) :
    extractNumberField (piecesText pieces) key = stod (sixDigits.round x) := by
  rw [← (streamLiteral_spec x).2]
  exact extractNumberField_literal hkey h

theorem extractNumberField_none (hkey : IsName key) (h : behind key pieces = none) :
    extractNumberField (piecesText pieces) key = none := by
  unfold extractNumberField
  rw [searchField_none hkey metadataNumber h]
  rfl

/-- A count is read as the double nearest to it. -/
theorem extractU64Field_integer (overflow : ℚ → ℕ) (hkey : IsName key) {n : ℕ} {mark : Mark}
    (hn : n < 2 ^ 64) (h : ∃ rest, behind key pieces = some (integerPiece n mark :: rest)) :
    extractU64Field overflow (piecesText pieces) key =
      some (toUint64 overflow (binary64.round (n : ℤ))) := by
  have hvalue : (decimalLiteral n).value = ((n : ℤ) : ℚ) := by
    rw [NumberLiteral.value_of_integer rfl rfl, decimalLiteral_integer]
  have hbound : |(n : ℤ)| ≤ 2 ^ 64 := by
    rw [abs_of_nonneg (Int.natCast_nonneg n)]
    exact_mod_cast hn.le
  have hnonneg : ¬binary64.round ((n : ℤ) : ℚ) < 0 :=
    not_lt.mpr (binary64.round_nonneg (Int.cast_nonneg (Int.natCast_nonneg n)))
  unfold extractU64Field
  rw [extractNumberField_literal hkey h, hvalue, stod_integer hbound]
  exact if_neg hnonneg

end Fields

section Extraction

variable {metrics : ChainMetrics}

/-- The names of the written fields that an answer does not have. -/
theorem written_found {name : String} {piece : Piece} {rest : List Piece}
    (habsent : behind (ascii name) (openAnswerPieces answer serviceName stageId request) = none)
    (hwritten : behind (ascii name) (comma :: writtenPieces metrics) = some (piece :: rest)) :
    ∃ rest, behind (ascii name) (openAnswerPieces answer serviceName stageId request ++
      comma :: writtenPieces metrics) = some (piece :: rest) :=
  ⟨rest, (behind_append habsent _).trans hwritten⟩

/-- The communication time of the stage itself stands in front. -/
theorem comm_found (back : List Piece) :
    ∃ rest, behind (ascii "true_comm_ms")
      (openAnswerPieces answer serviceName stageId request ++ back) =
        some (doublePiece answer.metrics.trueCommMs .comma :: rest) := by
  have hcontrols : behind (ascii "true_comm_ms") (controlPieces request) = none := by
    exact behind_of_not_mem fun h => absurd (keysOf_controls _ h) (by decide)
  have hhead : behind (ascii "true_comm_ms")
      (answerHeadPieces answer serviceName stageId request) = none := rfl
  unfold openAnswerPieces
  rw [List.append_assoc, behind_append hhead, List.append_assoc, behind_append hcontrols]
  exact ⟨_, rfl⟩

/-- The result of the first name that has one. -/
theorem aliases_two (json : Bytes) {first second third : Bytes} {x y : Option ℚ}
    (hfirst : extractNumberField json first = x) (hsecond : extractNumberField json second = y)
    (hthird : extractNumberField json third = none) :
    extractNumberAliases json [first, second, third] = x.or y := by
  unfold extractNumberAliases
  rw [List.findSome?_cons, hfirst]
  cases x with
  | some x => rfl
  | none =>
    rw [List.findSome?_cons, hsecond]
    cases y with
    | some y => rfl
    | none =>
      rw [List.findSome?_cons, hthird]
      rfl

theorem hasChainMetrics_put : metadataHasChainMetrics (piecesText
    (openAnswerPieces answer serviceName stageId request ++ comma :: writtenPieces metrics)) =
      true := by
  have hinfix : ascii "\"chain_metrics\"" <:+: piecesText
      (openAnswerPieces answer serviceName stageId request ++ comma :: writtenPieces metrics) := by
    refine ⟨piecesText (openAnswerPieces answer serviceName stageId request ++ [comma]),
      58 :: piecesText (openBrace :: (objectPieces metrics ++
        (comma :: (flatPieces metrics ++ [integerPiece metrics.stageCount .close])))), ?_⟩
    have hkey : ascii "\"chain_metrics\"" ++ 58 :: piecesText (openBrace ::
        (objectPieces metrics ++ (comma :: (flatPieces metrics ++
          [integerPiece metrics.stageCount .close])))) = piecesText (writtenPieces metrics) := rfl
    rw [List.append_assoc, hkey, ← piecesText_append, List.append_assoc]
    rfl
  unfold metadataHasChainMetrics
  rw [find_isSome_iff.mpr hinfix, Bool.true_or]

/-- The short names are never written. -/
theorem short_names : ∀ name ∈ [ascii "ccm", ascii "crw", ascii "ctc"],
    IsName name ∧ name ∈ numberKeys ∧ name ∉ writtenKeys := by decide +kernel

/-- What the names and the aliases give. -/
theorem readChainMetrics_put (overflow : ℚ → ℕ) (hbytes : metrics.transportPayloadBytes < 2 ^ 53)
    (hstages : metrics.stageCount < 2 ^ 64) :
    readChainMetrics overflow (piecesText
      (openAnswerPieces answer serviceName stageId request ++ comma :: writtenPieces metrics)) =
    { computeMs := (stod (sixDigits.round metrics.computeMs)).getD 0
      rpcWallMs := (stod (sixDigits.round metrics.rpcWallMs)).getD 0
      trueCommMs := ((stod (sixDigits.round answer.metrics.trueCommMs)).or
        (stod (sixDigits.round metrics.trueCommMs))).getD 0
      transportPayloadBytes := metrics.transportPayloadBytes
      stageCount := toUint64 overflow (binary64.round (metrics.stageCount : ℤ)) } := by
  set text := piecesText
    (openAnswerPieces answer serviceName stageId request ++ comma :: writtenPieces metrics)
  have hcompute : extractNumberField text (ascii "compute_ms") = _ :=
    extractNumberField_double (by decide) (written_found (read_absent (.head _)) rfl)
  have hcompute' : extractNumberField text (ascii "chain_compute_time_ms") = _ :=
    extractNumberField_double (by decide) (written_found (number_absent (.head _)) rfl)
  have hrpc : extractNumberField text (ascii "rpc_wall_ms") = _ :=
    extractNumberField_double (by decide) (written_found (read_absent (.tail _ (.head _))) rfl)
  have hrpc' : extractNumberField text (ascii "chain_rpc_wall_time_ms") = _ :=
    extractNumberField_double (by decide) (written_found (number_absent (.tail _ (.head _))) rfl)
  have hcomm : extractNumberField text (ascii "true_comm_ms") = _ :=
    extractNumberField_double (by decide) (comm_found _)
  have hcomm' : extractNumberField text (ascii "chain_true_comm_ms") = _ :=
    extractNumberField_double (by decide) (written_found (number_absent (.tail _ (.tail _ (.head _)))) rfl)
  have hbytesRead : extractU64Field overflow text (ascii "transport_payload_bytes") = _ :=
    extractU64Field_integer overflow (by decide) (hbytes.trans (by decide))
      (written_found (read_absent (.tail _ (.tail _ (.head _)))) rfl)
  have hstagesRead : extractU64Field overflow text (ascii "stage_count") = _ :=
    extractU64Field_integer overflow (by decide) hstages
      (written_found (read_absent (.tail _ (.tail _ (.tail _ (.head _))))) rfl)
  have hexact : toUint64 overflow (binary64.round ((metrics.transportPayloadBytes : ℤ) : ℚ)) =
      metrics.transportPayloadBytes := by
    have hsmall : |((metrics.transportPayloadBytes : ℕ) : ℤ)| ≤ 2 ^ 53 := by
      rw [abs_of_nonneg (Int.natCast_nonneg _)]
      exact_mod_cast hbytes.le
    rw [binary64_integer hsmall]
    unfold toUint64
    rw [Int.floor_intCast, if_pos (by omega)]
    rfl
  have hnone : ∀ name ∈ [ascii "ccm", ascii "crw", ascii "ctc"],
      extractNumberField text name = none := by
    intro name hname
    obtain ⟨hisName, hkey, hwritten⟩ := short_names name hname
    exact extractNumberField_none hisName
      ((behind_append (number_absent hkey) _).trans (behind_of_not_mem hwritten))
  have hbytesFirst : ∀ keys, extractU64Aliases overflow text
      (ascii "transport_payload_bytes" :: keys) = some metrics.transportPayloadBytes := by
    intro keys
    unfold extractU64Aliases
    rw [List.findSome?_cons, hbytesRead, hexact]
  have hstagesFirst : ∀ keys, extractU64Aliases overflow text (ascii "stage_count" :: keys) =
      some (toUint64 overflow (binary64.round (metrics.stageCount : ℤ))) := by
    intro keys
    unfold extractU64Aliases
    rw [List.findSome?_cons, hstagesRead]
  unfold readChainMetrics
  rw [aliases_two text hcompute hcompute' (hnone _ (.head _)), Option.or_self,
    aliases_two text hrpc hrpc' (hnone _ (.tail _ (.head _))), Option.or_self,
    aliases_two text hcomm hcomm'
      (hnone _ (.tail _ (.tail _ (.head _)))), hbytesFirst, hstagesFirst]
  rfl

/-- A time of at most six significant digits: the double nearest to them. -/
def IsTime (t : ℚ) : Prop :=
  t < 2 ^ 1024 ∧ ∃ digits, 0 ≤ digits ∧ sixDigits.Holds digits ∧ binary64.round digits = t

/-- Metrics of a chain as a stage hands them on. -/
structure Measured (metrics : ChainMetrics) : Prop where
  stages : 1 ≤ metrics.stageCount
  stagesFit : metrics.stageCount < 2 ^ 64
  compute : 0 < metrics.computeMs
  wall : metrics.computeMs ≤ metrics.rpcWallMs
  comm : metrics.trueCommMs = binary64.round (metrics.rpcWallMs - metrics.computeMs)
  bytes : metrics.transportPayloadBytes < 2 ^ 53
  computeTime : IsTime metrics.computeMs
  wallTime : IsTime metrics.rpcWallMs
  commTime : IsTime metrics.trueCommMs

/-- A time that is not below the normal doubles is read back. -/
theorem IsTime.read {t : ℚ} (h : IsTime t) (hnormal : 2 ^ (-1022 : ℤ) ≤ t) :
    stod (sixDigits.round t) = some t := by
  obtain ⟨hlarge, digits, hnonneg, hholds, rfl⟩ := h
  exact stod_normal hholds hnonneg hnormal hlarge

/-- A difference of times is read back, or left to be computed again. -/
theorem comm_read (h : Measured metrics) {out : ChainMetrics}
    (hcompute : out.computeMs = metrics.computeMs) (hwall : out.rpcWallMs = metrics.rpcWallMs)
    (hcomm : out.trueCommMs = (stod (sixDigits.round metrics.trueCommMs)).getD 0 ∨
      out.trueCommMs ≤ 0 ∨ out.trueCommMs = metrics.trueCommMs) :
    (completed out).trueCommMs = metrics.trueCommMs := by
  have hnonneg : 0 ≤ metrics.trueCommMs := by
    rw [h.comm]
    exact binary64.round_nonneg (sub_nonneg.mpr h.wall)
  have hwallpos : ¬(out.rpcWallMs ≤ 0 ∧ 0 < out.computeMs) := by
    rw [hwall]
    exact fun hzero => absurd (h.compute.trans_le h.wall) (not_lt.mpr hzero.1)
  have hcomputed : out.trueCommMs ≤ 0 → (completed out).trueCommMs = metrics.trueCommMs := by
    intro hzero
    unfold completed
    dsimp only
    rw [if_neg hwallpos, if_pos hzero, hwall, hcompute, ← h.comm, max_eq_right hnonneg]
  have hkept : 0 < out.trueCommMs → (completed out).trueCommMs = out.trueCommMs := by
    intro hpos
    unfold completed
    dsimp only
    rw [if_neg (not_le.mpr hpos)]
  rcases le_or_gt out.trueCommMs 0 with hzero | hpos
  · exact hcomputed hzero
  · rw [hkept hpos]
    rcases hcomm with hread | hzero | hsame
    · have htime : 2 ^ (-1022 : ℤ) ≤ metrics.trueCommMs := by
        by_contra hsmall
        rcases hnonneg.eq_or_lt with hzero | hcommpos
        · rw [← hzero, NumberFormat.round_zero, stod_zero, Option.getD_some] at hread
          exact absurd hpos (not_lt.mpr hread.le)
        · rw [stod_small hcommpos (not_le.mp hsmall), Option.getD_none] at hread
          exact absurd hpos (not_lt.mpr hread.le)
      rw [hread, h.commTime.read htime, Option.getD_some]
    · exact absurd hpos (not_lt.mpr hzero)
    · exact hsame

/-- The stages of a chain are counted up to the precision of a double. -/
theorem stages_read {n : ℕ} (hpos : 1 ≤ n) (hfits : n < 2 ^ 64) :
    (∀ overflow : ℚ → ℕ,
      (if toUint64 overflow (binary64.round (n : ℤ)) = 0 then 1
        else toUint64 overflow (binary64.round (n : ℤ))) = n) ↔ binary64.round (n : ℤ) = n := by
  obtain ⟨m, hm⟩ := binary64_integral n
  have hcast : ∀ overflow : ℚ → ℕ, toUint64 overflow (binary64.round (n : ℤ)) =
      if m < 2 ^ 64 then m.toNat else overflow m := by
    intro overflow
    unfold toUint64
    rw [hm, Int.floor_intCast]
  have hexact : binary64.round (n : ℤ) = n ↔ m = n := by
    rw [hm]
    exact_mod_cast Iff.rfl
  rw [hexact]
  constructor
  · intro h
    have hzero := h fun _ => 0
    rw [hcast] at hzero
    by_cases hone : n = 1
    · have hunit : binary64.round ((n : ℤ) : ℚ) = (n : ℤ) :=
        binary64_integer (by rw [hone]; decide)
      rw [hm] at hunit
      exact_mod_cast hunit
    · split at hzero <;> split at hzero <;> omega
  · intro h overflow
    have hvalue : toUint64 overflow (binary64.round (n : ℤ)) = n := by
      rw [hcast, if_pos (show m < 2 ^ 64 by omega)]
      omega
    rw [hvalue, if_neg (by omega)]

end Extraction

section Laws

/-- What is promised of chain metrics written into an answer: they are read back,
the last ones stand alone, and the request fields stay. -/
structure Laws (answer : StageAnswer) (serviceName : Bytes) (stageId : ℤ) (request : StageRequest)
    (x y : ChainMetrics) : Prop where
  readBack : ∀ overflow, extractChainMetricsFromMetadata overflow (putChainMetricsInMetadata
    (runtimeResponseMetadataJson answer serviceName stageId request) x) = x
  overwrites : putChainMetricsInMetadata (putChainMetricsInMetadata
      (runtimeResponseMetadataJson answer serviceName stageId request) x) y =
    putChainMetricsInMetadata (runtimeResponseMetadataJson answer serviceName stageId request) y
  keepsFields : ∀ overflow, parseRequestMetadata overflow (putChainMetricsInMetadata
      (runtimeResponseMetadataJson answer serviceName stageId request) x) =
    parseRequestMetadata overflow
      (runtimeResponseMetadataJson answer serviceName stageId request)

/-- Nothing stands in the way of reading the metrics back: the communication time
of the stage itself is not read, not positive or the same, the times are no
subnormal doubles, and the number of stages is a double. -/
structure Unhidden (stage : StageMetrics) (x : ChainMetrics) : Prop where
  comm : ∀ s ∈ stod (sixDigits.round stage.trueCommMs), s ≤ 0 ∨ s = x.trueCommMs
  normal : 2 ^ (-1022 : ℤ) ≤ x.computeMs
  stages : binary64.round (x.stageCount : ℤ) = x.stageCount

/-- The metrics that come back, field by field. -/
theorem readBack_iff {x : ChainMetrics} (hx : Measured x) :
    (∀ overflow, extractChainMetricsFromMetadata overflow (putChainMetricsInMetadata
      (runtimeResponseMetadataJson answer serviceName stageId request) x) = x) ↔
      Unhidden answer.metrics x := by
  have hextract : ∀ overflow, extractChainMetricsFromMetadata overflow (putChainMetricsInMetadata
      (runtimeResponseMetadataJson answer serviceName stageId request) x) =
        completed {
          computeMs := (stod (sixDigits.round x.computeMs)).getD 0
          rpcWallMs := (stod (sixDigits.round x.rpcWallMs)).getD 0
          trueCommMs := ((stod (sixDigits.round answer.metrics.trueCommMs)).or
            (stod (sixDigits.round x.trueCommMs))).getD 0
          transportPayloadBytes := x.transportPayloadBytes
          stageCount := toUint64 overflow (binary64.round (x.stageCount : ℤ)) } := by
    intro overflow
    rw [put_answer]
    unfold extractChainMetricsFromMetadata
    dsimp only
    rw [hasChainMetrics_put, if_pos rfl, readChainMetrics_put overflow hx.bytes hx.stagesFit]
  simp only [hextract]
  constructor
  · intro h
    have hfirst := h fun _ => 0
    have hcompute := congrArg ChainMetrics.computeMs hfirst
    have hnormal : 2 ^ (-1022 : ℤ) ≤ x.computeMs := by
      by_contra hsmall
      change (stod (sixDigits.round x.computeMs)).getD 0 = x.computeMs at hcompute
      rw [stod_small hx.compute (not_le.mp hsmall), Option.getD_none] at hcompute
      exact absurd hx.compute (hcompute ▸ lt_irrefl _)
    refine ⟨?_, hnormal, ?_⟩
    · intro s hs
      refine or_iff_not_imp_left.mpr fun hpos => ?_
      have hcomm := congrArg ChainMetrics.trueCommMs hfirst
      change (if ((stod (sixDigits.round answer.metrics.trueCommMs)).or _).getD 0 ≤ 0 then _
        else ((stod (sixDigits.round answer.metrics.trueCommMs)).or _).getD 0) = _ at hcomm
      rw [hs, Option.some_or, Option.getD_some, if_neg hpos] at hcomm
      exact hcomm
    · refine (stages_read hx.stages hx.stagesFit).mp fun overflow => ?_
      exact congrArg ChainMetrics.stageCount (h overflow)
  · intro h overflow
    have hcompute := hx.computeTime.read h.normal
    have hwall := hx.wallTime.read (h.normal.trans hx.wall)
    have hpos := hx.compute.trans_le hx.wall
    rw [hcompute, hwall, Option.getD_some, Option.getD_some]
    set out : ChainMetrics := {
      computeMs := x.computeMs
      rpcWallMs := x.rpcWallMs
      trueCommMs := ((stod (sixDigits.round answer.metrics.trueCommMs)).or
        (stod (sixDigits.round x.trueCommMs))).getD 0
      transportPayloadBytes := x.transportPayloadBytes
      stageCount := toUint64 overflow (binary64.round (x.stageCount : ℤ)) } with hout
    have hcomm : (completed out).trueCommMs = x.trueCommMs := by
      refine comm_read hx rfl rfl ?_
      cases hstage : stod (sixDigits.round answer.metrics.trueCommMs) with
      | none =>
        left
        rw [hout, hstage, Option.none_or]
      | some s =>
        right
        rw [hout, hstage, Option.some_or, Option.getD_some]
        exact h.comm s hstage
    have hrpc : (completed out).rpcWallMs = x.rpcWallMs :=
      if_neg fun hzero => absurd hpos (not_lt.mpr hzero.1)
    have hstages : (completed out).stageCount = x.stageCount :=
      (stages_read hx.stages hx.stagesFit).mpr h.stages overflow
    calc completed out = ⟨(completed out).computeMs, (completed out).rpcWallMs,
          (completed out).trueCommMs, (completed out).transportPayloadBytes,
          (completed out).stageCount⟩ := rfl
      _ = x := by
        rw [hrpc, hcomm, hstages]
        rfl

/-- The laws hold of the metrics in an answer exactly when nothing hides them. -/
theorem chain_metrics_laws_iff (hfits : AnswerFits answer request) {x : ChainMetrics}
    (hx : Measured x) (y : ChainMetrics) :
    Laws answer serviceName stageId request x y ↔ Unhidden answer.metrics x := by
  constructor
  · exact fun h => (readBack_iff hx).mp h.readBack
  · intro h
    refine ⟨(readBack_iff hx).mpr h, ?_, fun overflow => ?_⟩
    · rw [put_answer, put_answer, put_written chainless_answer openAnswer_end]
    · rw [put_answer, parse_openAnswer overflow hfits (silent_written x),
        parse_answer overflow hfits]

theorem isTime_natCast {n : ℕ} (h : n ≤ 10 ^ 6) : IsTime n := by
  have hsmall : |(n : ℤ)| ≤ 10 ^ 6 := by
    rw [abs_of_nonneg (Int.natCast_nonneg n)]
    exact_mod_cast h
  have hholds : sixDigits.Holds (((n : ℤ) : ℚ) * ((10 : ℕ) : ℚ) ^ (0 : ℤ)) :=
    sixDigits.holds_of_multiple hsmall fun least hleast => by cases hleast
  rw [zpow_zero, mul_one, Int.cast_natCast] at hholds
  have hdouble := binary64_integer (hsmall.trans (by decide))
  rw [Int.cast_natCast] at hdouble
  refine ⟨?_, n, Nat.cast_nonneg n, hholds, hdouble⟩
  have hlarge : (n : ℚ) ≤ 2 ^ 20 := by
    have hbound : n ≤ 2 ^ 20 := h.trans (by decide)
    exact_mod_cast hbound
  exact hlarge.trans_lt (pow_lt_pow_right₀ one_lt_two (by decide))

/-- Two stages that needed one of three milliseconds. -/
def twoStages : ChainMetrics where
  computeMs := 1
  rpcWallMs := 3
  trueCommMs := 2
  transportPayloadBytes := 100
  stageCount := 2

theorem twoStages_measured : Measured twoStages where
  stages := by decide
  stagesFit := by decide
  compute := by decide
  wall := by decide
  comm := by
    have hdouble := @binary64_integer 2 (by decide)
    show (2 : ℚ) = binary64.round (3 - 1)
    rw [show (3 : ℚ) - 1 = ((2 : ℤ) : ℚ) by norm_num, hdouble]
    rfl
  bytes := by decide
  computeTime := by exact_mod_cast @isTime_natCast 1 (by decide)
  wallTime := @isTime_natCast 3 (by decide)
  commTime := @isTime_natCast 2 (by decide)

theorem fits_default (metrics : StageMetrics) : AnswerFits { metrics := metrics } {} where
  tokenIndex := (⟨by decide, by decide⟩ : IsInt 0)
  nextTokenId := (⟨by decide, by decide⟩ : IsInt (-1))
  topK := fun k hk => by cases hk
  shape := fun d hd => absurd hd List.not_mem_nil

/-- An answer without a communication time of its own keeps the metrics. -/
theorem chain_metrics_laws_iff_two_stages :
    Laws {} (ascii "stage-1") 1 {} twoStages {} := by
  refine (chain_metrics_laws_iff (fits_default {}) twoStages_measured {}).mpr ⟨?_, ?_, ?_⟩
  · intro s hs
    change stod (sixDigits.round 0) = some s at hs
    rw [NumberFormat.round_zero, stod_zero] at hs
    exact Or.inl (Option.some.inj hs).symm.le
  · exact zpow_le_one_of_nonpos₀ one_le_two (by decide)
  · exact @binary64_integer 2 (by decide)

/-- The five milliseconds of the stage are read for the two of its chain. -/
theorem own_comm_read_instead : Measured twoStages ∧
    ¬∀ overflow, extractChainMetricsFromMetadata overflow (putChainMetricsInMetadata
      (runtimeResponseMetadataJson { metrics := { trueCommMs := 5 } } (ascii "stage-1") 1 {})
        twoStages) = twoStages := by
  refine ⟨twoStages_measured, fun h => ?_⟩
  have hcomm := ((readBack_iff twoStages_measured).mp h).comm 5
    ((@isTime_natCast 5 (by decide)).read (by
      refine (zpow_le_one_of_nonpos₀ one_le_two (by decide)).trans ?_
      norm_num))
  rcases hcomm with hzero | hsame
  · exact absurd hzero (by norm_num)
  · exact absurd hsame (by unfold twoStages; norm_num)

end Laws

end LayerInference.ChainMetricLaws
