import LayerInference.ChainMetricLaws

/-!
# The bytes of a chained call

On the way back through a chain every stage adds the bytes of the call that it
passed on, and the gateway adds those of its own call. The last stage passes no
call on, and the bytes of its tensors are counted in place of one: the gateway then
counts bytes that crossed no link of their own.
-/

namespace LayerInference.ChainAccounting

open ByteStrings Rounding NumberTexts JsonPieces MetadataTexts MetadataRoundTrips
  StageChainMetrics ChainMetricLaws

variable {overflow : ℚ → ℕ} {answer : StageAnswer} {serviceName : Bytes} {stageId : ℤ}
  {request : StageRequest}

section Calls

/-- The bodies of one call. -/
structure Call where
  requestBytes : ℕ
  responseBytes : ℕ
  elapsedMs : ℚ

def Call.bytes (call : Call) : ℕ := call.requestBytes + call.responseBytes

def callBytes (calls : List Call) : ℕ := (calls.map Call.bytes).sum

/-- A stage that passes a call on, with its own metrics. -/
structure PassingStage where
  metrics : StageMetrics
  call : Call

/-- The metadata that comes back through the stages of a chain, the first one
first. -/
def chainMetadata (overflow : ℚ → ℕ) (terminal : Bytes) : List PassingStage → Bytes
  | [] => terminal
  | stage :: stages =>
    mergeChainMetrics overflow (chainMetadata overflow terminal stages) stage.metrics
      stage.call.elapsedMs stage.call.requestBytes stage.call.responseBytes

/-- What the gateway adds up over the calls of a generation. -/
structure CallTotals where
  computeMs : ℚ := 0
  rpcWallMs : ℚ := 0
  trueCommMs : ℚ := 0
  transportPayloadBytes : ℕ := 0

def aggregateChainedStageResult (overflow : ℚ → ℕ) (totals : CallTotals) (call : Call)
    (metadataJson : Bytes) : CallTotals :=
  let chain := extractChainMetricsFromMetadata overflow metadataJson
  { computeMs := binary64.round (totals.computeMs + chain.computeMs)
    rpcWallMs := binary64.round (totals.rpcWallMs + call.elapsedMs)
    trueCommMs := binary64.round (totals.trueCommMs +
      max 0 (binary64.round (call.elapsedMs - chain.computeMs)))
    transportPayloadBytes :=
      (totals.transportPayloadBytes + (call.bytes + chain.transportPayloadBytes)) % 2 ^ 64 }

def aggregateGatewayOrchestratedStageResult (totals : CallTotals) (call : Call)
    (metadataJson : Bytes) : CallTotals :=
  let stageComputeMs := extractNumberField metadataJson (ascii "compute_time_ms")
  { computeMs := match stageComputeMs with
      | some compute => binary64.round (totals.computeMs + compute)
      | none => totals.computeMs
    rpcWallMs := binary64.round (totals.rpcWallMs + call.elapsedMs)
    trueCommMs := binary64.round (totals.trueCommMs +
      max 0 (binary64.round (call.elapsedMs - stageComputeMs.getD 0)))
    transportPayloadBytes := (totals.transportPayloadBytes + call.bytes) % 2 ^ 64 }

/-- The other mode counts the bytes of its calls. -/
theorem orchestrated_bytes (steps : List (Call × Bytes)) (totals : CallTotals)
    (hfits : totals.transportPayloadBytes + callBytes (steps.map Prod.fst) < 2 ^ 64) :
    (steps.foldl (fun totals step =>
      aggregateGatewayOrchestratedStageResult totals step.1 step.2) totals).transportPayloadBytes =
        totals.transportPayloadBytes + callBytes (steps.map Prod.fst) := by
  induction steps generalizing totals with
  | nil => rfl
  | cons step steps ih =>
    have hsum : callBytes ((step :: steps).map Prod.fst) =
        step.1.bytes + callBytes (steps.map Prod.fst) := List.sum_cons
    rw [hsum] at hfits ⊢
    have hadded : (aggregateGatewayOrchestratedStageResult totals step.1
        step.2).transportPayloadBytes = totals.transportPayloadBytes + step.1.bytes :=
      Nat.mod_eq_of_lt (by omega)
    rw [List.foldl_cons, ih _ (by rw [hadded]; omega), hadded, Nat.add_assoc]

end Calls

section Chains

/-- The bytes that stand for the call that the last stage does not pass on. -/
def terminalBytes (answer : StageAnswer) (request : StageRequest) (terminal : Bytes) : ℕ :=
  if metadataHasChainMetrics terminal then 0
  else request.inputTensor.bytes.length + answer.outputTensor.bytes.length

theorem terminalBytes_le (answer : StageAnswer) (request : StageRequest) (terminal : Bytes) :
    terminalBytes answer request terminal ≤
      request.inputTensor.bytes.length + answer.outputTensor.bytes.length := by
  unfold terminalBytes
  split
  · exact Nat.zero_le _
  · exact le_rfl

theorem extractU64Field_exact {key : Bytes} {pieces : List Piece} (hkey : QuotedTexts.IsName key)
    {n : ℕ} {mark : Mark} (hn : n < 2 ^ 53)
    (h : ∃ rest, behind key pieces = some (integerPiece n mark :: rest)) :
    extractU64Field overflow (piecesText pieces) key = some n := by
  have hsmall : |(n : ℤ)| ≤ 2 ^ 53 := by
    rw [abs_of_nonneg (Int.natCast_nonneg n)]
    exact_mod_cast hn.le
  rw [extractU64Field_integer overflow hkey (hn.trans (by decide)) h, binary64_integer hsmall]
  unfold toUint64
  rw [Int.floor_intCast, if_pos (by omega)]
  rfl

/-- The names under which counts of a chain are looked for. -/
def countKeys : List Bytes :=
  [ascii "transport_payload_bytes", ascii "chain_transport_payload_bytes", ascii "cpb",
    ascii "stage_count", ascii "chain_stage_count", ascii "chain_hops", ascii "csc"]

theorem countKeys_isName : ∀ name ∈ countKeys, QuotedTexts.IsName name := by decide

/-- Pieces without these names have no counts. -/
theorem counts_absent {pieces : List Piece} (h : ∀ name ∈ countKeys, behind name pieces = none) :
    (readChainMetrics overflow (piecesText pieces)).transportPayloadBytes = 0 ∧
      (readChainMetrics overflow (piecesText pieces)).stageCount = 0 := by
  have hnone : ∀ name ∈ countKeys, extractU64Field overflow (piecesText pieces) name = none := by
    intro name hname
    unfold extractU64Field
    rw [extractNumberField_none (countKeys_isName name hname) (h name hname)]
  unfold countKeys at hnone
  simp only [List.forall_mem_cons] at hnone
  obtain ⟨hbytes, hbytes', hbytes'', hcount, hcount', hcount'', hcount''', -⟩ := hnone
  unfold readChainMetrics extractU64Aliases
  simp only [List.findSome?_cons, hbytes, hbytes', hbytes'', hcount, hcount', hcount'', hcount''',
    List.findSome?_nil]
  exact ⟨rfl, rfl⟩

theorem countKeys_names : ∀ name ∈ countKeys,
    name ∈ ascii "chain_metrics" :: (readKeys ++ numberKeys) := by decide +kernel

/-- What is read of the answer of the last stage. -/
theorem terminal_read
    (hfits : request.inputTensor.bytes.length + answer.outputTensor.bytes.length < 2 ^ 53) :
    let terminal := runtimeResponseMetadataJson answer serviceName stageId request
    (extractChainMetricsFromMetadata overflow terminal).stageCount = 1 ∧
      (extractChainMetricsFromMetadata overflow terminal).transportPayloadBytes =
        terminalBytes answer request terminal := by
  intro terminal
  have htext : terminal = piecesText
      (openAnswerPieces answer serviceName stageId request ++ [lastBrace]) := by
    show piecesText _ = _
    rw [runtimeResponseMetadataPieces_eq]
  have hinput : extractU64Field overflow terminal (ascii "input_tensor_bytes") =
      some request.inputTensor.bytes.length := by
    rw [htext]
    exact extractU64Field_exact (by decide) (by omega) (answer_found ⟨_, rfl⟩)
  have houtput : extractU64Field overflow terminal (ascii "output_tensor_bytes") =
      some answer.outputTensor.bytes.length := by
    rw [htext]
    exact extractU64Field_exact (by decide) (by omega) (answer_found ⟨_, rfl⟩)
  obtain ⟨hbytes, hcount⟩ := @counts_absent overflow
    (openAnswerPieces answer serviceName stageId request ++ [lastBrace]) fun name hname =>
      (behind_append (name_absent (countKeys_names name hname)) _).trans rfl
  rw [← htext] at hbytes hcount
  unfold extractChainMetricsFromMetadata terminalBytes
  dsimp only
  cases hhas : metadataHasChainMetrics terminal with
  | true =>
    rw [if_pos rfl, if_pos rfl]
    exact ⟨if_pos hcount, hbytes⟩
  | false =>
    rw [if_neg Bool.false_ne_true, if_neg Bool.false_ne_true]
    refine ⟨rfl, ?_⟩
    show (((readChainMetrics overflow terminal).transportPayloadBytes +
      (extractU64Field overflow terminal (ascii "input_tensor_bytes")).getD 0) % 2 ^ 64 +
        (extractU64Field overflow terminal (ascii "output_tensor_bytes")).getD 0) % 2 ^ 64 = _
    rw [hbytes, hinput, houtput, Option.getD_some, Option.getD_some]
    omega

/-- Counts that are doubles are read as they were written. -/
theorem written_read {metrics : ChainMetrics} (hbytes : metrics.transportPayloadBytes < 2 ^ 53)
    (hpos : 0 < metrics.stageCount) (hstages : metrics.stageCount ≤ 2 ^ 53) :
    let text := piecesText
      (openAnswerPieces answer serviceName stageId request ++ comma :: writtenPieces metrics)
    (extractChainMetricsFromMetadata overflow text).stageCount = metrics.stageCount ∧
      (extractChainMetricsFromMetadata overflow text).transportPayloadBytes =
        metrics.transportPayloadBytes := by
  intro text
  have hexact : toUint64 overflow (binary64.round ((metrics.stageCount : ℤ) : ℚ)) =
      metrics.stageCount := by
    have hsmall : |(metrics.stageCount : ℤ)| ≤ 2 ^ 53 := by
      rw [abs_of_nonneg (Int.natCast_nonneg _)]
      exact_mod_cast hstages
    rw [binary64_integer hsmall]
    unfold toUint64
    rw [Int.floor_intCast, if_pos (by omega)]
    rfl
  have hread := @readChainMetrics_put answer serviceName stageId request metrics overflow hbytes
    (hstages.trans_lt (by decide))
  unfold extractChainMetricsFromMetadata
  dsimp only
  rw [hasChainMetrics_put, if_pos rfl, hread, hexact]
  exact ⟨if_neg hpos.ne', rfl⟩

/-- What comes back through the stages is the last answer with chain metrics. -/
theorem chainMetadata_text (stage : PassingStage) (stages : List PassingStage) :
    let terminal := runtimeResponseMetadataJson answer serviceName stageId request
    chainMetadata overflow terminal (stage :: stages) =
      piecesText (openAnswerPieces answer serviceName stageId request ++
        comma :: writtenPieces (mergeChainMetricsValues stage.metrics
          (extractChainMetricsFromMetadata overflow (chainMetadata overflow terminal stages))
          stage.call.elapsedMs stage.call.requestBytes stage.call.responseBytes)) := by
  intro terminal
  rw [chainMetadata]
  unfold mergeChainMetrics
  generalize mergeChainMetricsValues stage.metrics _ stage.call.elapsedMs _ _ = merged
  induction stages generalizing stage merged with
  | nil =>
    have hnil : chainMetadata overflow terminal [] = terminal := rfl
    rw [hnil]
    exact put_answer merged
  | cons next stages ih =>
    rw [chainMetadata]
    unfold mergeChainMetrics
    rw [ih next]
    exact put_written chainless_answer openAnswer_end _

/-- Every call has a byte. -/
theorem length_le_callBytes {stages : List PassingStage}
    (hrequests : ∀ stage ∈ stages, 0 < stage.call.requestBytes) :
    stages.length ≤ callBytes (stages.map PassingStage.call) := by
  induction stages with
  | nil => exact Nat.zero_le _
  | cons stage stages ih =>
    have hsum : callBytes ((stage :: stages).map PassingStage.call) =
        stage.call.requestBytes + stage.call.responseBytes +
          callBytes (stages.map PassingStage.call) := List.sum_cons
    have hrest := ih fun other hother => hrequests other (List.mem_cons_of_mem stage hother)
    have hpositive := hrequests stage List.mem_cons_self
    rw [hsum, List.length_cons]
    omega

/-- The metrics of a chain count its stages, and the bytes of its inner calls with
those of the last stage. -/
theorem chain_read (stages : List PassingStage)
    (hrequests : ∀ stage ∈ stages, 0 < stage.call.requestBytes)
    (hfits : callBytes (stages.map PassingStage.call) + (request.inputTensor.bytes.length +
      answer.outputTensor.bytes.length) < 2 ^ 53) :
    let terminal := runtimeResponseMetadataJson answer serviceName stageId request
    let chain := extractChainMetricsFromMetadata overflow (chainMetadata overflow terminal stages)
    chain.stageCount = stages.length + 1 ∧ chain.transportPayloadBytes =
      callBytes (stages.map PassingStage.call) + terminalBytes answer request terminal := by
  intro terminal
  have hterminal := @terminal_read overflow answer serviceName stageId request (by omega)
  have hbound := terminalBytes_le answer request terminal
  induction stages with
  | nil => exact ⟨hterminal.1, hterminal.2.trans (Nat.zero_add _).symm⟩
  | cons stage stages ih =>
    have hsum : callBytes ((stage :: stages).map PassingStage.call) =
        stage.call.bytes + callBytes (stages.map PassingStage.call) := List.sum_cons
    rw [hsum] at hfits ⊢
    have hbytes : stage.call.bytes = stage.call.requestBytes + stage.call.responseBytes := rfl
    obtain ⟨hcount, hinner⟩ := ih
      (fun other hother => hrequests other (List.mem_cons_of_mem stage hother)) (by omega)
    have hlength := length_le_callBytes
      fun other hother => hrequests other (List.mem_cons_of_mem stage hother)
    have hpositive := hrequests stage List.mem_cons_self
    dsimp only at hcount hinner ⊢
    rw [chainMetadata_text]
    set merged := mergeChainMetricsValues stage.metrics
      (extractChainMetricsFromMetadata overflow (chainMetadata overflow terminal stages))
      stage.call.elapsedMs stage.call.requestBytes stage.call.responseBytes with hmerged
    have hmergedBytes : merged.transportPayloadBytes = stage.call.bytes +
        callBytes (stages.map PassingStage.call) + terminalBytes answer request terminal := by
      rw [hmerged]
      show ((extractChainMetricsFromMetadata overflow
        (chainMetadata overflow terminal stages)).transportPayloadBytes +
          stage.call.requestBytes + stage.call.responseBytes) % 2 ^ 64 = _
      rw [hinner]
      omega
    have hmergedCount : merged.stageCount = (stage :: stages).length + 1 := by
      rw [hmerged]
      show (max 1 (extractChainMetricsFromMetadata overflow
        (chainMetadata overflow terminal stages)).stageCount + 1) % 2 ^ 64 = _
      rw [hcount, List.length_cons]
      omega
    have hread := @written_read overflow answer serviceName stageId request merged
      (by omega) (by omega) (by rw [hmergedCount, List.length_cons]; omega)
    exact ⟨hread.1.trans hmergedCount, hread.2.trans hmergedBytes⟩

/-- What the gateway should have added after one chained call: the chain has as many
stages as calls, and each byte of a call is counted once. -/
structure Accounted (overflow : ℚ → ℕ) (terminal : Bytes) (totals : CallTotals) (first : Call)
    (stages : List PassingStage) : Prop where
  stageCount : (extractChainMetricsFromMetadata overflow
    (chainMetadata overflow terminal stages)).stageCount = (stages.map PassingStage.call).length + 1
  bytes : (aggregateChainedStageResult overflow totals first
      (chainMetadata overflow terminal stages)).transportPayloadBytes =
    totals.transportPayloadBytes + callBytes (first :: stages.map PassingStage.call)

/-- What the gateway does add: the bytes of all calls, and those of the last stage. -/
theorem aggregate_bytes {totals : CallTotals} {first : Call} {stages : List PassingStage}
    (hrequests : ∀ stage ∈ stages, 0 < stage.call.requestBytes)
    (hfits : totals.transportPayloadBytes +
      callBytes (first :: stages.map PassingStage.call) + (request.inputTensor.bytes.length +
        answer.outputTensor.bytes.length) < 2 ^ 53) :
    let terminal := runtimeResponseMetadataJson answer serviceName stageId request
    (aggregateChainedStageResult overflow totals first
        (chainMetadata overflow terminal stages)).transportPayloadBytes =
      totals.transportPayloadBytes + callBytes (first :: stages.map PassingStage.call) +
        terminalBytes answer request terminal := by
  intro terminal
  have hsum : callBytes (first :: stages.map PassingStage.call) =
      first.bytes + callBytes (stages.map PassingStage.call) := List.sum_cons
  rw [hsum] at hfits ⊢
  have hbytes : (extractChainMetricsFromMetadata overflow
      (chainMetadata overflow terminal stages)).transportPayloadBytes =
        callBytes (stages.map PassingStage.call) + terminalBytes answer request terminal :=
    (chain_read stages hrequests (by omega)).2
  have hbound := terminalBytes_le answer request terminal
  show (totals.transportPayloadBytes + (first.bytes + (extractChainMetricsFromMetadata overflow
    (chainMetadata overflow terminal stages)).transportPayloadBytes)) % 2 ^ 64 = _
  rw [hbytes]
  omega

theorem terminalBytes_eq_zero_iff (answer : StageAnswer) (request : StageRequest)
    (terminal : Bytes) : terminalBytes answer request terminal = 0 ↔
      metadataHasChainMetrics terminal = true ∨
        (request.inputTensor.bytes = [] ∧ answer.outputTensor.bytes = []) := by
  unfold terminalBytes
  rw [← List.length_eq_zero_iff, ← List.length_eq_zero_iff]
  split
  · next hhas => exact ⟨fun _ => Or.inl hhas, fun _ => rfl⟩
  · next hhas =>
    rw [or_iff_right hhas]
    omega

/-- The bytes of a chained call are counted once each exactly when the last stage has
no tensor bytes, or its metadata already names chain metrics. -/
theorem accounted_iff {totals : CallTotals} {first : Call} {stages : List PassingStage}
    (hrequests : ∀ stage ∈ stages, 0 < stage.call.requestBytes)
    (hfits : totals.transportPayloadBytes +
      callBytes (first :: stages.map PassingStage.call) + (request.inputTensor.bytes.length +
        answer.outputTensor.bytes.length) < 2 ^ 53) :
    Accounted overflow (runtimeResponseMetadataJson answer serviceName stageId request) totals first
        stages ↔
      metadataHasChainMetrics
          (runtimeResponseMetadataJson answer serviceName stageId request) = true ∨
        (request.inputTensor.bytes = [] ∧ answer.outputTensor.bytes = []) := by
  have hadded := @aggregate_bytes overflow answer serviceName stageId request totals first stages
    hrequests hfits
  have hsum : callBytes (first :: stages.map PassingStage.call) =
      first.bytes + callBytes (stages.map PassingStage.call) := List.sum_cons
  rw [hsum] at hfits
  have hcount := (@chain_read overflow answer serviceName stageId request stages hrequests
    (by omega)).1
  rw [← terminalBytes_eq_zero_iff]
  constructor
  · intro h
    have hexact := h.bytes
    dsimp only at hadded
    rw [hadded] at hexact
    omega
  · intro h
    refine ⟨?_, ?_⟩
    · rw [List.length_map]
      exact hcount
    · dsimp only at hadded
      rw [hadded, h, Nat.add_zero]

/-- A chain of two stages whose last one has no tensors. -/
theorem accounted_iff_two_stages :
    Accounted (fun _ => 0) (runtimeResponseMetadataJson {} (ascii "stage-2") 2 {}) {} ⟨48, 96, 5⟩
      [⟨{}, ⟨64, 80, 3⟩⟩] :=
  (accounted_iff (fun stage hstage => by
    rw [List.mem_singleton.mp hstage]
    decide) (by decide)).mpr (Or.inr ⟨rfl, rfl⟩)

set_option maxRecDepth 100000 in
/-- No string of this answer names chain metrics. -/
theorem plain_terminal : metadataHasChainMetrics (runtimeResponseMetadataJson {} (ascii "stage-2") 2
    { inputTensor := { bytes := [1, 2, 3, 4] } }) = false := by
  decide +kernel

/-- The tensor of a last stage is counted a second time. -/
theorem terminal_tensor_counted_twice :
    ¬Accounted (fun _ => 0) (runtimeResponseMetadataJson {} (ascii "stage-2") 2
      { inputTensor := { bytes := [1, 2, 3, 4] } }) {} ⟨48, 96, 5⟩ [⟨{}, ⟨64, 80, 3⟩⟩] := by
  intro h
  have hbytes := h.bytes
  have hadded := @aggregate_bytes (fun _ => 0) {} (ascii "stage-2") 2
    { inputTensor := { bytes := [1, 2, 3, 4] } } {} ⟨48, 96, 5⟩ [⟨{}, ⟨64, 80, 3⟩⟩]
    (fun stage hstage => by
      rw [List.mem_singleton.mp hstage]
      decide) (by decide)
  have hzero := Nat.add_eq_left.mp (hadded.symm.trans hbytes)
  rcases (terminalBytes_eq_zero_iff _ _ _).mp hzero with hhas | hempty
  · rw [plain_terminal] at hhas
    cases hhas
  · cases hempty.1

end Chains

end LayerInference.ChainAccounting
