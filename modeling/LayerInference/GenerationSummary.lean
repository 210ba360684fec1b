import LayerInference.GroupedFolds
import LayerInference.LayerRanges
import Mathlib.Algebra.BigOperators.Group.List.Basic
import Mathlib.Data.List.GetD
import Mathlib.Data.List.Sort
import Mathlib.Data.Rat.Floor
import Mathlib.Tactic.Linarith

/-!
# The summary of a generation

Every stage adds a metric of its own to the list that travels along the chain,
and completes it when the answer of the next stage is back. The gateway adds one
for its own call, and at the end it groups the metrics of all tokens by stage
and sums them up. The summary counts every request that was posted, and every
time that was measured, exactly once. Numbers are exact here.
-/

namespace LayerInference.GenerationSummary

open GroupedFolds LayerRanges

section Metrics

structure NetworkDelta where
  bytesSent : Option ℤ := none
  bytesRecv : Option ℤ := none
  bytesTotal : Option ℤ := none

/-- The keys of a metric that the summary reads. -/
structure StageMetric where
  serviceName : Option Text := none
  stageId : Option ℕ := none
  computeTimeMs : Option ℚ := none
  transferTimeMs : Option ℚ := none
  rpcWallTimeMs : Option ℚ := none
  trueCommMs : Option ℚ := none
  outboundPayloadB64Bytes : Option ℤ := none
  outboundPayloadBytes : Option ℤ := none
  networkDelta : Option NetworkDelta := none
  processMemoryMb : Option ℚ := none
  processCpuPercent : Option ℚ := none
  cpuPercent : Option ℚ := none
  stage4NormMs : Option ℚ := none
  stage4LmHeadMs : Option ℚ := none
  stage4SelectMs : Option ℚ := none

/-- What a process measures of itself. -/
structure ProcessSample where
  processMemoryMb : ℚ
  processCpuPercent : ℚ
  bytesSent : ℤ
  bytesRecv : ℤ

def makeStageMetric (sample : ProcessSample) (serviceName : Text) (stageId : Option ℕ)
    (computeTimeMs transferTimeMs : ℚ) (rpcWallTimeMs : Option ℚ) (trueCommMs : ℚ) :
    StageMetric where
  serviceName := some serviceName
  stageId := stageId
  computeTimeMs := some computeTimeMs
  transferTimeMs := some transferTimeMs
  rpcWallTimeMs := some (rpcWallTimeMs.getD transferTimeMs)
  trueCommMs := some trueCommMs
  networkDelta := some
    { bytesSent := some sample.bytesSent
      bytesRecv := some sample.bytesRecv
      bytesTotal := some (sample.bytesSent + sample.bytesRecv) }
  processMemoryMb := some sample.processMemoryMb
  processCpuPercent := some sample.processCpuPercent
  cpuPercent := some sample.processCpuPercent

end Metrics

section Chain

/-- What the sender of a request measures. -/
structure Hop where
  httpRoundtripMs : ℚ
  remoteServerWallMs : ℚ
  precisionCastMs : ℚ
  encodeMs : ℚ
  packMs : ℚ
  compressionMs : ℚ
  unpackMs : ℚ
  requestPayloadBytes : ℕ
  responsePayloadBytes : ℕ

def Hop.rpcResidualMs (hop : Hop) : ℚ := max 0 (hop.httpRoundtripMs - hop.remoteServerWallMs)

/-- Decoding and decompression of an answer are not measured. -/
def Hop.trueCommMs (hop : Hop) : ℚ :=
  hop.precisionCastMs + hop.encodeMs + hop.packMs + hop.compressionMs + hop.rpcResidualMs +
    hop.unpackMs

/-- A stage serving a frame. -/
structure StageRun where
  serviceName : Text
  stageId : ℕ
  sample : ProcessSample
  computeTimeMs : ℚ
  inboundTrueCommMs : ℚ

/-- The last stage, which also selects the token. -/
structure FinalRun extends StageRun where
  finalizeSample : ProcessSample
  finalizeTimeMs : ℚ
  normTimeMs : ℚ
  lmHeadTimeMs : ℚ
  selectTimeMs : ℚ

def StageRun.localMetric (run : StageRun) : StageMetric :=
  makeStageMetric run.sample run.serviceName (some run.stageId) run.computeTimeMs 0 none
    run.inboundTrueCommMs

def FinalRun.finalMetric (run : FinalRun) : StageMetric :=
  { makeStageMetric run.finalizeSample run.serviceName (some run.stageId) run.finalizeTimeMs 0
      none 0 with
    stage4NormMs := some run.normTimeMs
    stage4LmHeadMs := some run.lmHeadTimeMs
    stage4SelectMs := some run.selectTimeMs }

/-- What a stage writes into its metric when the answer is back. -/
def recordHop (hop : Hop) (metric : StageMetric) : StageMetric :=
  { metric with
    transferTimeMs := some hop.httpRoundtripMs
    rpcWallTimeMs := some hop.httpRoundtripMs
    trueCommMs := some hop.trueCommMs
    outboundPayloadB64Bytes := some hop.requestPayloadBytes
    outboundPayloadBytes := some hop.requestPayloadBytes }

/-- One token of a generation. -/
structure TokenRun where
  stages : List (StageRun × Hop)
  final : FinalRun
  gatewaySample : ProcessSample
  gatewayHop : Hop
  latencyMs : ℚ

/-- The metric of the gateway. Without traffic of its process it counts the bytes
of the call. -/
def gatewayMetric (sample : ProcessSample) (hop : Hop) : StageMetric :=
  let metric := makeStageMetric sample "inference-gateway".toList (some 0) 0 hop.httpRoundtripMs
    (some hop.httpRoundtripMs) hop.trueCommMs
  let metric :=
    { metric with
      outboundPayloadB64Bytes := some hop.requestPayloadBytes
      outboundPayloadBytes := some hop.requestPayloadBytes }
  if sample.bytesSent + sample.bytesRecv ≤ 0 then
    { metric with networkDelta := some ⟨some hop.requestPayloadBytes,
        some hop.responsePayloadBytes,
        some (hop.requestPayloadBytes + hop.responsePayloadBytes)⟩ }
  else metric

end Chain

section Summary

def stageKey (metric : StageMetric) : Text :=
  match metric.stageId with
  | none | some 0 => metric.serviceName.getD "unknown".toList
  | some id => "stage_".toList ++ (toString id).toList

structure StageBucket where
  serviceName : Text
  stageId : Option ℕ
  samples : ℕ := 0
  computeTimeMsSum : ℚ := 0
  rpcWallTimeMsSum : ℚ := 0
  trueCommMsSum : ℚ := 0
  transferTimeMsSum : ℚ := 0
  payloadB64BytesSum : ℤ := 0
  payloadBytesSum : ℤ := 0
  networkDeltaBytesSum : ℤ := 0
  maxProcessMemoryMb : ℚ := 0
  maxCpuPercent : ℚ := 0
  stage4NormMsSum : ℚ := 0
  stage4LmHeadMsSum : ℚ := 0
  stage4SelectMsSum : ℚ := 0

def StageMetric.computeTime (metric : StageMetric) : ℚ := metric.computeTimeMs.getD 0

def StageMetric.rpcWallTime (metric : StageMetric) : ℚ :=
  metric.rpcWallTimeMs.getD (metric.transferTimeMs.getD 0)

def StageMetric.trueCommTime (metric : StageMetric) : ℚ := metric.trueCommMs.getD 0

def StageMetric.payloadB64Bytes (metric : StageMetric) : ℤ :=
  metric.outboundPayloadB64Bytes.getD 0

def StageMetric.payloadBytes (metric : StageMetric) : ℤ :=
  metric.outboundPayloadBytes.getD metric.payloadB64Bytes

def StageMetric.networkDeltaBytes (metric : StageMetric) : ℤ :=
  let delta := metric.networkDelta.getD {}
  delta.bytesTotal.getD (delta.bytesSent.getD 0 + delta.bytesRecv.getD 0)

def StageMetric.memory (metric : StageMetric) : ℚ := metric.processMemoryMb.getD 0

def StageMetric.cpu (metric : StageMetric) : ℚ :=
  metric.processCpuPercent.getD (metric.cpuPercent.getD 0)

def emptyBucket (metric : StageMetric) : StageBucket where
  serviceName := metric.serviceName.getD "unknown".toList
  stageId := metric.stageId

def StageBucket.add (bucket : StageBucket) (metric : StageMetric) : StageBucket :=
  { bucket with
    samples := bucket.samples + 1
    computeTimeMsSum := bucket.computeTimeMsSum + metric.computeTime
    rpcWallTimeMsSum := bucket.rpcWallTimeMsSum + metric.rpcWallTime
    trueCommMsSum := bucket.trueCommMsSum + metric.trueCommTime
    transferTimeMsSum := bucket.transferTimeMsSum + metric.rpcWallTime
    payloadB64BytesSum := bucket.payloadB64BytesSum + metric.payloadB64Bytes
    payloadBytesSum := bucket.payloadBytesSum + metric.payloadBytes
    networkDeltaBytesSum := bucket.networkDeltaBytesSum + metric.networkDeltaBytes
    maxProcessMemoryMb := max bucket.maxProcessMemoryMb metric.memory
    maxCpuPercent := max bucket.maxCpuPercent metric.cpu
    stage4NormMsSum := bucket.stage4NormMsSum + metric.stage4NormMs.getD 0
    stage4LmHeadMsSum := bucket.stage4LmHeadMsSum + metric.stage4LmHeadMs.getD 0
    stage4SelectMsSum := bucket.stage4SelectMsSum + metric.stage4SelectMs.getD 0 }

/-- The variables of the loop. -/
structure SummaryState where
  perStage : List (Text × StageBucket) := []
  totalComputeMs : ℚ := 0
  totalRpcWallMs : ℚ := 0
  totalTrueCommMs : ℚ := 0
  totalPayloadB64Bytes : ℤ := 0
  totalPayloadBytes : ℤ := 0
  totalNetworkDeltaBytes : ℤ := 0
  maxProcessMemoryMb : ℚ := 0

def SummaryState.add (state : SummaryState) (metric : StageMetric) : SummaryState where
  perStage := insertItem stageKey emptyBucket StageBucket.add state.perStage metric
  totalComputeMs := state.totalComputeMs + metric.computeTime
  totalRpcWallMs := state.totalRpcWallMs + metric.rpcWallTime
  totalTrueCommMs := state.totalTrueCommMs + metric.trueCommTime
  totalPayloadB64Bytes := state.totalPayloadB64Bytes + metric.payloadB64Bytes
  totalPayloadBytes := state.totalPayloadBytes + metric.payloadBytes
  totalNetworkDeltaBytes := state.totalNetworkDeltaBytes + metric.networkDeltaBytes
  maxProcessMemoryMb := max state.maxProcessMemoryMb metric.memory

/-- The summary without its copies in mebibytes and what it repeats of the request. -/
structure SummaryMetrics extends SummaryState where
  generatedTokenCount : ℕ
  rpcComputeRatio : ℚ
  trueCommComputeRatio : ℚ
  stage4ComputeTimeMsSum : ℚ
  stage4ComputeTimeMsPerToken : ℚ
  stage4NormMsSum : ℚ
  stage4LmHeadMsSum : ℚ
  stage4SelectMsSum : ℚ
  tokenLatencyMsP50 : ℚ
  tokenLatencyMsP95 : ℚ
  tokenLatencyMsP99 : ℚ

end Summary

section Chains

/-- The metrics of one token. -/
def TokenRun.metrics (run : TokenRun) : List StageMetric :=
  (run.stages.map fun stage => recordHop stage.2 stage.1.localMetric) ++
    [run.final.localMetric, run.final.finalMetric, gatewayMetric run.gatewaySample run.gatewayHop]

end Chains

section Buckets

/-- A bucket holds the aggregates of some metrics. -/
structure Aggregates (bucket : StageBucket) (metrics : List StageMetric) : Prop where
  samples : bucket.samples = metrics.length
  computeTime : bucket.computeTimeMsSum = (metrics.map StageMetric.computeTime).sum
  rpcWallTime : bucket.rpcWallTimeMsSum = (metrics.map StageMetric.rpcWallTime).sum
  trueCommTime : bucket.trueCommMsSum = (metrics.map StageMetric.trueCommTime).sum
  transferTime : bucket.transferTimeMsSum = (metrics.map StageMetric.rpcWallTime).sum
  payloadB64Bytes : bucket.payloadB64BytesSum = (metrics.map StageMetric.payloadB64Bytes).sum
  payloadBytes : bucket.payloadBytesSum = (metrics.map StageMetric.payloadBytes).sum
  networkDeltaBytes :
    bucket.networkDeltaBytesSum = (metrics.map StageMetric.networkDeltaBytes).sum
  memory : bucket.maxProcessMemoryMb = (metrics.map StageMetric.memory).foldl max 0
  cpu : bucket.maxCpuPercent = (metrics.map StageMetric.cpu).foldl max 0
  norm : bucket.stage4NormMsSum = (metrics.map fun m => m.stage4NormMs.getD 0).sum
  lmHead : bucket.stage4LmHeadMsSum = (metrics.map fun m => m.stage4LmHeadMs.getD 0).sum
  select : bucket.stage4SelectMsSum = (metrics.map fun m => m.stage4SelectMs.getD 0).sum

theorem sum_snoc {γ : Type} [AddMonoid γ] {total : γ} {metrics : List StageMetric}
    {f : StageMetric → γ} (h : total = (metrics.map f).sum) (metric : StageMetric) :
    total + f metric = ((metrics ++ [metric]).map f).sum := by
  rw [List.map_append, List.sum_append, List.map_singleton, List.sum_singleton, h]

theorem max_snoc {total : ℚ} {metrics : List StageMetric} {f : StageMetric → ℚ}
    (h : total = (metrics.map f).foldl max 0) (metric : StageMetric) :
    max total (f metric) = ((metrics ++ [metric]).map f).foldl max 0 := by
  rw [List.map_append, List.foldl_append, h]
  rfl

theorem Aggregates.add {bucket : StageBucket} {metrics : List StageMetric}
    (h : Aggregates bucket metrics) (metric : StageMetric) :
    Aggregates (bucket.add metric) (metrics ++ [metric]) where
  samples := by rw [List.length_append, ← h.samples]; rfl
  computeTime := sum_snoc h.computeTime metric
  rpcWallTime := sum_snoc h.rpcWallTime metric
  trueCommTime := sum_snoc h.trueCommTime metric
  transferTime := sum_snoc h.transferTime metric
  payloadB64Bytes := sum_snoc h.payloadB64Bytes metric
  payloadBytes := sum_snoc h.payloadBytes metric
  networkDeltaBytes := sum_snoc h.networkDeltaBytes metric
  memory := max_snoc h.memory metric
  cpu := max_snoc h.cpu metric
  norm := sum_snoc h.norm metric
  lmHead := sum_snoc h.lmHead metric
  select := sum_snoc h.select metric

theorem aggregates_emptyBucket (metric : StageMetric) : Aggregates (emptyBucket metric) [] :=
  ⟨rfl, rfl, rfl, rfl, rfl, rfl, rfl, rfl, rfl, rfl, rfl, rfl, rfl⟩

/-- A bucket that was begun for a metric and took some in. -/
theorem aggregates_foldl (first : StageMetric) (metrics : List StageMetric) :
    Aggregates (metrics.foldl StageBucket.add (emptyBucket first)) metrics := by
  induction metrics using List.reverseRecOn with
  | nil => exact aggregates_emptyBucket first
  | append_singleton metrics metric ih =>
    rw [List.foldl_append]
    exact ih.add metric

/-- What the loop has summed up over all metrics. -/
structure Totals (state : SummaryState) (metrics : List StageMetric) : Prop where
  perStage : state.perStage = grouped stageKey emptyBucket StageBucket.add metrics
  computeTime : state.totalComputeMs = (metrics.map StageMetric.computeTime).sum
  rpcWallTime : state.totalRpcWallMs = (metrics.map StageMetric.rpcWallTime).sum
  trueCommTime : state.totalTrueCommMs = (metrics.map StageMetric.trueCommTime).sum
  payloadB64Bytes : state.totalPayloadB64Bytes = (metrics.map StageMetric.payloadB64Bytes).sum
  payloadBytes : state.totalPayloadBytes = (metrics.map StageMetric.payloadBytes).sum
  networkDeltaBytes :
    state.totalNetworkDeltaBytes = (metrics.map StageMetric.networkDeltaBytes).sum
  memory : state.maxProcessMemoryMb = (metrics.map StageMetric.memory).foldl max 0

variable {state : SummaryState} {metrics : List StageMetric}

/-- The bucket of a key aggregates the metrics with this key. -/
theorem Totals.bucket (h : Totals state metrics) {key : Text}
    (hkey : ∃ metric ∈ metrics, stageKey metric = key) :
    ∃ bucket, groupOf state.perStage key = some bucket ∧
      Aggregates bucket (metrics.filter fun metric => decide (stageKey metric = key)) := by
  obtain ⟨metric, hmem, hmetric⟩ := hkey
  have hfilter : metric ∈ metrics.filter fun metric => decide (stageKey metric = key) :=
    List.mem_filter.mpr ⟨hmem, decide_eq_true hmetric⟩
  rw [h.perStage, groupOf_grouped]
  obtain ⟨first, rest, hcons⟩ := List.exists_cons_of_ne_nil (List.ne_nil_of_mem hfilter)
  rw [hcons]
  exact ⟨_, rfl, aggregates_foldl first (first :: rest)⟩

end Buckets

section Percentiles

variable {ordered : List ℚ} {rank : ℚ}

end Percentiles

section Latencies

variable {values : List ℚ} {percent : ℚ}

/-- The values in their order. -/
def sorted (values : List ℚ) : List ℚ := values.insertionSort (· ≤ ·)

end Latencies

section Accounts

/-- The bytes of the requests that were posted for a token. -/
def TokenRun.requestBytes (run : TokenRun) : ℤ :=
  (run.stages.map fun stage => (stage.2.requestPayloadBytes : ℤ)).sum +
    run.gatewayHop.requestPayloadBytes

/-- The round trips of these requests. -/
def TokenRun.roundtripMs (run : TokenRun) : ℚ :=
  (run.stages.map fun stage => stage.2.httpRoundtripMs).sum + run.gatewayHop.httpRoundtripMs

/-- What the stages computed for a token. -/
def TokenRun.computeMs (run : TokenRun) : ℚ :=
  (run.stages.map fun stage => stage.1.computeTimeMs).sum +
    (run.final.computeTimeMs + run.final.finalizeTimeMs)

/-- The communication of a token. A stage that posts on replaces what it measured
of the frame that came in. -/
def TokenRun.commMs (run : TokenRun) : ℚ :=
  (run.stages.map fun stage => stage.2.trueCommMs).sum +
    (run.final.inboundTrueCommMs + run.gatewayHop.trueCommMs)

end Accounts

section Routes

/-- The key of a stage. -/
def keyOf (stageId : ℕ) : Text := "stage_".toList ++ (toString stageId).toList

theorem stageKey_eq {metric : StageMetric} {stageId : ℕ} (h : metric.stageId = some stageId)
    (hpositive : stageId ≠ 0) : stageKey metric = keyOf stageId := by
  unfold stageKey
  rw [h]
  cases stageId with
  | zero => exact absurd rfl hpositive
  | succ n => rfl

/-- All tokens take the same way over stages with ids of their own. -/
structure OnRoute (runs : List TokenRun) (route : List ℕ) (last : ℕ) : Prop where
  stages : ∀ run ∈ runs, run.stages.map (fun stage => stage.1.stageId) = route
  final : ∀ run ∈ runs, run.final.stageId = last
  distinct : (last :: route).Nodup
  positive : ∀ stageId ∈ last :: route, stageId ≠ 0

/-- The metrics of a token under the key of one of its stages. -/
def TokenRun.metricsAt (run : TokenRun) (i : ℕ) : List StageMetric :=
  match run.stages[i]? with
  | some (stage, hop) => [recordHop hop stage.localMetric]
  | none => [run.final.localMetric, run.final.finalMetric]

variable {runs : List TokenRun} {route : List ℕ} {last : ℕ}

/-- The metrics of the stages that post requests. -/
def TokenRun.hopMetrics (run : TokenRun) : List StageMetric :=
  run.stages.map fun stage => recordHop stage.2 stage.1.localMetric

theorem OnRoute.keys (h : OnRoute runs route last) {run : TokenRun} (hrun : run ∈ runs) :
    run.hopMetrics.map stageKey = route.map keyOf := by
  rw [← h.stages run hrun, TokenRun.hopMetrics, List.map_map, List.map_map]
  refine List.map_congr_left fun stage hstage => ?_
  refine stageKey_eq rfl (h.positive _ (List.mem_cons_of_mem last ?_))
  rw [← h.stages run hrun]
  exact List.mem_map_of_mem hstage

/-- What a summary says about the tokens of a generation. -/
structure Accounts (summary : SummaryMetrics) (runs : List TokenRun) (route : List ℕ)
    (last : ℕ) : Prop where
  buckets : ∀ i stageId, (route ++ [last])[i]? = some stageId → ∃ bucket,
    groupOf summary.perStage (keyOf stageId) = some bucket ∧
      Aggregates bucket (runs.flatMap fun run => run.metricsAt i)
  payloadBytes : summary.totalPayloadBytes = (runs.map TokenRun.requestBytes).sum
  bucketBytes : (summary.perStage.map fun entry => entry.2.payloadBytesSum).sum =
    summary.totalPayloadBytes
  rpcWallMs : summary.totalRpcWallMs = (runs.map TokenRun.roundtripMs).sum
  bucketRpcWallMs : (summary.perStage.map fun entry => entry.2.rpcWallTimeMsSum).sum =
    summary.totalRpcWallMs
  trueCommMs : summary.totalTrueCommMs = (runs.map TokenRun.commMs).sum
  bucketTrueCommMs : (summary.perStage.map fun entry => entry.2.trueCommMsSum).sum =
    summary.totalTrueCommMs
  computeMs : summary.totalComputeMs = (runs.map TokenRun.computeMs).sum
  bucketComputeMs : (summary.perStage.map fun entry => entry.2.computeTimeMsSum).sum =
    summary.totalComputeMs
  median : ∃ run ∈ runs, run.latencyMs ≤ summary.tokenLatencyMsP50
  percentiles : summary.tokenLatencyMsP50 ≤ summary.tokenLatencyMsP95 ∧
    summary.tokenLatencyMsP95 ≤ summary.tokenLatencyMsP99
  tail : ∃ run ∈ runs, summary.tokenLatencyMsP99 ≤ run.latencyMs

end Routes

end LayerInference.GenerationSummary
