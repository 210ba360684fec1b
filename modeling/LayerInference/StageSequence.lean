import LayerInference.RunSimulation
import LayerInference.SessionMachine
import LayerInference.StagePipeline

/-!
# A pipeline call as a sequence of stages

In a deployment whose stages are listed in pipeline order, one call serves the
frame at the first stage, the frame it answers with at the second, and so on
to the last. This holds for the gateway that forwards the frames itself and
for stages that chain them, as long as no stage fails; a failure at any stage
fails the call in either mode.
-/

namespace LayerInference.StageSequence

open ByteStrings FallibleRuns RunSimulation FloatArithmetic CpuExecutor PartialRuntime
  SessionMachine PartitionRouting GenerationLoop StagePipeline

variable {F D G : Type} [FloatArith F] [FloatArith D] [Numerics F D G]

/-- Serve a frame at stage `i` and at the `k` stages behind it. -/
def serveSequence (d : Deployment F D) :
    ℕ → ℕ → RuntimeRequest D → EStateM Bytes (StageStates d.hp) RuntimeResponse
  | 0, i, request => d.serve i request
  | k + 1, i, request => do
    let response ← d.serve i request
    serveSequence d k (i + 1) (responseFrame request response).request

/-- The stages are listed in pipeline order: each but the last names the next,
the last alone owns the output matrix, none behind the first the embedding. -/
structure InPipelineOrder (d : Deployment F D) (settings : GatewaySettings D) : Prop where
  addresses : Addresses (d.routeConfig settings) d.stageAt
  several : 2 ≤ d.partitions.length
  inner : ∀ i partition, d.partitions[i]? = some partition → i + 1 < d.partitions.length →
    partition.nextStageUrl ≠ [] ∧ partition.components.lmHead = false
  last : ∀ i partition, d.partitions[i]? = some partition → i + 1 = d.partitions.length →
    partition.components.lmHead = true ∧ partition.components.embedding = false

/-- The role that ends a route. -/
def endsRoute (shard : LlamaShardMetadata) : Bool :=
  !shard.ownsEmbedding && (shard.ownsLmHead || shard.nextStageUrl.isEmpty)

/-- What an answer says about the route is decided by the role. -/
theorem satisfies_roleBody_final (rt : LlamaPartialRuntime F) (env : ForwardEnv)
    (request : RuntimeRequest D) :
    Satisfies (fun _ => True) (roleBody rt env request)
      (fun response _ => response.isFinalStage = endsRoute rt.shard) fun _ _ => True := by
  have htrue {σ α : Type} (x : EStateM Bytes σ α) :
      Satisfies (fun _ => True) x (fun _ _ => True) fun _ _ => True := by
    intro s _
    cases x s <;> trivial
  unfold roleBody endsRoute
  cases rt.shard.ownsEmbedding with
  | true => exact satisfies_bind (htrue _) fun _ => satisfies_pure fun _ _ => rfl
  | false =>
    cases rt.shard.ownsLmHead || rt.shard.nextStageUrl.isEmpty with
    | true => exact satisfies_bind (htrue _) fun _ => satisfies_pure fun _ _ => rfl
    | false => exact satisfies_bind (htrue _) fun _ => satisfies_pure fun _ _ => rfl

/-- The same, of the stage. -/
theorem serve_final {d : Deployment F D} {i : ℕ} {request : RuntimeRequest D}
    {states states' : StageStates d.hp} {response : RuntimeResponse}
    (h : d.serve i request states = .ok response states') :
    response.isFinalStage = endsRoute (d.runtime i).shard := by
  have hforward : outcome (forward (d.runtime i) (d.env i request) request (states i)) =
      .ok response := by
    rw [Deployment.serve, onPart_apply] at h
    rw [← outcome_mapState (Function.update states i), h]
    rfl
  have hsession := forward_self (d.runtime i) (d.env i request) request (states i)
  rw [← outcome_mapState fun s => s.lookup (sessionKey request), hsession] at hforward
  have hsatisfies : Satisfies (fun _ => True)
      (serveSession (d.runtime i) (d.env i request) request)
      (fun response _ => response.isFinalStage = endsRoute (d.runtime i).shard)
      fun _ _ => True := by
    refine satisfies_bind satisfies_stateless_keep fun _ => ?_
    refine satisfies_bind (Q := fun _ _ => True) (fun s _ => ?_) fun _ => ?_
    · cases openSession (d.runtime i).executor.hp (d.env i request) request s <;> trivial
    · intro stored _
      have hbody := satisfies_roleBody_final (d.runtime i) (d.env i request) request
        (stored.getD (.fresh (d.runtime i).executor.hp (d.env i request).executorEntropy)) trivial
      rw [onPart_apply]
      revert hbody
      cases roleBody (d.runtime i) (d.env i request) request _ <;> exact id
  have hresult := hsatisfies ((states i).lookup (sessionKey request)) trivial
  cases hrun : serveSession (d.runtime i) (d.env i request) request
      ((states i).lookup (sessionKey request)) with
  | ok a s =>
    rw [hrun] at hresult hforward
    cases hforward
    exact hresult
  | error message s =>
    rw [hrun] at hforward
    cases hforward

section Order

variable {d : Deployment F D} {settings : GatewaySettings D}

/-- The frame of an answer, whatever request it echoes. -/
def Answered (result : StageClientResult (StageFrame D)) (response : RuntimeResponse) : Prop :=
  ∃ request, result = ⟨200, responseFrame request response, []⟩

omit [FloatArith F] [FloatArith D] in
theorem getElem?_eq_getD {i : ℕ} (hi : i < d.partitions.length) : d.partitions[i]? = some (d.partitions.getD i noPartition) := by
  rw [List.getD_eq_getElem _ _ hi, List.getElem?_eq_getElem hi]

omit [FloatArith F] [FloatArith D] in
theorem InPipelineOrder.endsRoute_inner (horder : InPipelineOrder d settings) {i : ℕ}
    (hi : i + 1 < d.partitions.length) : endsRoute (d.runtime i).shard = false := by
  obtain ⟨hnext, hlmHead⟩ := horder.inner i _ (getElem?_eq_getD (by omega)) hi
  simp only [endsRoute, hlmHead, Bool.false_or, List.isEmpty_eq_false_iff.mpr hnext, Bool.and_false]

omit [FloatArith F] [FloatArith D] in
theorem InPipelineOrder.endsRoute_last (horder : InPipelineOrder d settings) {i : ℕ}
    (hi : i + 1 = d.partitions.length) : endsRoute (d.runtime i).shard = true := by
  obtain ⟨hlmHead, hembedding⟩ := horder.last i _ (getElem?_eq_getD (by omega)) hi
  simp only [endsRoute, hlmHead, hembedding, Bool.not_false, Bool.true_or, Bool.and_true]

omit [FloatArith F] [FloatArith D] in
/-- The URL of every partition leads to it. -/
theorem InPipelineOrder.url (horder : InPipelineOrder d settings) {i : ℕ}
    (hi : i < d.partitions.length) :
    ∃ url, stageUrlForPartition (d.routeConfig settings) i = .ok url ∧ d.stageAt url = i := by
  refine stageUrlForPartition_at horder.addresses hi fun j previous hij hprevious => ?_
  exact (horder.inner j previous hprevious (by omega)).1

/-- Without chaining a stage answers with its own frame, or with an error. -/
theorem handleForwardBinary_unchained (d : Deployment F D) (fuel i : ℕ) {frame : StageFrame D}
    (hchaining : frame.request.nativeStageChainingEnabled = false) (states : StageStates d.hp) :
    handleForwardBinary d fuel i frame states =
      match d.serve i frame.request states with
      | .ok response states => .ok ⟨200, responseFrame frame.request response, []⟩ states
      | .error message states => .ok (errorResult 400 message) states := by
  unfold handleForwardBinary
  cases d.serve i frame.request states with
  | ok response states =>
    simp only [hchaining, Bool.false_and, Bool.false_eq_true, if_false]
  | error message states => rfl

/-- The gateway forwards the frames of the sequence. -/
theorem InPipelineOrder.simulates_orchestrate (horder : InPipelineOrder d settings) (k : ℕ) {i : ℕ}
    (hi : i + k + 1 = d.partitions.length) {frame : StageFrame D}
    (hchaining : frame.request.nativeStageChainingEnabled = false) :
    Simulates Eq
      (orchestrate (d.routeConfig settings) d.client i (d.partitions.drop i) frame)
      (serveSequence d k i frame.request) Answered Eq fun _ _ => True := by
  rintro states _ rfl
  induction k generalizing i frame states with
  | zero =>
    have hlt : i < d.partitions.length := by omega
    obtain ⟨url, hurl, hat⟩ := horder.url hlt
    have hterminal : isTerminalPartition d.partitions[i] = true := by
      rw [isTerminalPartition, (horder.last i _ (List.getElem?_eq_getElem hlt) (by omega)).1,
        Bool.or_true]
    rw [List.drop_eq_getElem_cons hlt, orchestrate, hurl, stateless_ok_bind, bind_apply,
      Deployment.client, hat, handleForwardBinary_unchained d _ _ hchaining, serveSequence]
    cases d.serve i frame.request states with
    | ok response states' =>
      simp only [isSuccess_answered, not_true_eq_false, if_false, hterminal, if_true]
      exact ⟨⟨frame.request, rfl⟩, rfl⟩
    | error message states' =>
      simp only [errorResult, not_isSuccess_refused, not_false_eq_true]
      trivial
  | succ k ih =>
    have hlt : i < d.partitions.length := by omega
    obtain ⟨url, hurl, hat⟩ := horder.url hlt
    obtain ⟨hnext, hlmHead⟩ := horder.inner i _ (List.getElem?_eq_getElem hlt) (by omega)
    have hterminal : isTerminalPartition d.partitions[i] = false := by
      rw [isTerminalPartition, hlmHead, Bool.or_false, List.isEmpty_eq_false_iff]
      exact hnext
    rw [List.drop_eq_getElem_cons hlt, orchestrate, hurl, stateless_ok_bind, bind_apply,
      Deployment.client, hat, handleForwardBinary_unchained d _ _ hchaining, serveSequence,
      bind_apply]
    cases d.serve i frame.request states with
    | ok response states' =>
      simp only [isSuccess_answered, not_true_eq_false, if_false, hterminal, Bool.false_eq_true]
      have hnextChaining :
          (responseFrame frame.request response).request.nativeStageChainingEnabled = false :=
        hchaining
      exact ih (by omega) hnextChaining states'
    | error message states' =>
      simp only [errorResult, not_isSuccess_refused, not_false_eq_true]
      trivial

/-- What a chaining stage makes of the rest of the sequence: an answer, or a
status that is not success. -/
def ChainAnswer {σ : Type} (result : EStateM.Result Bytes σ (StageClientResult (StageFrame D)))
    (rest : EStateM.Result Bytes σ RuntimeResponse) : Prop :=
  match rest with
  | .ok response states =>
    ∃ request, result = .ok ⟨200, responseFrame request response, []⟩ states
  | .error _ _ => ∃ answer states, result = .ok answer states ∧ ¬isSuccess answer.httpStatus

/-- The stages hand the frames of the sequence on by themselves. -/
theorem InPipelineOrder.handleForwardBinary_chained (horder : InPipelineOrder d settings) (k : ℕ)
    {i : ℕ} (hi : i + k + 1 = d.partitions.length) {fuel : ℕ} (hfuel : k ≤ fuel)
    {frame : StageFrame D} (hchaining : frame.request.nativeStageChainingEnabled = true)
    (states : StageStates d.hp) :
    ChainAnswer (handleForwardBinary d fuel i frame states)
      (serveSequence d k i frame.request states) := by
  induction k generalizing i fuel frame states with
  | zero =>
    rw [serveSequence]
    unfold handleForwardBinary
    cases hserve : d.serve i frame.request states with
    | ok response states' =>
      have hfinal := serve_final hserve
      rw [horder.endsRoute_last (by omega)] at hfinal
      simp only [hfinal, Bool.not_true, Bool.and_false, Bool.false_and, Bool.false_eq_true,
        if_false]
      exact ⟨frame.request, rfl⟩
    | error message states' => exact ⟨errorResult 400 message, _, rfl, not_isSuccess_refused⟩
  | succ k ih =>
    obtain ⟨fuel, rfl⟩ : ∃ n, fuel = n + 1 := ⟨fuel - 1, by omega⟩
    rw [serveSequence, bind_apply, handleForwardBinary]
    cases hserve : d.serve i frame.request states with
    | error message states' =>
      exact ⟨errorResult 400 message, states', by simp only [hserve], not_isSuccess_refused⟩
    | ok response states' =>
      have hget := getElem?_eq_getD (show i < d.partitions.length by omega)
      have hfinal := serve_final hserve
      rw [horder.endsRoute_inner (by omega)] at hfinal
      have hnext := (horder.inner i _ hget (by omega)).1
      have hat : d.stageAt (d.partitions.getD i noPartition).nextStageUrl = i + 1 :=
        horder.addresses.next i _ hget (show i + 1 < d.partitions.length by omega) hnext
      have hrest : ChainAnswer
          (handleForwardBinary d fuel (i + 1) (responseFrame frame.request response) states')
          (serveSequence d k (i + 1) (responseFrame frame.request response).request states') := by
        have hnextChaining :
            (responseFrame frame.request response).request.nativeStageChainingEnabled = true :=
          hchaining
        exact ih (by omega) (by omega) hnextChaining states'
      simp only [hserve, hchaining, hfinal, List.isEmpty_eq_false_iff.mpr hnext, Bool.not_false,
        Bool.and_self, if_true, hat]
      cases hseq : serveSequence d k (i + 1) (responseFrame frame.request response).request states' with
      | ok last states'' =>
        rw [hseq] at hrest
        obtain ⟨request, hrun⟩ := hrest
        rw [hrun]
        exact ⟨request, by simp only [isSuccess_answered, not_true_eq_false, if_false]⟩
      | error message states'' =>
        rw [hseq] at hrest
        obtain ⟨answer, final, hrun, hstatus⟩ := hrest
        rw [hrun]
        simp only [hstatus, not_false_eq_true, if_true]
        exact ⟨_, _, rfl, not_isSuccess_downstream⟩

/-- A pipeline call is the sequence of all stages, in both modes. -/
theorem InPipelineOrder.simulates_call (horder : InPipelineOrder d settings) (requestId : Bytes)
    (call : PipelineCall) :
    Simulates Eq ((d.pipeline settings requestId).call call)
      (serveSequence d (d.partitions.length - 1) 0 (gatewayFrame settings requestId call).request)
      Answered Eq fun _ _ => True := by
  have hseveral := horder.several
  have hlength : 0 + (d.partitions.length - 1) + 1 = d.partitions.length := by omega
  have hnonempty : (d.routeConfig settings).partitions.isEmpty = false := by
    rw [List.isEmpty_eq_false_iff, ← List.length_pos_iff]
    exact show 0 < d.partitions.length by omega
  change Simulates Eq (forwardThroughPartitionGraph (d.routeConfig settings) d.client
    (gatewayFrame settings requestId call)) _ _ _ _
  rw [forwardThroughPartitionGraph, hnonempty]
  cases hchaining : settings.nativeStageChainingEnabled with
  | false =>
    have hroute := horder.simulates_orchestrate (d.partitions.length - 1) (i := 0) hlength
      (show (gatewayFrame settings requestId call).request.nativeStageChainingEnabled = false
        from hchaining)
    simpa only [Deployment.routeConfig, hchaining, List.drop_zero, Bool.false_eq_true, if_false]
      using hroute
  | true =>
    have hfirst : d.stageAt settings.firstStageUrl = 0 := horder.addresses.first
    simp only [Deployment.routeConfig, hchaining, Bool.false_eq_true, if_false, if_true]
    rintro states _ rfl
    have hchain := horder.handleForwardBinary_chained (d.partitions.length - 1) (i := 0) hlength
      (show d.partitions.length - 1 ≤ d.partitions.length by omega)
      (show (gatewayFrame settings requestId call).request.nativeStageChainingEnabled = true
        from hchaining) states
    rw [forwardChained, bind_apply, Deployment.client, hfirst]
    cases hseq : serveSequence d (d.partitions.length - 1) 0
        (gatewayFrame settings requestId call).request states with
    | ok response states' =>
      rw [hseq] at hchain
      obtain ⟨request, hrun⟩ := hchain
      rw [hrun]
      simp only [isSuccess_answered, not_true_eq_false, if_false]
      exact ⟨⟨request, rfl⟩, rfl⟩
    | error message states' =>
      rw [hseq] at hchain
      obtain ⟨answer, final, hrun, hstatus⟩ := hchain
      rw [hrun]
      simp only [hstatus, not_false_eq_true, if_true]
      trivial

end Order

end LayerInference.StageSequence
