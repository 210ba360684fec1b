import LayerInference.StageCounts
import LayerInference.StageSplits

/-!
# Generation does not depend on the split

Greedy generation over any split into at least two stages returns what the
whole model returns in one process, so every two splits of one model generate
the same tokens. The gateway may forward the frames itself or let the stages
chain them, and the stages may hold sessions of other requests at the start.
-/

namespace LayerInference.SplitInvariance

open ByteStrings FallibleRuns RunSimulation FloatArithmetic FrameProtocol TensorAbi CpuExecutor
  PartitionExecution PartialRuntime PartitionRouting FrameTensors GenerationLoop StagePipeline
  StageSequence WholeModel StageSplits ZeroModel StageCounts

variable {F D G : Type} [FloatArith F] [FloatArith D] [Numerics F D G]

section Generations

variable {d : Deployment F D} {w : ModelWeights F} {settings : GatewaySettings D}

/-- The answer that ends a route carries the token of the whole model. -/
theorem sameToken_of_answered {requestId : Bytes} {result : StageClientResult (StageFrame D)}
    {response : RuntimeResponse} {token : ℕ} (hanswered : Answered result response)
    (htoken : response.nextTokenId = token) :
    SameToken (d.pipeline settings requestId) (wholePipeline D w d.hp) result token := by
  obtain ⟨request, rfl⟩ := hanswered
  refine .inl ⟨token, ?_, rfl⟩
  have hnonneg : ¬(token : ℤ) < 0 := not_lt.mpr (Int.natCast_nonneg token)
  simp only [Deployment.pipeline, nextTokenIdFromTerminalResponse, responseFrame, htoken, hnonneg,
    if_false]

/-- A pipeline call agrees with a step of the whole model. -/
theorem callsAgree_whole (hsplit : Splits d w) (horder : InPipelineOrder d settings)
    (hprecision : ¬IsHalf settings.activationPrecision)
    (hgreedy : FloatArith.lt 0 settings.temperature = false) (requestId : Bytes)
    (call : PipelineCall) :
    CallsAgree (d.pipeline settings requestId) (wholePipeline D w d.hp) call
      (fun states stored => resetsSession (wholeRequest D call) = false →
        Synced d (sessionKey (gatewayFrame settings requestId call).request) states stored)
      (Synced d (sessionKey (gatewayFrame settings requestId call).request)) := by
  refine simulates_weaken (simulates_trans (horder.simulates_call requestId call)
    (hsplit.simulates_wholeCall horder hprecision hgreedy requestId call)) ?_ ?_ ?_ ?_
  · exact fun states stored hsynced => ⟨states, rfl, hsynced⟩
  · rintro result token ⟨response, hanswered, htoken⟩
    exact sameToken_of_answered hanswered htoken
  · rintro states stored ⟨_, rfl, hsynced⟩
    exact hsynced
  · exact fun _ _ _ => trivial

/-- A split generates what the whole model generates. -/
theorem generate_whole (hsplit : Splits d w) (horder : InPipelineOrder d settings)
    (hprecision : ¬IsHalf settings.activationPrecision)
    (hgreedy : FloatArith.lt 0 settings.temperature = false) (tokenizer : Tokenizer)
    (requestId prompt : Bytes) (maxNewTokens : ℤ) (start : StageStates d.hp) :
    { (d.generate settings tokenizer requestId prompt maxNewTokens start).result with
        error := [] } =
      { (runStubGeneration settings.loop tokenizer (wholePipeline D w d.hp) requestId prompt
          maxNewTokens none).result with error := [] } := by
  refine runStubGeneration_agree (Q := fun _ _ => True)
    (R := Synced d (sessionKey (gatewayFrame settings requestId ⟨0, [], []⟩).request)) ?_ ?_
    requestId maxNewTokens trivial
  · intro tokens _
    refine simulates_weaken (callsAgree_whole hsplit horder hprecision hgreedy requestId _)
      ?_ (fun _ _ h => h) (fun _ _ h => h) fun _ _ h => h
    intro states stored _ hreset
    cases hreset
  · intro i token hi
    refine simulates_weaken (callsAgree_whole hsplit horder hprecision hgreedy requestId _)
      ?_ (fun _ _ h => h) (fun _ _ h => h) fun _ _ h => h
    exact fun states stored hsynced _ => hsynced

end Generations

/-- Every two splits of one model generate the same, except for the text of
an error. -/
theorem generation_split_invariant {d d' : Deployment F D} {w : ModelWeights F}
    {settings settings' : GatewaySettings D} (hhp : d.hp = d'.hp) (hsplit : Splits d w)
    (hsplit' : Splits d' w) (horder : InPipelineOrder d settings)
    (horder' : InPipelineOrder d' settings') (hloop : settings.loop = settings'.loop)
    (hprecision : ¬IsHalf settings.activationPrecision)
    (hprecision' : ¬IsHalf settings'.activationPrecision)
    (hgreedy : FloatArith.lt 0 settings.temperature = false)
    (hgreedy' : FloatArith.lt 0 settings'.temperature = false) (tokenizer : Tokenizer)
    (requestId prompt : Bytes) (maxNewTokens : ℤ) (start : StageStates d.hp)
    (start' : StageStates d'.hp) :
    { (d.generate settings tokenizer requestId prompt maxNewTokens start).result with
        error := [] } =
      { (d'.generate settings' tokenizer requestId prompt maxNewTokens start').result with
        error := [] } := by
  rw [generate_whole hsplit horder hprecision hgreedy,
    generate_whole hsplit' horder' hprecision' hgreedy', hhp, hloop]

section Tiny

/-- The map of stages with the given layers. -/
def tinySplit (ranges : List (List ℤ)) : StageMap where
  numLayers := ranges.flatten.length
  firstStageUrl := stageUrl (ascii "stage") 1
  inferenceStages := (List.range ranges.length).map fun index =>
    stageEntry (ascii "stage") ranges.length index (ranges.getD index [])

/-- The tiny model with some layers. -/
def tinyWeights (numLayers : ℕ) : ModelWeights Binary32 where
  tensors := zeroModel tinyHyperparams
  numLayers := numLayers
  attentionBackendIsGgml := true

theorem tinySplit_getD (ranges : List (List ℤ)) {i : ℕ} (hi : i < ranges.length) :
    (tinySplit ranges).inferenceStages.getD i noPartition =
      stageEntry (ascii "stage") ranges.length i (ranges.getD i []) := by
  have hlt : i < (tinySplit ranges).inferenceStages.length := by simpa [tinySplit] using hi
  rw [List.getD_eq_getElem _ _ hlt]
  simp only [tinySplit, List.getElem_map, List.getElem_range]

theorem tinySplit_splits (ranges : List (List ℤ)) (numLayers : ℕ)
    (hlayers : ((tinySplit ranges).inferenceStages.flatMap fun partition =>
      partition.components.layers) = (tinyWeights numLayers).layers) :
    Splits (tinyDeployment (tinySplit ranges)) (tinyWeights numLayers) := by
  have hlength : (tinySplit ranges).inferenceStages.length = ranges.length := by
    simp only [tinySplit, List.length_map, List.length_range]
  refine ⟨hlayers, fun i hi => ?_, fun i hi => ?_, fun _ _ => rfl, fun _ _ _ _ _ _ => rfl, rfl,
    fun _ _ => rfl, fun _ _ => rfl⟩
  · change ((tinySplit ranges).inferenceStages.getD i noPartition).components.embedding = _
    rw [tinySplit_getD ranges (hlength ▸ hi)]
    simp [stageEntry, beq_eq_decide]
  · change i + 1 = (tinySplit ranges).inferenceStages.length at hi
    change ((tinySplit ranges).inferenceStages.getD i noPartition).components.norm = true
    rw [tinySplit_getD ranges (by omega)]
    simp [stageEntry, hi, hlength]

theorem tinySplit_inPipelineOrder (ranges : List (List ℤ)) (chaining : Bool)
    (hseveral : 2 ≤ ranges.length)
    (hreachable : ∀ i < ranges.length,
      (tinyDeployment (tinySplit ranges)).stageAt (stageUrl (ascii "stage") (i + 1)) = i) :
    InPipelineOrder (tinyDeployment (tinySplit ranges))
      (greedySettings (tinySplit ranges) chaining) := by
  have hlength : (tinySplit ranges).inferenceStages.length = ranges.length := by
    simp only [tinySplit, List.length_map, List.length_range]
  have hentry {i : ℕ} {partition : PartitionNodeConfig}
      (hpartition : (tinySplit ranges).inferenceStages[i]? = some partition) :
      i < ranges.length ∧
        partition = stageEntry (ascii "stage") ranges.length i (ranges.getD i []) := by
    have hi : i < ranges.length := hlength ▸ (List.getElem?_eq_some_iff.mp hpartition).1
    rw [← tinySplit_getD ranges hi, List.getD_eq_getElem?_getD, hpartition]
    exact ⟨hi, rfl⟩
  refine ⟨⟨hreachable 0 (by omega), fun i partition hpartition hi _ => ?_⟩,
    hlength.symm ▸ hseveral, fun i partition hpartition hi => ?_, fun i partition hpartition hi => ?_⟩
  · have hlt : i + 1 < ranges.length := hlength ▸ hi
    rw [(hentry hpartition).2]
    simp only [stageEntry, hlt, if_true]
    exact hreachable (i + 1) hlt
  · have hlt : i + 1 < ranges.length := hlength ▸ hi
    have hscheme : ascii "http://" ≠ [] := by decide
    rw [(hentry hpartition).2]
    simp [stageEntry, hlt, hlt.ne, stageUrl, hscheme]
  · have heq : i + 1 = ranges.length := hlength ▸ hi
    rw [(hentry hpartition).2]
    simp only [stageEntry, heq]
    simp
    omega

/-- Three layers over two stages generate in hub mode what they generate over
three stages that chain. -/
theorem generation_split_invariant_two_three :
    { ((tinyDeployment (tinySplit [[0, 1], [2]])).generate
          (greedySettings (tinySplit [[0, 1], [2]]) false) tinyTokenizer (ascii "r") (ascii "hi") 3
          fun _ => ∅).result with error := [] } =
      { ((tinyDeployment (tinySplit [[0], [1], [2]])).generate
          (greedySettings (tinySplit [[0], [1], [2]]) true) tinyTokenizer (ascii "r") (ascii "hi")
          3 fun _ => ∅).result with error := [] } := by
  have hsplit := tinySplit_splits [[0, 1], [2]] 3 (by decide)
  have hsplit' := tinySplit_splits [[0], [1], [2]] 3 (by decide)
  have horder := tinySplit_inPipelineOrder [[0, 1], [2]] false (by decide) (by decide)
  have horder' := tinySplit_inPipelineOrder [[0], [1], [2]] true (by decide) (by decide)
  have hhp : (tinyDeployment (tinySplit [[0, 1], [2]])).hp =
      (tinyDeployment (tinySplit [[0], [1], [2]])).hp := rfl
  exact generation_split_invariant hhp hsplit hsplit' horder horder' rfl (by decide) (by decide)
    (by decide) (by decide) tinyTokenizer (ascii "r") (ascii "hi") 3 _ _

end Tiny

end LayerInference.SplitInvariance
