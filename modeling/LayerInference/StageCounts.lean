import LayerInference.StageExecution
import LayerInference.ZeroModel

/-!
# The stage map of the controller

The controller splits the layers of a model over a number of stages: all
stages get the same number, the first ones one more while a remainder lasts.
The first stage owns the embedding and the last one norm and output matrix. A
deployment of this map generates text exactly when it has a second stage: the
owner of the embedding is a source, even when it is also the last.
-/

namespace LayerInference.StageCounts

open ByteStrings FallibleRuns FloatArithmetic TensorAbi CpuExecutor PartitionExecution
  PartialRuntime PartitionRouting GenerationLoop StagePipeline FrameTensors ExecutionTotality
  StageExecution ZeroModel

variable {F D G : Type} [FloatArith F] [FloatArith D] [Numerics F D G]

/-- The layers of the remaining stages, from `cursor` on. -/
def splitLoop (base remainder : ℤ) : ℕ → ℤ → ℤ → List (List ℤ)
  | 0, _, _ => []
  | stages + 1, index, cursor =>
    let size := base + if index < remainder then 1 else 0
    ((List.range size.toNat).map fun layer => cursor + layer) ::
      splitLoop base remainder stages (index + 1) (cursor + size)

def splitLayers (numLayers numStages : ℤ) : Except Bytes (List (List ℤ)) :=
  if numLayers ≤ 0 then .error (ascii "num_layers must be greater than zero")
  else if numStages ≤ 0 then .error (ascii "num_stages must be greater than zero")
  else if numStages > numLayers then
    .error (ascii "num_stages cannot be greater than num_layers")
  else
    .ok (splitLoop (numLayers / numStages) (numLayers % numStages) numStages.toNat 0 0)

def stageServiceName (stageServicePrefix : Bytes) (stageId : ℕ) : Bytes :=
  stageServicePrefix ++ ascii "-" ++ decimalNat stageId

/-- Where a stage takes its frames. -/
def stageUrl (stageServicePrefix : Bytes) (stageId : ℕ) : Bytes :=
  ascii "http://" ++ stageServiceName stageServicePrefix stageId ++ ascii ":8000/forward-binary"

/-- The part of the stage map that gateway and stages are configured with. -/
structure StageMap where
  numLayers : ℤ
  firstStageUrl : Bytes
  inferenceStages : List PartitionNodeConfig

/-- The entry of one stage. The last one has no next stage. -/
def stageEntry (stageServicePrefix : Bytes) (numStages index : ℕ) (layers : List ℤ) :
    PartitionNodeConfig :=
  let stageId := index + 1
  { partitionId := ascii "partition-" ++ decimalNat stageId
    serviceName := stageServiceName stageServicePrefix stageId
    nextStageUrl := if stageId < numStages then stageUrl stageServicePrefix (stageId + 1) else []
    components :=
      { layers := layers
        embedding := stageId == 1
        norm := stageId == numStages
        lmHead := stageId == numStages } }

def generateStageMap (stageServicePrefix : Bytes) (numLayers numStages : ℤ) :
    Except Bytes StageMap := do
  let ranges ← splitLayers numLayers numStages
  .ok
    { numLayers := numLayers
      firstStageUrl := stageUrl stageServicePrefix 1
      inferenceStages := (List.range numStages.toNat).map fun index =>
        stageEntry stageServicePrefix numStages.toNat index (ranges.getD index []) }

/-- The stages of a map, running: each under its service name, each with its
shard, and the gateway configured with the first. -/
structure Served (d : Deployment F D) (settings : GatewaySettings D) (stageServicePrefix : Bytes)
    (stageMap : StageMap) : Prop where
  partitions : d.partitions = stageMap.inferenceStages
  first : settings.firstStageUrl = stageMap.firstStageUrl
  reachable : ∀ i < stageMap.inferenceStages.length,
    d.stageAt (stageUrl stageServicePrefix (i + 1)) = i
  ready : ∀ i < stageMap.inferenceStages.length, Ready d i

/-- The calls that a generation makes, within the limits of a frame. -/
inductive LoopCall (hp : LlamaExecutorHyperparams F) : PipelineCall → Prop
  | prefillCall {tokens : List ℤ} (htokens : ∀ t ∈ tokens, InVocab hp t)
      (hfits : Fits hp tokens.length) : LoopCall hp ⟨0, ascii "prefill", tokens⟩
  | decodeCall {token : ℤ} (index : ℕ) (htoken : InVocab hp token) (hfits : Fits hp 1) :
      LoopCall hp ⟨index, ascii "decode", [token]⟩

/-- What the controller accepts. -/
theorem splitLayers_ok_iff (numLayers numStages : ℤ) :
    (∃ ranges, splitLayers numLayers numStages = .ok ranges) ↔
      1 ≤ numStages ∧ numStages ≤ numLayers := by
  unfold splitLayers
  constructor
  · rintro ⟨ranges, h⟩
    split at h
    · cases h
    · split at h
      · cases h
      · split at h
        · cases h
        · omega
  · rintro ⟨hstages, hlayers⟩
    rw [if_neg (by omega), if_neg (by omega), if_neg (by omega)]
    exact ⟨_, rfl⟩

/-- The entries of an accepted stage map. -/
theorem entries_of_generate {stageServicePrefix : Bytes} {numLayers numStages : ℤ}
    {stageMap : StageMap}
    (h : generateStageMap stageServicePrefix numLayers numStages = .ok stageMap) :
    1 ≤ numStages ∧ stageMap.firstStageUrl = stageUrl stageServicePrefix 1 ∧
      stageMap.inferenceStages.length = numStages.toNat ∧
      ∀ i < numStages.toNat, ∃ layers, stageMap.inferenceStages[i]? =
        some (stageEntry stageServicePrefix numStages.toNat i layers) := by
  unfold generateStageMap at h
  cases hranges : splitLayers numLayers numStages with
  | error message =>
    rw [hranges] at h
    cases h
  | ok ranges =>
    rw [hranges] at h
    cases h
    refine ⟨((splitLayers_ok_iff _ _).mp ⟨ranges, hranges⟩).1, rfl, by simp, fun i hi => ?_⟩
    exact ⟨ranges.getD i [], by simp [hi]⟩

section Running

variable {d : Deployment F D} {settings : GatewaySettings D} {stageServicePrefix : Bytes}
  {numLayers numStages : ℤ} {stageMap : StageMap}

/-- The tensor that the stage with a given index expects. -/
def InputFor (hp : LlamaExecutorHyperparams F) (tokens : List ℤ) (i : ℕ) (tensor : TensorBuffer) :
    Prop :=
  if i = 0 then tensor = tokenTensor tokens else HiddenRows hp tokens.length tensor

/-- An answer that carries a token of the vocabulary. -/
def GoodAnswer (hp : LlamaExecutorHyperparams F) (result : StageClientResult (StageFrame D)) :
    Prop :=
  ∃ token, nextTokenIdFromTerminalResponse result = .ok token ∧ InVocab hp token

/-- The entry of a running stage. -/
theorem Served.entry (hserved : Served d settings stageServicePrefix stageMap)
    (hmap : generateStageMap stageServicePrefix numLayers numStages = .ok stageMap) {i : ℕ}
    (hi : i < numStages.toNat) :
    ∃ layers, d.partitions[i]? = some (stageEntry stageServicePrefix numStages.toNat i layers) ∧
      d.partitions.getD i noPartition = stageEntry stageServicePrefix numStages.toNat i layers := by
  obtain ⟨-, -, -, hentries⟩ := entries_of_generate hmap
  obtain ⟨layers, hlayers⟩ := hentries i hi
  rw [← hserved.partitions] at hlayers
  exact ⟨layers, hlayers, by rw [List.getD_eq_getElem?_getD, hlayers, Option.getD_some]⟩

theorem Served.length (hserved : Served d settings stageServicePrefix stageMap)
    (hmap : generateStageMap stageServicePrefix numLayers numStages = .ok stageMap) :
    d.partitions.length = numStages.toNat := by
  rw [hserved.partitions, (entries_of_generate hmap).2.2.1]

/-- The URLs of the map lead to its stages. -/
theorem Served.addresses (hserved : Served d settings stageServicePrefix stageMap)
    (hmap : generateStageMap stageServicePrefix numLayers numStages = .ok stageMap) :
    Addresses (d.routeConfig settings) d.stageAt := by
  obtain ⟨hstages, hfirst, hlength, -⟩ := entries_of_generate hmap
  constructor
  · change d.stageAt settings.firstStageUrl = 0
    rw [hserved.first, hfirst]
    exact hserved.reachable 0 (by omega)
  · intro index partition hpartition hlt hne
    change d.partitions[index]? = some partition at hpartition
    change index + 1 < d.partitions.length at hlt
    rw [hserved.length hmap] at hlt
    obtain ⟨layers, hentry, -⟩ := hserved.entry hmap (show index < numStages.toNat by omega)
    rw [hentry] at hpartition
    cases hpartition
    simp only [stageEntry, hlt, if_true]
    exact hserved.reachable (index + 1) (by omega)

/-- A stage before the last passes its frame on. -/
theorem Served.returns_inner (hserved : Served d settings stageServicePrefix stageMap)
    (hmap : generateStageMap stageServicePrefix numLayers numStages = .ok stageMap)
    {tokens : List ℤ} (htokens : ∀ t ∈ tokens, InVocab d.hp t) (hfits : Fits d.hp tokens.length)
    {i : ℕ} (hi : i + 1 < numStages.toNat) {request : RuntimeRequest D}
    (hinput : InputFor d.hp tokens i request.inputTensor) :
    Returns (d.serve i request) (PassesOn d.hp tokens.length) := by
  obtain ⟨layers, -, hentry⟩ := hserved.entry hmap (show i < numStages.toNat by omega)
  have hlength := (entries_of_generate hmap).2.2.1
  have hready := hserved.ready i (by omega)
  cases i with
  | zero =>
    exact returns_serve_source hready (by rw [hentry]; rfl) htokens hfits hinput
  | succ i =>
    rw [InputFor, if_neg (Nat.succ_ne_zero i)] at hinput
    refine returns_serve_intermediate hready ?_ ?_ ?_ hfits hinput
    · rw [hentry]
      exact beq_false_of_ne (by omega)
    · rw [hentry]
      exact beq_false_of_ne (by omega)
    · rw [hentry]
      simp [stageEntry, hi, stageUrl, ascii]

/-- The last of several stages picks the token. -/
theorem Served.returns_last (hserved : Served d settings stageServicePrefix stageMap)
    (hmap : generateStageMap stageServicePrefix numLayers numStages = .ok stageMap)
    {tokens : List ℤ} (hfits : Fits d.hp tokens.length) {i : ℕ} (hi : i + 1 = numStages.toNat)
    (hpos : 0 < i) {request : RuntimeRequest D}
    (hinput : InputFor d.hp tokens i request.inputTensor) :
    Returns (d.serve i request) (PicksToken d.hp) := by
  obtain ⟨layers, -, hentry⟩ := hserved.entry hmap (show i < numStages.toNat by omega)
  have hlength := (entries_of_generate hmap).2.2.1
  rw [InputFor, if_neg (by omega)] at hinput
  refine returns_serve_terminal (hserved.ready i (by omega)) ?_ ?_ ?_ hfits hinput
  · rw [hentry]
    exact beq_false_of_ne (by omega)
  · rw [hentry]
    exact beq_iff_eq.mpr hi
  · rw [hentry]
    exact beq_iff_eq.mpr hi

omit [FloatArith F] [FloatArith D] in
/-- What is passed on is the input of the stage behind. -/
theorem inputFor_responseFrame {tokens : List ℤ} {request : RuntimeRequest D}
    {response : RuntimeResponse} (h : PassesOn d.hp tokens.length response) (i : ℕ) :
    InputFor d.hp tokens (i + 1) (responseFrame request response).request.inputTensor := by
  obtain ⟨-, -, hrows⟩ := h
  rw [InputFor, if_neg (Nat.succ_ne_zero i)]
  have hshape : response.outputTensor.metadata.shape.isEmpty = false := by rw [hrows.shape]; rfl
  simp only [responseFrame, hshape, Bool.false_eq_true, if_false]
  exact hrows

omit [FloatArith F] [FloatArith D] in
theorem goodAnswer_responseFrame {request : RuntimeRequest D} {response : RuntimeResponse}
    (h : PicksToken d.hp response) (httpStatus : ℕ) (errorBody : Bytes) :
    GoodAnswer d.hp ⟨httpStatus, responseFrame request response, errorBody⟩ := by
  refine ⟨response.nextTokenId, ?_, h.2⟩
  exact if_neg (not_lt.mpr h.2.1)

/-- A stage that does not chain answers with its own frame. -/
theorem returns_handle_unchained {i fuel : ℕ} {frame : StageFrame D} {Q : RuntimeResponse → Prop}
    (hserve : Returns (d.serve i frame.request) Q)
    (hstop : ∀ response, Q response → (frame.request.nativeStageChainingEnabled &&
      !response.isFinalStage && !(d.runtime i).shard.nextStageUrl.isEmpty) = false) :
    Returns (handleForwardBinary d fuel i frame) fun result =>
      ∃ response, Q response ∧ result = ⟨200, responseFrame frame.request response, []⟩ := by
  intro states
  obtain ⟨response, states', hrun, hresponse⟩ := hserve states
  refine ⟨_, states', ?_, response, hresponse, rfl⟩
  unfold handleForwardBinary
  simp only [hrun, hstop response hresponse, Bool.false_eq_true, if_false]

/-- A stage that chains answers with what the stage behind answers. -/
theorem returns_handle_chained {i fuel : ℕ} {frame : StageFrame D} {Q : RuntimeResponse → Prop}
    {A : StageClientResult (StageFrame D) → Prop} (hserve : Returns (d.serve i frame.request) Q)
    (hchain : ∀ response, Q response → (frame.request.nativeStageChainingEnabled &&
      !response.isFinalStage && !(d.runtime i).shard.nextStageUrl.isEmpty) = true)
    (hnext : ∀ response, Q response → Returns (handleForwardBinary d fuel
      (d.stageAt (d.runtime i).shard.nextStageUrl) (responseFrame frame.request response))
      fun result => isSuccess result.httpStatus ∧ A result) :
    Returns (handleForwardBinary d (fuel + 1) i frame) fun result =>
      isSuccess result.httpStatus ∧ A result := by
  intro states
  obtain ⟨response, states', hrun, hresponse⟩ := hserve states
  obtain ⟨result, states'', hrun', hresult⟩ := hnext response hresponse states'
  refine ⟨result, states'', ?_, hresult⟩
  rw [handleForwardBinary]
  simp only [hrun, hchain response hresponse, if_true, hrun', hresult.1, not_true_eq_false,
    if_false]

/-- One step of the orchestrated route, at a stage that answers. -/
theorem returns_orchestrate_step {config : RouteConfig} (haddr : Addresses config d.stageAt)
    {i : ℕ} {partition : PartitionNodeConfig} (hpartition : config.partitions[i]? = some partition)
    (hbefore : ∀ j previous, i = j + 1 → config.partitions[j]? = some previous →
      previous.nextStageUrl ≠ [])
    {frame : StageFrame D} (hchaining : frame.request.nativeStageChainingEnabled = false)
    {Q : RuntimeResponse → Prop} {A : StageClientResult (StageFrame D) → Prop}
    (hserve : Returns (d.serve i frame.request) Q)
    (hrest : ∀ response, Q response → Returns
      (if isTerminalPartition partition then pure ⟨200, responseFrame frame.request response, []⟩
        else orchestrate config d.client (i + 1) (config.partitions.drop (i + 1))
          (responseFrame frame.request response)) A) :
    Returns (orchestrate config d.client i (config.partitions.drop i) frame) A := by
  obtain ⟨hlt, hget⟩ := List.getElem?_eq_some_iff.mp hpartition
  obtain ⟨url, hurl, hat⟩ := stageUrlForPartition_at haddr hlt hbefore
  rw [List.drop_eq_getElem_cons hlt, hget, orchestrate]
  refine returns_stateless_bind hurl ?_
  have hcall : Returns (d.client url frame) fun result =>
      ∃ response, Q response ∧ result = ⟨200, responseFrame frame.request response, []⟩ := by
    rw [Deployment.client, hat]
    exact returns_handle_unchained hserve fun _ _ => by rw [hchaining]; rfl
  refine returns_bind hcall ?_
  rintro result ⟨response, hresponse, rfl⟩
  rw [if_neg (not_not.mpr isSuccess_answered)]
  exact hrest response hresponse

/-- A stage before the last names the one behind it. -/
theorem Served.next_of_inner (hserved : Served d settings stageServicePrefix stageMap)
    (hmap : generateStageMap stageServicePrefix numLayers numStages = .ok stageMap) {i : ℕ}
    (hi : i + 1 < numStages.toNat) :
    ∃ partition, d.partitions[i]? = some partition ∧ partition.nextStageUrl ≠ [] ∧
      isTerminalPartition partition = false ∧ d.stageAt partition.nextStageUrl = i + 1 := by
  obtain ⟨layers, hget, -⟩ := hserved.entry hmap (show i < numStages.toNat by omega)
  have hnext : (stageEntry stageServicePrefix numStages.toNat i layers).nextStageUrl ≠ [] := by
    simp [stageEntry, hi, stageUrl, ascii]
  have hlmHead : (stageEntry stageServicePrefix numStages.toNat i layers).components.lmHead =
      false := beq_false_of_ne (by omega)
  refine ⟨_, hget, hnext, ?_, ?_⟩
  · rw [isTerminalPartition, Bool.or_eq_false_iff, List.isEmpty_eq_false_iff]
    exact ⟨hnext, hlmHead⟩
  · refine (hserved.addresses hmap).next i _ hget ?_ hnext
    change i + 1 < d.partitions.length
    rwa [hserved.length hmap]

/-- The gateway visits the stages from `i` on, the last of which is `i + k`. -/
theorem Served.returns_orchestrate (hserved : Served d settings stageServicePrefix stageMap)
    (hmap : generateStageMap stageServicePrefix numLayers numStages = .ok stageMap)
    (hmany : 2 ≤ numStages) {tokens : List ℤ} (htokens : ∀ t ∈ tokens, InVocab d.hp t)
    (hfits : Fits d.hp tokens.length) (k : ℕ) {i : ℕ} (hi : i + k + 1 = numStages.toNat)
    {frame : StageFrame D} (hchaining : frame.request.nativeStageChainingEnabled = false)
    (hinput : InputFor d.hp tokens i frame.request.inputTensor) :
    Returns (orchestrate (d.routeConfig settings) d.client i
      ((d.routeConfig settings).partitions.drop i) frame) (GoodAnswer d.hp) := by
  have hbefore (i : ℕ) (hi : i < numStages.toNat) (j : ℕ) (previous : PartitionNodeConfig)
      (hij : i = j + 1) (hprevious : d.partitions[j]? = some previous) :
      previous.nextStageUrl ≠ [] := by
    obtain ⟨partition, hget, hnext, -⟩ := hserved.next_of_inner hmap (show j + 1 < _ by omega)
    rw [hprevious] at hget
    cases hget
    exact hnext
  induction k generalizing i frame with
  | zero =>
    obtain ⟨layers, hget, -⟩ := hserved.entry hmap (show i < numStages.toNat by omega)
    refine returns_orchestrate_step (hserved.addresses hmap) hget (hbefore i (by omega)) hchaining
      (hserved.returns_last hmap hfits hi (by omega) hinput) fun response hresponse => ?_
    have hempty : (stageEntry stageServicePrefix numStages.toNat i layers).nextStageUrl = [] :=
      if_neg (by omega)
    rw [isTerminalPartition, hempty]
    exact returns_pure (goodAnswer_responseFrame hresponse _ _)
  | succ k ih =>
    obtain ⟨partition, hget, -, hterminal, -⟩ :=
      hserved.next_of_inner hmap (show i + 1 < numStages.toNat by omega)
    refine returns_orchestrate_step (hserved.addresses hmap) hget (hbefore i (by omega)) hchaining
      (hserved.returns_inner hmap htokens hfits (by omega) hinput) fun response hresponse => ?_
    rw [hterminal]
    exact ih (by omega) hchaining (inputFor_responseFrame hresponse i)

/-- The stages hand a chained frame on from `i` to the last. -/
theorem Served.returns_chained (hserved : Served d settings stageServicePrefix stageMap)
    (hmap : generateStageMap stageServicePrefix numLayers numStages = .ok stageMap)
    (hmany : 2 ≤ numStages) {tokens : List ℤ} (htokens : ∀ t ∈ tokens, InVocab d.hp t)
    (hfits : Fits d.hp tokens.length) (k : ℕ) {i : ℕ} (hi : i + k + 1 = numStages.toNat)
    {fuel : ℕ} (hfuel : k ≤ fuel) {frame : StageFrame D}
    (hchaining : frame.request.nativeStageChainingEnabled = true)
    (hinput : InputFor d.hp tokens i frame.request.inputTensor) :
    Returns (handleForwardBinary d fuel i frame) fun result =>
      isSuccess result.httpStatus ∧ GoodAnswer d.hp result := by
  induction k generalizing i fuel frame with
  | zero =>
    refine returns_weaken (returns_handle_unchained
      (hserved.returns_last hmap hfits hi (by omega) hinput) fun response hresponse => ?_) ?_
    · rw [hresponse.1, Bool.not_true, Bool.and_false, Bool.false_and]
    · rintro result ⟨response, hresponse, rfl⟩
      exact ⟨isSuccess_answered, goodAnswer_responseFrame hresponse _ _⟩
  | succ k ih =>
    obtain ⟨fuel, rfl⟩ : ∃ n, fuel = n + 1 := ⟨fuel - 1, by omega⟩
    obtain ⟨partition, hget, hnext, -, hat⟩ :=
      hserved.next_of_inner hmap (show i + 1 < numStages.toNat by omega)
    have hurl : (d.runtime i).shard.nextStageUrl = partition.nextStageUrl := by
      change (d.partitions.getD i noPartition).nextStageUrl = _
      rw [List.getD_eq_getElem?_getD, hget, Option.getD_some]
    refine returns_handle_chained (hserved.returns_inner hmap htokens hfits (by omega) hinput)
      (fun response hresponse => ?_) fun response hresponse => ?_
    · rw [hchaining, hresponse.1, hurl, List.isEmpty_eq_false_iff.mpr hnext]
      rfl
    · rw [hurl, hat]
      exact ih (by omega) (by omega) hchaining (inputFor_responseFrame hresponse i)

/-- With a second stage every call of a generation is answered with a token. -/
theorem Served.answers (hserved : Served d settings stageServicePrefix stageMap)
    (hmap : generateStageMap stageServicePrefix numLayers numStages = .ok stageMap)
    (hmany : 2 ≤ numStages) (requestId : Bytes) {call : PipelineCall} (hcall : LoopCall d.hp call) :
    AnswersGood (InVocab d.hp) (d.pipeline settings requestId) call := by
  have hcalls {index : ℕ} {mode : Bytes} {tokens : List ℤ} (htokens : ∀ t ∈ tokens, InVocab d.hp t)
      (hfits : Fits d.hp tokens.length) :
      AnswersGood (InVocab d.hp) (d.pipeline settings requestId) ⟨index, mode, tokens⟩ := by
    have hlength := hserved.length hmap
    have hnonempty : (d.routeConfig settings).partitions.isEmpty = false := by
      rw [List.isEmpty_eq_false_iff, ← List.length_pos_iff]
      change 0 < d.partitions.length
      omega
    change Returns (forwardThroughPartitionGraph (d.routeConfig settings) d.client
      (gatewayFrame settings requestId ⟨index, mode, tokens⟩)) (GoodAnswer d.hp)
    rw [forwardThroughPartitionGraph, hnonempty]
    cases hchaining : settings.nativeStageChainingEnabled with
    | false =>
      simp only [Deployment.routeConfig, hchaining, Bool.false_eq_true, if_false]
      have hroute : Returns (orchestrate (d.routeConfig settings) d.client 0
          ((d.routeConfig settings).partitions.drop 0)
          (gatewayFrame settings requestId ⟨index, mode, tokens⟩)) (GoodAnswer d.hp) :=
        hserved.returns_orchestrate hmap hmany htokens hfits (numStages.toNat - 1) (by omega)
          hchaining rfl
      simpa only [Deployment.routeConfig, hchaining, List.drop_zero] using hroute
    | true =>
      simp only [Deployment.routeConfig, hchaining, Bool.false_eq_true, if_false, if_true]
      have hfirst : d.stageAt settings.firstStageUrl = 0 := (hserved.addresses hmap).first
      have hcall : Returns (d.client settings.firstStageUrl
          (gatewayFrame settings requestId ⟨index, mode, tokens⟩)) fun result =>
            isSuccess result.httpStatus ∧ GoodAnswer d.hp result := by
        rw [Deployment.client, hfirst]
        exact hserved.returns_chained hmap hmany htokens hfits (numStages.toNat - 1) (by omega)
          (by omega) hchaining rfl
      refine returns_bind hcall fun result hresult => ?_
      rw [if_neg (not_not.mpr hresult.1)]
      exact returns_pure hresult.2
  cases hcall with
  | prefillCall htokens hfits => exact hcalls htokens hfits
  | decodeCall index htoken hfits =>
    exact hcalls (fun t ht => by rwa [List.mem_singleton.mp ht]) hfits

end Running

omit [FloatArith F] in
/-- Where a longer prompt fits, one token does. -/
theorem Fits.one {hp : LlamaExecutorHyperparams F} {rows : ℕ} (h : Fits hp rows) : Fits hp 1 where
  nonempty := Nat.one_pos
  tokens := le_trans (Nat.mul_le_mul_right 8 h.nonempty) h.tokens
  hidden := le_trans (Nat.mul_le_mul_right 4 (Nat.mul_le_mul_right _ h.nonempty)) h.hidden

section Tiny

/-- The running stages of a map, all with the tiny model. A service name leads
to its stage. -/
def tinyDeployment (stageMap : StageMap) : Deployment Binary32 Binary64 where
  hp := tinyHyperparams
  partitions := stageMap.inferenceStages
  tensors := fun _ => zeroModel tinyHyperparams
  attentionBackendIsGgml := fun _ => true
  stageAt := fun url => stageMap.inferenceStages.findIdx fun partition =>
    url == ascii "http://" ++ partition.serviceName ++ ascii ":8000/forward-binary"
  env := fun _ _ => ForwardEnv.newestFirst 8

/-- Greedy generation from the first stage of a map. -/
def greedySettings (stageMap : StageMap) (nativeStageChainingEnabled : Bool) :
    GatewaySettings Binary64 where
  firstStageUrl := stageMap.firstStageUrl
  nativeStageChainingEnabled := nativeStageChainingEnabled
  temperature := 0

/-- Every prompt is one token, every token a space. -/
def tinyTokenizer : Tokenizer where
  backendName := ascii "tiny"
  tokenize _ := .ok [0]
  detokenize _ := .ok (ascii " ")

end Tiny

end LayerInference.StageCounts
