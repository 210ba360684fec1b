import LayerInference.StageExecution
import LayerInference.StageSequence
import LayerInference.WholeModel

/-!
# A model split over stages

A split of a model keeps each layer's cache at the stage that owns the layer.
Stage by stage a frame goes through the same layers, at the same position, as
in the whole model: the stages behind the frame hold the new caches of their
layers, the stages before it the old ones. So a call that visits all stages
does what one step of the whole model does.
-/

namespace LayerInference.StageSplits

open ByteStrings FallibleRuns RunSimulation FloatArithmetic FrameProtocol TensorAbi CpuExecutor
  PartitionExecution PartialRuntime SessionMachine PartitionRouting CacheGrowth ExecutorLockstep
  FrameTensors GenerationLoop StagePipeline StageExecution StageSequence WholeModel

variable {F D G : Type} [FloatArith F] [FloatArith D] [Numerics F D G]

/-- The layers of a stage. -/
def stageLayers (d : Deployment F D) (i : ℕ) : List ℤ :=
  (d.partitions.getD i noPartition).components.layers

/-- A deployment that splits a model: layers in order, the embedding at the
first stage, norm and output matrix at the last, and every stage with the
tensors of what it owns. -/
structure Splits (d : Deployment F D) (w : ModelWeights F) : Prop where
  layers : (d.partitions.flatMap fun partition => partition.components.layers) = w.layers
  embedding : ∀ i < d.partitions.length,
    (d.partitions.getD i noPartition).components.embedding = decide (i = 0)
  norm : ∀ i, i + 1 = d.partitions.length →
    (d.partitions.getD i noPartition).components.norm = true
  backend : ∀ i < d.partitions.length, d.attentionBackendIsGgml i = w.attentionBackendIsGgml
  layerTensors : ∀ i < d.partitions.length,
    SameLayerTensors (· ∈ stageLayers d i) (d.tensors i) w.tensors
  embeddingTensor :
    d.tensors 0 (ascii "token_embd.weight") = w.tensors (ascii "token_embd.weight")
  normTensor : ∀ i, i + 1 = d.partitions.length →
    d.tensors i (ascii "output_norm.weight") = w.tensors (ascii "output_norm.weight")
  outputTensor : ∀ i, i + 1 = d.partitions.length →
    d.tensors i (ascii "output.weight") = w.tensors (ascii "output.weight")

/-- A stage holds the session of a key, at a counter, with these caches on its
own layers. -/
def StageHolds (d : Deployment F D) (key : Bytes) (i : ℕ) (states : StageStates d.hp)
    (kvCache : PartitionKvCacheState) (caches : ℤ → LayerKvCache F) : Prop :=
  ∃ session, (states i).lookup key = some session ∧ session.kvCache = kvCache ∧
    ∀ l ∈ stageLayers d i, session.executor.layerCache l = caches l

/-- The same of the session that the stage is about to open. -/
def StageReady (d : Deployment F D) (request : RuntimeRequest D) (i : ℕ)
    (states : StageStates d.hp) (kvCache : PartitionKvCacheState)
    (caches : ℤ → LayerKvCache F) : Prop :=
  if resetsSession request then
    checkHyperparams d.hp = .ok () ∧ kvCache = {} ∧ ∀ l ∈ stageLayers d i, caches l = {}
  else StageHolds d (sessionKey request) i states kvCache caches

/-- A call in progress: the stages before `i` have served its frame. -/
structure Progress (d : Deployment F D) (request : RuntimeRequest D) (i : ℕ)
    (before after : PartitionKvCacheState) (states : StageStates d.hp)
    (whole : LlamaCpuExecutor d.hp) : Prop where
  done : ∀ j < i, StageHolds d (sessionKey request) j states after whole.layerCache
  ahead : ∀ j, i ≤ j → j < d.partitions.length →
    StageReady d request j states before whole.layerCache

section Layers

variable {d : Deployment F D} {w : ModelWeights F}

omit [FloatArith F] [FloatArith D] in
/-- No layer has two owners. -/
theorem Splits.disjoint (hsplit : Splits d w) {i j : ℕ} (hi : i < d.partitions.length)
    (hj : j < d.partitions.length) (hij : i ≠ j) {l : ℤ} (hl : l ∈ stageLayers d i) :
    l ∉ stageLayers d j := by
  have hnodup : w.layers.Nodup := by
    refine List.Nodup.map ?_ List.nodup_range
    exact fun a b hab => Int.ofNat_inj.mp hab
  rw [← hsplit.layers, List.nodup_flatMap] at hnodup
  have hpairs := List.pairwise_iff_getElem.mp hnodup.2
  intro hl'
  simp only [stageLayers, List.getD_eq_getElem _ _ hi, List.getD_eq_getElem _ _ hj] at hl hl'
  rcases lt_or_gt_of_ne hij with hlt | hlt
  · exact hpairs i j hi hj hlt hl hl'
  · exact hpairs j i hj hi hlt hl' hl

/-- The layers from stage `i` on. -/
def layersFrom (d : Deployment F D) (i : ℕ) : List ℤ :=
  (d.partitions.drop i).flatMap fun partition => partition.components.layers

omit [FloatArith F] [FloatArith D] in
theorem layersFrom_succ {i : ℕ} (hi : i < d.partitions.length) :
    layersFrom d i = stageLayers d i ++ layersFrom d (i + 1) := by
  rw [layersFrom, List.drop_eq_getElem_cons hi, List.flatMap_cons, stageLayers,
    List.getD_eq_getElem _ _ hi]
  rfl

omit [FloatArith F] [FloatArith D] in
theorem layersFrom_end : layersFrom d d.partitions.length = [] := by
  rw [layersFrom, List.drop_length, List.flatMap_nil]

/-- Running layers leaves the caches of all others. -/
theorem satisfies_runLayers_frame (context : ExecutorContext F) (layers : List ℤ)
    (hidden : List F) (rows n : ℕ) (caches : ℤ → LayerKvCache F) :
    Satisfies (fun e => e.layerCache = caches) (runLayers context layers hidden rows n)
      (fun _ e => ∀ l ∉ layers, e.layerCache l = caches l) fun _ _ => True :=
  satisfies_weaken (satisfies_runLayers context layers caches hidden rows n) (fun _ he => he)
    (fun _ _ he => he.1.frame) fun _ _ _ => trivial

/-- A stage runs its own layers like the whole model does. -/
theorem Splits.simulates_runLayers (hsplit : Splits d w) {i : ℕ} (hi : i < d.partitions.length)
    {hidden : List F} {rows : ℕ} (n : ℕ) (hlength : hidden.length = rows * d.hp.hiddenSize) :
    Simulates (AgreeOn (· ∈ stageLayers d i) False)
      (runLayers (d.runtime i).executor (stageLayers d i) hidden rows n)
      (runLayers (w.context d.hp) (stageLayers d i) hidden rows n)
      (fun out out' => out = out' ∧ out.length = rows * d.hp.hiddenSize)
      (AgreeOn (· ∈ stageLayers d i) False) fun _ _ => True := by
  have hlockstep : Lockstep (AgreeOn (· ∈ stageLayers d i) False)
      (runLayers (d.runtime i).executor (stageLayers d i) hidden rows n)
      (runLayers { (d.runtime i).executor with tensorContext := w.tensors } (stageLayers d i)
        hidden rows n) (AgreeOn (· ∈ stageLayers d i) False) :=
    lockstep_runLayers _ (hsplit.layerTensors i hi) (fun l hl => hl) hidden rows n
  change Simulates _ _ (runLayers ⟨w.tensors, d.hp, w.attentionBackendIsGgml⟩ _ _ _ _) _ _ _
  rw [← hsplit.backend i hi]
  exact simulates_weaken (simulates_and (simulates_of_lockstep hlockstep) (fun _ _ _ => trivial)
    (satisfies_runLayers_length _ _ n hlength)) (fun _ _ h => h) (fun _ _ h => h) (fun _ _ h => h)
    fun _ _ _ => trivial

end Layers

section Serving

variable {d : Deployment F D} {request : RuntimeRequest D} {i : ℕ}

/-- The session that a ready stage opens for a frame of the call. -/
theorem StageReady.opens {states : StageStates d.hp} {kvCache : PartitionKvCacheState}
    {caches : ℤ → LayerKvCache F} (h : StageReady d request i states kvCache caches)
    (tensor : TensorBuffer) (env : ForwardEnv) :
    ∃ session, openSession d.hp env { request with inputTensor := tensor }
        ((states i).lookup (sessionKey request)) = .ok () (some session) ∧
      session.kvCache = kvCache ∧
        ∀ l ∈ stageLayers d i, session.executor.layerCache l = caches l := by
  unfold StageReady at h
  have hresets : resetsSession { request with inputTensor := tensor } = resetsSession request := rfl
  unfold openSession
  rw [hresets]
  split at h
  · next hreset =>
    obtain ⟨hdims, hkv, hcaches⟩ := h
    simp only [hreset, if_true, hdims]
    exact ⟨_, rfl, hkv.symm, fun l hl => (hcaches l hl).symm⟩
  · next hreset =>
    obtain ⟨session, hlookup, hkv, hcaches⟩ := h
    simp only [hreset, hlookup]
    exact ⟨session, rfl, hkv, hcaches⟩

/-- Serving an admitted frame runs the body of the role on the opened session. -/
theorem serve_opened {req : RuntimeRequest D} {states : StageStates d.hp}
    {session : LlamaRequestSession d.hp}
    (hopen : openSession d.hp (d.env i req) req ((states i).lookup (sessionKey req)) =
      .ok () (some session)) (hadmission : admission (d.runtime i) req = .ok ()) :
    match roleBody (d.runtime i) (d.env i req) req session with
    | .ok response session' => ∃ states', d.serve i req states = .ok response states' ∧
        (states' i).lookup (sessionKey req) = some session' ∧ ∀ j ≠ i, states' j = states j
    | .error _ _ => ∃ message states', d.serve i req states = .error message states' := by
  have hself := forward_self (d.runtime i) (d.env i req) req (states i)
  have hsession : serveSession (d.runtime i) (d.env i req) req
      ((states i).lookup (sessionKey req)) =
        mapState some (roleBody (d.runtime i) (d.env i req) req session) := by
    rw [serveSession, hadmission, stateless_ok_bind, bind_apply, hopen]
    dsimp only
    rw [onPart_apply]
    rfl
  rw [hsession] at hself
  rw [Deployment.serve, onPart_apply]
  cases hbody : roleBody (d.runtime i) (d.env i req) req session with
  | ok response session' =>
    rw [hbody] at hself
    cases hforward : forward (d.runtime i) (d.env i req) req (states i) with
    | ok response' sessions =>
      rw [hforward] at hself
      simp only [mapState, EStateM.Result.ok.injEq] at hself
      obtain ⟨rfl, hlookup⟩ := hself
      refine ⟨_, rfl, ?_, fun j hj => Function.update_of_ne hj _ _⟩
      dsimp only
      rw [Function.update_self, hlookup]
    | error message sessions =>
      rw [hforward] at hself
      cases hself
  | error message session' =>
    rw [hbody] at hself
    cases hforward : forward (d.runtime i) (d.env i req) req (states i) with
    | ok response' sessions =>
      rw [hforward] at hself
      cases hself
    | error message' sessions => exact ⟨message', _, rfl⟩

/-- A frame that is not admitted fails. -/
theorem serve_refused {req : RuntimeRequest D} {message : Bytes}
    (hadmission : admission (d.runtime i) req = .error message) (states : StageStates d.hp) :
    ∃ states', d.serve i req states = .error message states' := by
  rw [Deployment.serve, onPart_apply, forward_eq, hadmission]
  exact ⟨_, rfl⟩

/-- A frame whose session cannot be opened fails. -/
theorem serve_unopened {req : RuntimeRequest D} {states : StageStates d.hp} {message : Bytes}
    {stored : Option (LlamaRequestSession d.hp)}
    (hopen : openSession d.hp (d.env i req) req ((states i).lookup (sessionKey req)) =
      .error message stored) :
    ∃ message' states', d.serve i req states = .error message' states' := by
  have hself := forward_self (d.runtime i) (d.env i req) req (states i)
  have hsession : ∃ message' stored', serveSession (d.runtime i) (d.env i req) req
      ((states i).lookup (sessionKey req)) = .error message' stored' := by
    rw [serveSession]
    cases admission (d.runtime i) req with
    | error message' => exact ⟨message', _, rfl⟩
    | ok u =>
      refine ⟨message, stored, ?_⟩
      rw [stateless_ok_bind, bind_apply, hopen]
  obtain ⟨message', stored', hsession⟩ := hsession
  rw [hsession] at hself
  rw [Deployment.serve, onPart_apply]
  cases hforward : forward (d.runtime i) (d.env i req) req (states i) with
  | ok response sessions =>
    rw [hforward] at hself
    cases hself
  | error message'' sessions => exact ⟨message'', _, rfl⟩

end Serving

section Step

variable {d : Deployment F D} {w : ModelWeights F} {request : RuntimeRequest D} {i : ℕ}
  {before after : PartitionKvCacheState}

/-- One stage of a call: it executes in step with a part of the whole model
that touches the caches of its layers only. -/
theorem Splits.simulates_serve (hsplit : Splits d w) (hi : i < d.partitions.length)
    {req : RuntimeRequest D} {tensor : TensorBuffer}
    (hreq : req = { request with inputTensor := tensor })
    (hadmission : admission (d.runtime i) req = .ok ())
    (hcounter : (updateKvCacheForRequest req before).2 = after)
    {α β : Type} {execute : ℕ → ExecM d.hp α} {answer : PartitionKvCacheStep × α → RuntimeResponse}
    (hbody : roleBody (d.runtime i) (d.env i req) req =
      stepSession req execute >>= fun a => pure (answer a))
    {part : ExecM d.hp β} {V : α → β → Prop}
    (hexecute : Simulates (AgreeOn (· ∈ stageLayers d i) False) (execute before.seqLen) part V
      (AgreeOn (· ∈ stageLayers d i) False) fun _ _ => True)
    (hframe : ∀ caches : ℤ → LayerKvCache F, Satisfies (fun e => e.layerCache = caches) part
      (fun _ e => ∀ l ∉ stageLayers d i, e.layerCache l = caches l) fun _ _ => True) :
    Simulates (Progress d request i before after) (d.serve i req) part
      (fun response b => ∃ step a, response = answer (step, a) ∧ V a b)
      (Progress d request (i + 1) before after) fun _ _ => True := by
  subst hreq
  intro states whole hprogress
  obtain ⟨session, hopen, hkv, hcaches⟩ :=
    (hprogress.ahead i le_rfl hi).opens tensor (d.env i { request with inputTensor := tensor })
  have hrun := serve_opened hopen hadmission
  have hagree := hexecute session.executor whole ⟨hcaches, False.elim⟩
  have hframe := hframe whole.layerCache whole rfl
  rw [hbody, bind_apply, stepSession] at hrun
  dsimp only at hrun
  rw [updateKvCacheForRequest_seqBefore, hkv, hcounter] at hrun
  cases hexec : execute before.seqLen session.executor with
  | error message executor =>
    rw [hexec] at hrun hagree
    obtain ⟨message', states', hserve⟩ := hrun
    rw [hserve]
    cases hpart : part whole with
    | ok b whole' =>
      rw [hpart] at hagree
      exact hagree.elim
    | error message'' whole' => trivial
  | ok a executor =>
    rw [hexec] at hrun hagree
    obtain ⟨states', hserve, hlookup, hothers⟩ := hrun
    rw [hserve]
    cases hpart : part whole with
    | error message'' whole' =>
      rw [hpart] at hagree
      exact hagree.elim
    | ok b whole' =>
      rw [hpart] at hagree hframe
      refine ⟨⟨_, a, rfl, hagree.1⟩, ?_, ?_⟩
      · intro j hj
        rcases Nat.lt_succ_iff_lt_or_eq.mp hj with hlt | rfl
        · obtain ⟨s, hs, hskv, hscaches⟩ := hprogress.done j hlt
          refine ⟨s, by rw [hothers j (by omega)]; exact hs, hskv, fun l hl => ?_⟩
          rw [hscaches l hl, hframe l (hsplit.disjoint (by omega) hi (by omega) hl)]
        · exact ⟨_, hlookup, rfl, hagree.2.layers⟩
      · intro j hij hj
        have hready := hprogress.ahead j (by omega) hj
        have hother (l : ℤ) (hl : l ∈ stageLayers d j) : whole'.layerCache l = whole.layerCache l :=
          hframe l (hsplit.disjoint hj hi (by omega) hl)
        unfold StageReady at hready ⊢
        split at hready
        · next hreset =>
          rw [if_pos hreset]
          exact ⟨hready.1, hready.2.1, fun l hl => by rw [hother l hl, hready.2.2 l hl]⟩
        · next hreset =>
          rw [if_neg hreset]
          obtain ⟨s, hs, hskv, hscaches⟩ := hready
          exact ⟨s, by rw [hothers j (by omega)]; exact hs, hskv,
            fun l hl => by rw [hscaches l hl, hother l hl]⟩

end Step

section Rows

variable {hp : LlamaExecutorHyperparams F} {hidden : List F} {precision : Bytes}

theorem toInt32_idem {value : ℤ} {rows : ℕ} (h : toInt32 value = rows) : toInt32 rows = rows := by
  rw [← h, toInt32, toInt32, Int.bmod_bmod]

/-- Whether rows in single precision are accepted depends on their number. -/
theorem boundary_eq {seqLen : ℤ} (hprecision : ¬IsHalf precision)
    (hlength : hidden.length = seqLen.toNat * hp.hiddenSize) :
    validateHiddenStatesTensor (floatHiddenToTensor hp hidden 1 seqLen precision) hp.hiddenSize
      true = boundaryCheck hp seqLen := by
  have hdtype : (floatHiddenToTensor hp hidden 1 seqLen precision).metadata.dtype =
      dtypeHiddenF32 := if_neg hprecision
  have hbytes : (floatHiddenToTensor hp hidden 1 seqLen precision).bytes =
      hidden.flatMap writeF32Le := if_neg hprecision
  refine validateHiddenStatesTensor_congr ?_ ?_ _ _
  · simp only [floatHiddenToTensor] at hdtype ⊢
    rw [hdtype]
  · rw [hbytes, FlatVectors.flatMap_length_mul (fun x : F => writeF32Le_length x), hlength,
      List.length_replicate]

omit [FloatArith F] [FloatArith D] in
/-- The counter moves by the number of rows, in whatever tensor they come. -/
theorem counter_congr {request : RuntimeRequest D} {tensor : TensorBuffer}
    (h : toInt32 (dli2SequenceLength tensor) = toInt32 (dli2SequenceLength request.inputTensor))
    (kvCache : PartitionKvCacheState) :
    updateKvCacheForRequest { request with inputTensor := tensor } kvCache =
      updateKvCacheForRequest request kvCache := by
  simp only [updateKvCacheForRequest, h]

end Rows

section Roles

variable {d : Deployment F D} {w : ModelWeights F} {request : RuntimeRequest D}
  {settings : GatewaySettings D} {before after : PartitionKvCacheState} {tokens : List ℤ}

/-- What a stage passes on: these rows, in single precision. -/
def CarriesRows (hp : LlamaExecutorHyperparams F) (precision : Bytes) (seqLen : ℤ)
    (response : RuntimeResponse) (hidden : List F) : Prop :=
  response.outputTensor = floatHiddenToTensor hp hidden 1 seqLen precision ∧
    hidden.length = seqLen.toNat * hp.hiddenSize

/-- The request of the call, with these rows. -/
def withRows (hp : LlamaExecutorHyperparams F) (request : RuntimeRequest D) (hidden : List F)
    (rows : ℤ) : RuntimeRequest D :=
  { request with inputTensor := floatHiddenToTensor hp hidden 1 rows request.activationPrecision }

theorem embedTokens_congr (context context' : ExecutorContext F) (hhp : context.hp = context'.hp)
    (h : context.tensorContext (ascii "token_embd.weight") =
      context'.tensorContext (ascii "token_embd.weight")) (tokens : List ℤ) (seqLen : ℤ) :
    embedTokens context tokens seqLen = embedTokens context' tokens seqLen := by
  simp only [embedTokens, requireTensor, h, hhp]

theorem lastRowLogits_congr (context context' : ExecutorContext F) (hhp : context.hp = context'.hp)
    (hnorm : context.tensorContext (ascii "output_norm.weight") =
      context'.tensorContext (ascii "output_norm.weight"))
    (houtput : context.tensorContext (ascii "output.weight") =
      context'.tensorContext (ascii "output.weight"))
    (hidden : List F) (seqLen : ℤ) (ownsNorm ownsLmHead : Bool) :
    lastRowLogits context hidden seqLen ownsNorm ownsLmHead =
      lastRowLogits context' hidden seqLen ownsNorm ownsLmHead := by
  simp only [lastRowLogits, tensorVectorToFloat_congr hnorm, matvec_congr houtput, hhp]

/-- The source executes the beginning of the whole model. -/
theorem Splits.simulates_executeSource (hsplit : Splits d w) (hpos : 0 < d.partitions.length)
    (precision : Bytes) (n : ℕ) :
    Simulates (AgreeOn (· ∈ stageLayers d 0) False)
      (executeSource (d.runtime 0).executor (tokenTensor tokens) (stageLayers d 0) n precision)
      (beginWhole w d.hp (stageLayers d 0) tokens n)
      (fun tensor hidden =>
        tensor = floatHiddenToTensor d.hp hidden 1 (toInt32 tokens.length) precision ∧
        hidden.length = (toInt32 tokens.length).toNat * d.hp.hiddenSize)
      (AgreeOn (· ∈ stageLayers d 0) False) fun _ _ => True := by
  refine simulates_stateless_bind (fun _ _ _ => trivial) fun ids hids => ?_
  rw [tensorToTokenIds_length hids]
  dsimp only
  rw [embedTokens_congr (d.runtime 0).executor (w.context d.hp) rfl hsplit.embeddingTensor]
  refine simulates_stateless_bind (fun _ _ _ => trivial) fun embedded hembedded => ?_
  refine simulates_weaken (simulates_map_left (hsplit.simulates_runLayers hpos n
    (embedTokens_length hembedded).2)) (fun _ _ h => h) ?_ (fun _ _ h => h) fun _ _ _ => trivial
  rintro tensor hidden ⟨out, rfl, rfl, hlength⟩
  exact ⟨rfl, hlength⟩

/-- The source begins the call. -/
theorem Splits.simulates_source (hsplit : Splits d w) (hpos : 0 < d.partitions.length)
    (hinput : request.inputTensor = tokenTensor tokens)
    (hcounter : (updateKvCacheForRequest request before).2 = after) :
    Simulates (Progress d request 0 before after) (d.serve 0 request)
      (beginWhole w d.hp (stageLayers d 0) tokens before.seqLen)
      (CarriesRows d.hp request.activationPrecision (toInt32 tokens.length))
      (Progress d request 1 before after) fun _ _ => True := by
  have hrole : (d.partitions.getD 0 noPartition).components.embedding = true := by
    rw [hsplit.embedding 0 hpos]
    rfl
  have hadmission : admission (d.runtime 0) request = validateTokenIdsTensor (tokenTensor tokens) :=
    admission_tokenTensor rfl hrole hinput
  cases hvalid : validateTokenIdsTensor (tokenTensor tokens) with
  | error message =>
    rw [hvalid] at hadmission
    have hread : tensorToTokenIds (tokenTensor tokens) = .error message := by
      simp only [tensorToTokenIds, hvalid, bind, Except.bind]
    intro states whole _
    obtain ⟨states', hserve⟩ := serve_refused hadmission states
    rw [hserve, beginWhole, hread]
    trivial
  | ok u =>
    rw [hvalid] at hadmission
    have hbody := roleBody_source (d.env 0 request) request
      (show (d.runtime 0).shard.ownsEmbedding = true from hrole)
    rw [hinput] at hbody
    have hframe (caches : ℤ → LayerKvCache F) : Satisfies (fun e => e.layerCache = caches)
        (beginWhole w d.hp (stageLayers d 0) tokens before.seqLen)
        (fun _ e => ∀ l ∉ stageLayers d 0, e.layerCache l = caches l) fun _ _ => True := by
      refine satisfies_stateless_bind (fun _ _ _ _ => trivial) fun ids _ => ?_
      refine satisfies_stateless_bind (fun _ _ _ _ => trivial) fun embedded _ => ?_
      exact satisfies_runLayers_frame (w.context d.hp) (stageLayers d 0) embedded _ _ caches
    refine simulates_weaken (hsplit.simulates_serve hpos rfl hadmission hcounter hbody
      (hsplit.simulates_executeSource hpos _ _) hframe) (fun _ _ h => h) ?_ (fun _ _ h => h)
      fun _ _ h => h
    rintro response hidden ⟨step, tensor, rfl, htensor, hlength⟩
    exact ⟨htensor, hlength⟩

variable {i : ℕ} {hidden : List F} {rows : ℕ}

/-- Rows that a stage behind the first reads from its frame. -/
theorem Splits.reads_rows (hsplit : Splits d w) (hi : i < d.partitions.length) (hpos : 0 < i)
    (hprecision : ¬IsHalf request.activationPrecision)
    (hlength : hidden.length = rows * d.hp.hiddenSize)
    (hboundary : boundaryCheck d.hp rows = .ok ()) :
    admission (d.runtime i) (withRows d.hp request hidden rows) = .ok () ∧
      tensorToHiddenF32 d.hp (withRows d.hp request hidden rows).inputTensor = .ok hidden := by
  have hrole : (d.partitions.getD i noPartition).components.embedding = false := by
    rw [hsplit.embedding i hi]
    exact decide_eq_false (by omega)
  have hvalid := (boundary_eq hprecision (by rwa [Int.toNat_natCast])).trans hboundary
  refine ⟨?_, tensorToHiddenF32_self d.hp hprecision hlength hvalid⟩
  rw [admission_hiddenTensor rfl hrole (List.cons_ne_nil _ _) (.inl (if_neg hprecision))]
  exact hvalid

/-- The counter moves by the rows of a tensor as by the tokens they came from. -/
theorem counter_withRows (hp : LlamaExecutorHyperparams F) (hidden : List F)
    (hinput : request.inputTensor = tokenTensor tokens) (hrows : toInt32 tokens.length = rows)
    (hcounter : (updateKvCacheForRequest request before).2 = after) :
    (updateKvCacheForRequest (withRows hp request hidden rows) before).2 = after := by
  rw [← hcounter]
  refine congrArg Prod.snd (counter_congr ?_ before)
  have hseq : dli2SequenceLength (floatHiddenToTensor hp hidden 1 rows
      request.activationPrecision) = rows := rfl
  have htokens : dli2SequenceLength request.inputTensor = tokens.length := by
    rw [hinput]
    rfl
  rw [hseq, htokens, hrows, toInt32_idem hrows]

/-- A stage in the middle executes its layers of the whole model. -/
theorem Splits.simulates_executeIntermediate (hsplit : Splits d w) (hi : i < d.partitions.length)
    {tensor : TensorBuffer} (hread : tensorToHiddenF32 d.hp tensor = .ok hidden)
    (hseq : toInt32 (tensor.metadata.shape.getD 1 0) = rows)
    (hlength : hidden.length = rows * d.hp.hiddenSize) (precision : Bytes) (n : ℕ) :
    Simulates (AgreeOn (· ∈ stageLayers d i) False)
      (executeIntermediate (d.runtime i).executor tensor (stageLayers d i) n precision)
      (runLayers (w.context d.hp) (stageLayers d i) hidden rows n)
      (fun tensor out => tensor = floatHiddenToTensor d.hp out 1 rows precision ∧
        out.length = rows * d.hp.hiddenSize)
      (AgreeOn (· ∈ stageLayers d i) False) fun _ _ => True := by
  unfold executeIntermediate
  rw [hseq, hread]
  refine simulates_weaken (simulates_map_left (hsplit.simulates_runLayers hi n hlength))
    (fun _ _ h => h) ?_ (fun _ _ h => h) fun _ _ _ => trivial
  rintro tensor' out ⟨out', rfl, rfl, hlength'⟩
  exact ⟨rfl, hlength'⟩

/-- A stage in the middle continues the call. -/
theorem Splits.simulates_inner (hsplit : Splits d w) (horder : InPipelineOrder d settings)
    (hi : i + 1 < d.partitions.length) (hpos : 0 < i)
    (hprecision : ¬IsHalf request.activationPrecision)
    (hinput : request.inputTensor = tokenTensor tokens)
    (hcounter : (updateKvCacheForRequest request before).2 = after)
    (hrows : toInt32 tokens.length = rows) (hlength : hidden.length = rows * d.hp.hiddenSize)
    (hboundary : boundaryCheck d.hp rows = .ok ()) :
    Simulates (Progress d request i before after) (d.serve i (withRows d.hp request hidden rows))
      (runLayers (w.context d.hp) (stageLayers d i) hidden rows before.seqLen)
      (CarriesRows d.hp request.activationPrecision rows)
      (Progress d request (i + 1) before after) fun _ _ => True := by
  have hlt : i < d.partitions.length := by omega
  obtain ⟨hadmission, hread⟩ := hsplit.reads_rows hlt hpos hprecision hlength hboundary
  obtain ⟨hnext, hlmHead⟩ := horder.inner i _ (getElem?_eq_getD hlt) hi
  have hembedding : (d.partitions.getD i noPartition).components.embedding = false := by
    rw [hsplit.embedding i hlt]
    exact decide_eq_false (by omega)
  have hbody := roleBody_intermediate (d.env i (withRows d.hp request hidden rows))
    (withRows d.hp request hidden rows)
    (show (d.runtime i).shard.ownsEmbedding = false from hembedding) hlmHead hnext
  have hexecute := hsplit.simulates_executeIntermediate hlt hread (toInt32_idem hrows) hlength
    request.activationPrecision before.seqLen
  refine simulates_weaken (hsplit.simulates_serve hlt rfl hadmission
    (counter_withRows d.hp hidden hinput hrows hcounter) hbody hexecute
    fun caches => satisfies_runLayers_frame (w.context d.hp) _ hidden rows _ caches)
    (fun _ _ h => h) ?_ (fun _ _ h => h) fun _ _ h => h
  rintro response out ⟨step, tensor', rfl, htensor, hlength'⟩
  exact ⟨htensor, by rwa [Int.toNat_natCast]⟩

/-- The last stage executes the end of the whole model. -/
theorem Splits.simulates_executeTerminal (hsplit : Splits d w) (hi : i + 1 = d.partitions.length)
    {tensor : TensorBuffer} (hread : tensorToHiddenF32 d.hp tensor = .ok hidden)
    (hseq : toInt32 (tensor.metadata.shape.getD 1 0) = rows)
    (hlength : hidden.length = rows * d.hp.hiddenSize) {sampling : LlamaSamplingParams F}
    (hgreedy : sampling.enabled = false) (entropy : UInt32) (n : ℕ) :
    Simulates (AgreeOn (· ∈ stageLayers d i) False)
      (executeTerminal (d.runtime i).executor tensor (stageLayers d i) n true true sampling entropy)
      (finishWhole w d.hp (stageLayers d i) hidden rows n) Eq
      (AgreeOn (· ∈ stageLayers d i) False) fun _ _ => True := by
  have hreseed (s t : LlamaCpuExecutor d.hp) (hst : AgreeOn (· ∈ stageLayers d i) False s t) :
      ∃ s', reseed sampling n entropy s = .ok () s' ∧
        AgreeOn (· ∈ stageLayers d i) False s' t := by
    unfold reseed
    split
    · exact ⟨_, rfl, hst.layers, False.elim⟩
    · exact ⟨s, rfl, hst⟩
  intro s t hst
  obtain ⟨s', hrun, hst'⟩ := hreseed s t hst
  unfold executeTerminal
  rw [bind_apply, hrun, hseq, hread]
  refine simulates_bind (hsplit.simulates_runLayers (by omega) n hlength) ?_ s' t hst'
  rintro out _ ⟨rfl, -⟩
  rw [lastRowLogits_congr (d.runtime i).executor (w.context d.hp) rfl (hsplit.normTensor i hi)
    (hsplit.outputTensor i hi)]
  refine simulates_stateless_bind (fun _ _ _ => trivial) fun logits _ => ?_
  intro s t hst
  unfold sampleFromLogits
  rw [hgreedy]
  exact ⟨rfl, hst⟩

/-- The last stage ends the call with the token of the whole model. -/
theorem Splits.simulates_last (hsplit : Splits d w) (horder : InPipelineOrder d settings)
    (hi : i + 1 = d.partitions.length) (hpos : 0 < i)
    (hprecision : ¬IsHalf request.activationPrecision)
    (hgreedy : (samplingParams request : LlamaSamplingParams F).enabled = false)
    (hinput : request.inputTensor = tokenTensor tokens)
    (hcounter : (updateKvCacheForRequest request before).2 = after)
    (hrows : toInt32 tokens.length = rows) (hlength : hidden.length = rows * d.hp.hiddenSize)
    (hboundary : boundaryCheck d.hp rows = .ok ()) :
    Simulates (Progress d request i before after) (d.serve i (withRows d.hp request hidden rows))
      (finishWhole w d.hp (stageLayers d i) hidden rows before.seqLen)
      (fun response token => response.nextTokenId = token)
      (Progress d request (i + 1) before after) fun _ _ => True := by
  have hlt : i < d.partitions.length := by omega
  obtain ⟨hadmission, hread⟩ := hsplit.reads_rows hlt hpos hprecision hlength hboundary
  obtain ⟨hlmHead, hembedding⟩ := horder.last i _ (getElem?_eq_getD hlt) hi
  have hframe (caches : ℤ → LayerKvCache F) : Satisfies (fun e => e.layerCache = caches)
      (finishWhole w d.hp (stageLayers d i) hidden rows before.seqLen)
      (fun _ e => ∀ l ∉ stageLayers d i, e.layerCache l = caches l) fun _ _ => True := by
    refine satisfies_bind (satisfies_runLayers_frame (w.context d.hp) _ hidden rows _ caches)
      fun out => ?_
    exact satisfies_stateless_bind (fun _ _ _ _ => trivial) fun logits _ =>
      satisfies_pure fun _ h => h
  have hbody := roleBody_terminal (d.env i (withRows d.hp request hidden rows))
    (withRows d.hp request hidden rows)
    (show (d.runtime i).shard.ownsEmbedding = false from hembedding) hlmHead (hsplit.norm i hi)
  have hexecute := hsplit.simulates_executeTerminal hi hread (toInt32_idem hrows) hlength hgreedy
    (d.env i (withRows d.hp request hidden rows)).reseedEntropy before.seqLen
  refine simulates_weaken (hsplit.simulates_serve hlt rfl hadmission
    (counter_withRows d.hp hidden hinput hrows hcounter) hbody hexecute hframe)
    (fun _ _ h => h) ?_ (fun _ _ h => h) fun _ _ h => h
  rintro response token ⟨step, token', rfl, rfl⟩
  rfl

end Roles

section Calls

variable {d : Deployment F D} {w : ModelWeights F} {request : RuntimeRequest D}
  {settings : GatewaySettings D} {before after : PartitionKvCacheState} {tokens : List ℤ}

/-- What is passed on is the request of the call with the new rows. -/
theorem responseFrame_withRows (req : RuntimeRequest D) {response : RuntimeResponse}
    {hidden : List F} {rows : ℤ} {tensor : TensorBuffer}
    (hreq : req = { request with inputTensor := tensor })
    (hresponse : response.outputTensor =
      floatHiddenToTensor d.hp hidden 1 rows request.activationPrecision) :
    (responseFrame req response).request = withRows d.hp request hidden rows := by
  subst hreq
  have hshape : response.outputTensor.metadata.shape.isEmpty = false := by
    rw [hresponse]
    rfl
  simp only [responseFrame, hshape, Bool.false_eq_true, if_false, withRows]
  rw [hresponse]

/-- The stages from `i` on finish the call. -/
theorem Splits.simulates_rest (hsplit : Splits d w) (horder : InPipelineOrder d settings) (k : ℕ)
    {i : ℕ} (hi : i + k + 1 = d.partitions.length) (hpos : 0 < i)
    (hprecision : ¬IsHalf request.activationPrecision)
    (hgreedy : (samplingParams request : LlamaSamplingParams F).enabled = false)
    (hinput : request.inputTensor = tokenTensor tokens)
    (hcounter : (updateKvCacheForRequest request before).2 = after) {hidden : List F} {rows : ℕ}
    (hrows : toInt32 tokens.length = rows) (hlength : hidden.length = rows * d.hp.hiddenSize)
    (hboundary : boundaryCheck d.hp rows = .ok ()) :
    Simulates (Progress d request i before after)
      (serveSequence d k i (withRows d.hp request hidden rows))
      (finishWhole w d.hp (layersFrom d i) hidden rows before.seqLen)
      (fun response token => response.nextTokenId = token)
      (Progress d request d.partitions.length before after) fun _ _ => True := by
  induction k generalizing i hidden with
  | zero =>
    have hend : i + 1 = d.partitions.length := by omega
    rw [layersFrom_succ (by omega), hend, layersFrom_end, List.append_nil, ← hend]
    exact hsplit.simulates_last horder hend hpos hprecision hgreedy hinput hcounter hrows hlength
      hboundary
  | succ k ih =>
    rw [layersFrom_succ (by omega), finishWhole_append, serveSequence]
    refine simulates_bind (hsplit.simulates_inner horder (by omega) hpos hprecision hinput hcounter
      hrows hlength hboundary) fun response out hout => ?_
    rw [responseFrame_withRows (withRows d.hp request hidden rows) rfl hout.1]
    exact ih (by omega) (by omega) (by rw [hout.2, Int.toNat_natCast])

omit [FloatArith F] [FloatArith D] in
/-- An accepted number of rows is what the tokens were counted as. -/
theorem rows_of_boundary {hp : LlamaExecutorHyperparams F} {seqLen : ℤ}
    (h : boundaryCheck hp seqLen = .ok ()) : seqLen = (seqLen.toNat : ℤ) := by
  have hpos := (shape_of_validateHiddenStates h).2 seqLen (by simp)
  rw [Int.toNat_of_nonneg hpos.le]

/-- All stages do what the whole model does. -/
theorem Splits.simulates_sequence (hsplit : Splits d w) (horder : InPipelineOrder d settings)
    (hprecision : ¬IsHalf request.activationPrecision)
    (hgreedy : (samplingParams request : LlamaSamplingParams F).enabled = false)
    (hinput : request.inputTensor = tokenTensor tokens)
    (hcounter : (updateKvCacheForRequest request before).2 = after) :
    Simulates (Progress d request 0 before after)
      (serveSequence d (d.partitions.length - 1) 0 request)
      (executeWhole w d.hp tokens before.seqLen)
      (fun response token => response.nextTokenId = token)
      (Progress d request d.partitions.length before after) fun _ _ => True := by
  have hseveral := horder.several
  obtain ⟨k, hk⟩ : ∃ k, d.partitions.length = k + 2 := ⟨d.partitions.length - 2, by omega⟩
  have hcut : stageLayers d 0 ++ layersFrom d 1 = w.layers := by
    rw [← layersFrom_succ (by omega), layersFrom, List.drop_zero, hsplit.layers]
  have hsource := hsplit.simulates_source (by omega) hinput hcounter
  rw [executeWhole_cut hcut, show d.partitions.length - 1 = k + 1 by omega, serveSequence]
  cases hboundary : boundaryCheck d.hp (toInt32 tokens.length) with
  | error message =>
    -- the second stage refuses what the source passes on
    intro states whole hprogress
    have hagree := hsource states whole hprogress
    rw [bind_apply, bind_apply]
    cases hserve : d.serve 0 request states with
    | error message' states' => trivial
    | ok response states' =>
      rw [hserve] at hagree
      cases hbegin : beginWhole w d.hp (stageLayers d 0) tokens before.seqLen whole with
      | error message' whole' =>
        rw [hbegin] at hagree
        exact hagree.elim
      | ok hidden whole' =>
        rw [hbegin] at hagree
        obtain ⟨⟨hresponse, hlength⟩, -⟩ := hagree
        have hrole : (d.partitions.getD 1 noPartition).components.embedding = false := by
          rw [hsplit.embedding 1 (by omega)]
          rfl
        have hadmission : admission (d.runtime 1)
            (withRows d.hp request hidden (toInt32 tokens.length)) = .error message := by
          rw [admission_hiddenTensor rfl hrole (List.cons_ne_nil _ _) (.inl (if_neg hprecision))]
          exact (boundary_eq hprecision hlength).trans hboundary
        obtain ⟨states'', hrefused⟩ := serve_refused hadmission states'
        dsimp only
        rw [responseFrame_withRows request rfl hresponse]
        cases k with
        | zero =>
          rw [serveSequence, hrefused]
          trivial
        | succ k =>
          rw [serveSequence, bind_apply, hrefused]
          trivial
  | ok u =>
    have hrows := rows_of_boundary hboundary
    rw [hrows] at hboundary
    rw [stateless_ok_bind]
    refine simulates_bind hsource fun response hidden hhidden => ?_
    rw [responseFrame_withRows request rfl hhidden.1]
    have hrest := hsplit.simulates_rest horder k (by omega) Nat.one_pos hprecision hgreedy hinput
      hcounter hrows hhidden.2 hboundary
    rwa [← hrows] at hrest

/-- All stages are at the position of the whole model, with its caches. -/
def Synced (d : Deployment F D) (key : Bytes) (states : StageStates d.hp)
    (stored : Option (LlamaRequestSession d.hp)) : Prop :=
  ∃ session, stored = some session ∧ ∀ j < d.partitions.length,
    StageHolds d key j states session.kvCache session.executor.layerCache

/-- The whole model runs the session it opened. -/
theorem wholePipeline_call {call : PipelineCall} {stored : Option (LlamaRequestSession d.hp)}
    {session : LlamaRequestSession d.hp}
    (hopen : openWhole d.hp (wholeRequest D call) stored = .ok session) :
    (wholePipeline D w d.hp).call call stored =
      match executeWhole w d.hp call.tokens session.kvCache.seqLen session.executor with
      | .ok token executor => .ok token
          (some ⟨(updateKvCacheForRequest (wholeRequest D call) session.kvCache).2, executor⟩)
      | .error message executor => .error message
          (some ⟨(updateKvCacheForRequest (wholeRequest D call) session.kvCache).2, executor⟩) := by
  simp only [wholePipeline, hopen, stepSession]
  rw [updateKvCacheForRequest_seqBefore]
  cases executeWhole w d.hp call.tokens session.kvCache.seqLen session.executor <;> rfl

/-- One call, from synced states unless it starts the generation. -/
theorem Splits.simulates_wholeCall (hsplit : Splits d w) (horder : InPipelineOrder d settings)
    (hprecision : ¬IsHalf settings.activationPrecision)
    (hgreedy : FloatArith.lt 0 settings.temperature = false) (requestId : Bytes)
    (call : PipelineCall) :
    Simulates
      (fun states stored => resetsSession (wholeRequest D call) = false →
        Synced d (sessionKey (gatewayFrame settings requestId call).request) states stored)
      (serveSequence d (d.partitions.length - 1) 0 (gatewayFrame settings requestId call).request)
      ((wholePipeline D w d.hp).call call) (fun response token => response.nextTokenId = token)
      (Synced d (sessionKey (gatewayFrame settings requestId call).request)) fun _ _ => True := by
  intro states stored hsynced
  have hseveral := horder.several
  have hresets : resetsSession (gatewayFrame settings requestId call).request =
      resetsSession (wholeRequest D call) := rfl
  -- from here on the session of the whole model is open
  have hopened (session : LlamaRequestSession d.hp)
      (hopen : openWhole d.hp (wholeRequest D call) stored = .ok session)
      (hready : ∀ j < d.partitions.length,
        StageReady d (gatewayFrame settings requestId call).request j states session.kvCache
          session.executor.layerCache) :
      Agree (fun (response : RuntimeResponse) (token : ℕ) => response.nextTokenId = (token : ℤ))
        (Synced d (sessionKey (gatewayFrame settings requestId call).request)) (fun _ _ => True)
        (serveSequence d (d.partitions.length - 1) 0
          (gatewayFrame settings requestId call).request states)
        ((wholePipeline D w d.hp).call call stored) := by
    have hrun := hsplit.simulates_sequence horder
      (show ¬IsHalf (gatewayFrame settings requestId call).request.activationPrecision
        from hprecision)
      (show (samplingParams (gatewayFrame settings requestId call).request :
        LlamaSamplingParams F).enabled = false from hgreedy)
      (show (gatewayFrame settings requestId call).request.inputTensor = tokenTensor call.tokens
        from rfl) rfl states session.executor
      ⟨fun j hj => absurd hj (Nat.not_lt_zero j), fun j _ hj => hready j hj⟩
    rw [wholePipeline_call hopen]
    cases hserve : serveSequence d (d.partitions.length - 1) 0
        (gatewayFrame settings requestId call).request states with
    | ok response states' =>
      rw [hserve] at hrun
      cases hexecute : executeWhole w d.hp call.tokens session.kvCache.seqLen session.executor with
      | ok token executor =>
        rw [hexecute] at hrun
        exact ⟨hrun.1, _, rfl, fun j hj => hrun.2.done j hj⟩
      | error message executor =>
        rw [hexecute] at hrun
        exact hrun.elim
    | error message states' =>
      rw [hserve] at hrun
      cases hexecute : executeWhole w d.hp call.tokens session.kvCache.seqLen session.executor with
      | ok token executor =>
        rw [hexecute] at hrun
        exact hrun.elim
      | error message' executor => trivial
  cases hreset : resetsSession (wholeRequest D call) with
  | false =>
    obtain ⟨session, rfl, hholds⟩ := hsynced hreset
    refine hopened session (by simp only [openWhole, hreset, Bool.false_eq_true, if_false]) ?_
    intro j hj
    unfold StageReady
    rw [hresets, hreset]
    exact hholds j hj
  | true =>
    cases hdims : checkHyperparams d.hp with
    | ok u =>
      refine hopened _ (by simp only [openWhole, hreset, if_true, hdims]; rfl) ?_
      intro j hj
      unfold StageReady
      rw [hresets, hreset]
      exact ⟨hdims, rfl, fun l _ => rfl⟩
    | error message =>
      have hopen : openSession d.hp
          (d.env 0 (gatewayFrame settings requestId call).request)
          (gatewayFrame settings requestId call).request
          ((states 0).lookup (sessionKey (gatewayFrame settings requestId call).request)) =
            .error message none := by
        unfold openSession
        rw [hresets, hreset]
        simp only [if_true, hdims]
      obtain ⟨message', states', hserve⟩ := serve_unopened hopen
      have hwhole : (wholePipeline D w d.hp).call call stored = .error message stored := by
        simp only [wholePipeline, openWhole, hreset, if_true, hdims]
      obtain ⟨k, hk⟩ : ∃ k, d.partitions.length - 1 = k + 1 :=
        ⟨d.partitions.length - 2, by omega⟩
      rw [hk, serveSequence, bind_apply, hserve, hwhole]
      trivial

end Calls

end LayerInference.StageSplits
