import LayerInference.CacheGrowth
import LayerInference.SessionMachine

/-!
# What serving a frame does to a session

The counter of the session moves before anything is executed, so it moves on
both exits. The caches of the owned layers grow to the end of the frame when
the frame succeeds; when it fails they may have grown to any of its rows.
-/

namespace LayerInference.SessionEffects

open ByteStrings FallibleRuns FloatArithmetic TensorAbi CpuExecutor PartitionExecution
  PartialRuntime SessionMachine CacheGrowth

variable {F D G : Type} [FloatArith F] [FloatArith D] [Numerics F D G]

/-- The rows that the executor runs for a frame. -/
def frameRows (tensor : TensorBuffer) : ℕ := (toInt32 (dli2SequenceLength tensor)).toNat

/-- The width of a key or value row. -/
def kvDim (hp : LlamaExecutorHyperparams F) : ℕ := hp.nHeadKv * hp.headDim

/-- The effect of a frame on its session, on either exit. -/
structure FrameEffect (rt : LlamaPartialRuntime F) (request : RuntimeRequest D)
    (before after : LlamaRequestSession rt.executor.hp) : Prop where
  counter : after.kvCache = (updateKvCacheForRequest request before.kvCache).2
  caches : LayersGrown rt.executor rt.shard.layers before.kvCache.seqLen
    (frameRows request.inputTensor) before.executor.layerCache after.executor.layerCache

/-- The effect of a frame that was answered. -/
structure FrameDone (rt : LlamaPartialRuntime F) (request : RuntimeRequest D)
    (before after : LlamaRequestSession rt.executor.hp) (response : RuntimeResponse) : Prop
    extends FrameEffect rt request before after where
  step : response.kvStep = (updateKvCacheForRequest request before.kvCache).1
  done : ∀ l ∈ rt.shard.layers, Grown (kvDim rt.executor.hp)
    (frameEnd before.kvCache.seqLen (frameRows request.inputTensor))
    (before.executor.layerCache l) (after.executor.layerCache l)

/-- A frame of rank two or more has its rows in the second dimension. -/
theorem frameRows_eq {tensor : TensorBuffer} (h : 2 ≤ tensor.metadata.shape.length) :
    frameRows tensor = (toInt32 (tensor.metadata.shape.getD 1 0)).toNat := by
  rw [frameRows, dli2SequenceLength, if_neg (by omega)]

/-- The token count of a decoded frame is its second dimension. -/
theorem tensorToTokenIds_rows {tensor : TensorBuffer} {tokens : List ℤ}
    (h : tensorToTokenIds tensor = .ok tokens) :
    (toInt32 tokens.length).toNat = frameRows tensor := by
  unfold tensorToTokenIds at h
  cases hv : validateTokenIdsTensor tensor with
  | error message =>
    rw [hv] at h
    cases h
  | ok u =>
    obtain ⟨hrank, hpos⟩ := shape_of_validateTokenIds hv
    rw [hv] at h
    simp only [bind, Except.bind] at h
    split at h
    · cases h
    · have hseq : 0 < tensor.metadata.shape.getD 1 0 := by
        rw [List.getD_eq_getElem _ _ (by omega)]
        exact hpos _ (List.getElem_mem _)
      rw [frameRows_eq (by omega), length_of_mapM h, List.length_range,
        Int.toNat_of_nonneg hseq.le]

section Executions

variable {context : ExecutorContext F} {layers : List ℤ} {n : ℕ} {caches : ℤ → LayerKvCache F}
variable {Done Reached : (ℤ → LayerKvCache F) → Prop}

/-- The hidden rows with which a source enters its first layer. -/
def sourceHidden (context : ExecutorContext F) (tokenIds : TensorBuffer) :
    Except Bytes (List F) := do
  let tokens ← tensorToTokenIds tokenIds
  embedTokens context tokens (toInt32 tokens.length)

/-- What the layers do to the caches is what the source does to them. -/
theorem satisfies_executeSource (tokenIds : TensorBuffer) (precision : Bytes)
    (hfail : ∀ message, sourceHidden context tokenIds = .error message → Reached caches)
    (hpass : ∀ hidden, sourceHidden context tokenIds = .ok hidden →
      Satisfies (fun s => s.layerCache = caches)
        (runLayers context layers hidden (frameRows tokenIds) n)
        (fun _ s => Done s.layerCache) (fun _ s => Reached s.layerCache)) :
    Satisfies (fun s => s.layerCache = caches) (executeSource context tokenIds layers n precision)
      (fun _ s => Done s.layerCache) (fun _ s => Reached s.layerCache) := by
  refine satisfies_stateless_bind (fun message s h hs => ?_) fun tokens htokens => ?_
  · rw [hs]
    exact hfail message (by simp only [sourceHidden, h, bind, Except.bind])
  have hhidden : sourceHidden context tokenIds =
      embedTokens context tokens (toInt32 tokens.length) := by
    simp only [sourceHidden, htokens, bind, Except.bind]
  dsimp only
  rw [tensorToTokenIds_rows htokens]
  refine satisfies_stateless_bind (fun message s h hs => ?_) fun embedded hembedded => ?_
  · rw [hs]
    exact hfail message (hhidden.trans h)
  exact satisfies_bind (hpass embedded (hhidden.trans hembedded))
    fun hidden => satisfies_pure fun _ hs => hs

theorem satisfies_executeIntermediate (hiddenStates : TensorBuffer) (precision : Bytes)
    (hrank : 2 ≤ hiddenStates.metadata.shape.length)
    (hfail : ∀ message, tensorToHiddenF32 context.hp hiddenStates = .error message →
      Reached caches)
    (hpass : ∀ hidden, tensorToHiddenF32 context.hp hiddenStates = .ok hidden →
      Satisfies (fun s => s.layerCache = caches)
        (runLayers context layers hidden (frameRows hiddenStates) n)
        (fun _ s => Done s.layerCache) (fun _ s => Reached s.layerCache)) :
    Satisfies (fun s => s.layerCache = caches)
      (executeIntermediate context hiddenStates layers n precision)
      (fun _ s => Done s.layerCache) (fun _ s => Reached s.layerCache) := by
  unfold executeIntermediate
  dsimp only
  rw [← frameRows_eq hrank]
  refine satisfies_stateless_bind (fun message s h hs => ?_) fun decoded hdecoded => ?_
  · rw [hs]
    exact hfail message h
  exact satisfies_bind (hpass decoded hdecoded) fun hidden => satisfies_pure fun _ hs => hs

/-- Reseeding does not touch the caches. -/
theorem satisfies_reseed (sampling : LlamaSamplingParams F) (entropy : UInt32)
    {E : Bytes → LlamaCpuExecutor context.hp → Prop} :
    Satisfies (fun s => s.layerCache = caches) (reseed sampling n entropy)
      (fun _ s => s.layerCache = caches) E := by
  intro s hs
  unfold reseed
  cases sampling.hasSeed && n == 0 <;> exact hs

/-- Picking a token does not touch the caches. -/
theorem satisfies_sampleFromLogits (logits : List F) (sampling : LlamaSamplingParams F)
    {P : (ℤ → LayerKvCache F) → Prop} {E : Bytes → LlamaCpuExecutor context.hp → Prop} :
    Satisfies (fun s => P s.layerCache) (sampleFromLogits logits sampling)
      (fun _ s => P s.layerCache) E := by
  intro s hs
  unfold sampleFromLogits
  cases !sampling.enabled || FloatArith.le sampling.temperature 0 <;> exact hs

/-- A terminal partition can still fail after its layers. -/
theorem satisfies_executeTerminal (hiddenStates : TensorBuffer) (ownsNorm ownsLmHead : Bool)
    (sampling : LlamaSamplingParams F) (entropy : UInt32)
    (hrank : 2 ≤ hiddenStates.metadata.shape.length) (hdone : ∀ c, Done c → Reached c)
    (hfail : ∀ message, tensorToHiddenF32 context.hp hiddenStates = .error message →
      Reached caches)
    (hpass : ∀ hidden, tensorToHiddenF32 context.hp hiddenStates = .ok hidden →
      Satisfies (fun s => s.layerCache = caches)
        (runLayers context layers hidden (frameRows hiddenStates) n)
        (fun _ s => Done s.layerCache) (fun _ s => Reached s.layerCache)) :
    Satisfies (fun s => s.layerCache = caches)
      (executeTerminal context hiddenStates layers n ownsNorm ownsLmHead sampling entropy)
      (fun _ s => Done s.layerCache) (fun _ s => Reached s.layerCache) := by
  unfold executeTerminal
  refine satisfies_bind (satisfies_reseed sampling entropy) fun _ => ?_
  dsimp only
  rw [← frameRows_eq hrank]
  refine satisfies_stateless_bind (fun message s h hs => ?_) fun decoded hdecoded => ?_
  · rw [hs]
    exact hfail message h
  refine satisfies_bind (hpass decoded hdecoded) fun hidden => ?_
  refine satisfies_stateless_bind (fun _ s _ hs => hdone _ hs) fun logits _ => ?_
  exact satisfies_sampleFromLogits logits sampling (P := Done)

end Executions

section Roles

variable {rt : LlamaPartialRuntime F} {request : RuntimeRequest D}
variable {Done Reached : (ℤ → LayerKvCache F) → Prop}

/-- The hidden rows with which a frame enters the first layer of a stage. -/
def frameHidden (rt : LlamaPartialRuntime F) (tensor : TensorBuffer) : Except Bytes (List F) :=
  if rt.shard.ownsEmbedding then sourceHidden rt.executor tensor
  else tensorToHiddenF32 rt.executor.hp tensor

/-- The counter moves on both exits of a step. -/
theorem satisfies_stepSession {α : Type} (session : LlamaRequestSession rt.executor.hp)
    {execute : ℕ → ExecM rt.executor.hp α}
    (h : Satisfies (fun s => s.layerCache = session.executor.layerCache)
      (execute session.kvCache.seqLen)
      (fun _ s => Done s.layerCache) (fun _ s => Reached s.layerCache)) :
    Satisfies (fun before => before = session) (stepSession request execute)
      (fun r after => r.1 = (updateKvCacheForRequest request session.kvCache).1 ∧
        after.kvCache = (updateKvCacheForRequest request session.kvCache).2 ∧
        Done after.executor.layerCache)
      (fun _ after => after.kvCache = (updateKvCacheForRequest request session.kvCache).2 ∧
        Reached after.executor.layerCache) := by
  rintro before rfl
  have hrun := h before.executor rfl
  unfold stepSession
  dsimp only
  rw [updateKvCacheForRequest_seqBefore]
  cases hexec : execute before.kvCache.seqLen before.executor with
  | ok result executor =>
    rw [hexec] at hrun
    exact ⟨rfl, rfl, hrun⟩
  | error message executor =>
    rw [hexec] at hrun
    exact ⟨rfl, hrun⟩

/-- The effect of a role on its session from the effect of the layers. -/
theorem satisfies_roleBody_layers (Done Reached : (ℤ → LayerKvCache F) → Prop) (env : ForwardEnv)
    (hrank : 2 ≤ request.inputTensor.metadata.shape.length)
    (session : LlamaRequestSession rt.executor.hp) (hdone : ∀ c, Done c → Reached c)
    (hfail : ∀ message, frameHidden rt request.inputTensor = .error message →
      Reached session.executor.layerCache)
    (hpass : ∀ hidden, frameHidden rt request.inputTensor = .ok hidden →
      Satisfies (fun s => s.layerCache = session.executor.layerCache)
        (runLayers rt.executor rt.shard.layers hidden (frameRows request.inputTensor)
          session.kvCache.seqLen)
        (fun _ s => Done s.layerCache) (fun _ s => Reached s.layerCache)) :
    Satisfies (fun before => before = session) (roleBody rt env request)
      (fun response after =>
        response.kvStep = (updateKvCacheForRequest request session.kvCache).1 ∧
        after.kvCache = (updateKvCacheForRequest request session.kvCache).2 ∧
        Done after.executor.layerCache)
      (fun _ after => after.kvCache = (updateKvCacheForRequest request session.kvCache).2 ∧
        Reached after.executor.layerCache) := by
  unfold roleBody
  split
  · next hsource =>
    simp only [frameHidden, hsource, if_true] at hfail hpass
    exact satisfies_bind
      (satisfies_stepSession session (satisfies_executeSource _ _ hfail hpass))
      fun r => satisfies_pure fun _ h => h
  · next hsource =>
    simp only [frameHidden, hsource, Bool.false_eq_true, if_false] at hfail hpass
    split
    · exact satisfies_bind
        (satisfies_stepSession session
          (satisfies_executeTerminal _ _ _ _ _ hrank hdone hfail hpass))
        fun r => satisfies_pure fun _ h => h
    · exact satisfies_bind
        (satisfies_stepSession session (satisfies_executeIntermediate _ _ hrank hfail hpass))
        fun r => satisfies_pure fun _ h => h

end Roles

omit [FloatArith F] [FloatArith D] in
/-- The shape of an admitted frame. -/
theorem shape_of_admission {rt : LlamaPartialRuntime F} {request : RuntimeRequest D}
    (h : admission rt request = .ok ()) : 2 ≤ request.inputTensor.metadata.shape.length ∧
      ∀ dim ∈ request.inputTensor.metadata.shape, 0 < dim := by
  unfold admission at h
  split at h
  · cases h
  · unfold validateRuntimeRequestMatchesPartition at h
    cases hk : inferDli2PayloadKind request.inputTensor with
    | error message =>
      rw [hk] at h
      cases h
    | ok kind =>
      rw [hk] at h
      simp only [bind, Except.bind] at h
      split at h
      · split at h
        · cases h
        · obtain ⟨hrank, hpos⟩ := shape_of_validateTokenIds h
          exact ⟨hrank.ge, hpos⟩
      · split at h
        · cases h
        · obtain ⟨hrank, hpos⟩ := shape_of_validateHiddenStates h
          exact ⟨by omega, hpos⟩

omit [FloatArith F] [FloatArith D] in
theorem rank_of_admission {rt : LlamaPartialRuntime F} {request : RuntimeRequest D}
    (h : admission rt request = .ok ()) : 2 ≤ request.inputTensor.metadata.shape.length :=
  (shape_of_admission h).1

omit [FloatArith F] [FloatArith D] in
/-- An admitted frame has at least one row. -/
theorem seq_pos_of_admission {rt : LlamaPartialRuntime F} {request : RuntimeRequest D}
    (h : admission rt request = .ok ()) : 0 < dli2SequenceLength request.inputTensor := by
  obtain ⟨hrank, hpos⟩ := shape_of_admission h
  rw [dli2SequenceLength, if_neg (by omega), List.getD_eq_getElem _ _ (by omega)]
  exact hpos _ (List.getElem_mem _)

/-- The effect of a role on an open session, once the frame is admitted. -/
theorem satisfies_roleBody {rt : LlamaPartialRuntime F} (env : ForwardEnv)
    {request : RuntimeRequest D} (hadmission : admission rt request = .ok ())
    (session : LlamaRequestSession rt.executor.hp) :
    Satisfies (fun before => before = session) (roleBody rt env request)
      (fun response after => FrameDone rt request session after response)
      (fun _ after => FrameEffect rt request session after) := by
  let rows := frameRows request.inputTensor
  let n := session.kvCache.seqLen
  let caches := session.executor.layerCache
  have hlayers := satisfies_roleBody_layers
    (fun c => LayersGrown rt.executor rt.shard.layers n rows caches c ∧
      ∀ l ∈ rt.shard.layers, Grown (kvDim rt.executor.hp) (frameEnd n rows) (caches l) (c l))
    (LayersGrown rt.executor rt.shard.layers n rows caches) env (rank_of_admission hadmission) session
    (fun c h => h.1) (fun _ _ => .refl _ _ _ _ _)
    fun hidden _ => satisfies_runLayers rt.executor rt.shard.layers caches hidden rows n
  refine satisfies_weaken hlayers (fun _ h => h) (fun response after h => ?_)
    fun _ after h => ⟨h.1, h.2⟩
  obtain ⟨hstep, hcounter, hgrown, hend⟩ := h
  exact ⟨⟨hcounter, hgrown⟩, hstep, hend⟩

/-- The session that a frame is executed on. -/
def openedSession (rt : LlamaPartialRuntime F) (env : ForwardEnv) (request : RuntimeRequest D)
    (stored : Option (LlamaRequestSession rt.executor.hp)) : LlamaRequestSession rt.executor.hp :=
  if resetsSession request then .fresh rt.executor.hp env.executorEntropy
  else stored.getD (.fresh rt.executor.hp env.executorEntropy)

/-- Opening a session either fails without one or leads to this session. -/
theorem openSession_cases (rt : LlamaPartialRuntime F) (env : ForwardEnv)
    (request : RuntimeRequest D) (stored : Option (LlamaRequestSession rt.executor.hp)) :
    openSession rt.executor.hp env request stored =
        .ok () (some (openedSession rt env request stored)) ∨
      ((resetsSession request = true ∨ stored = none) ∧
        ∃ message, checkHyperparams rt.executor.hp = .error message ∧
          openSession rt.executor.hp env request stored = .error message none) := by
  unfold openSession openedSession
  cases resetsSession request with
  | true =>
    cases hcheck : checkHyperparams rt.executor.hp with
    | error message => exact .inr ⟨.inl rfl, message, rfl, rfl⟩
    | ok u => exact .inl rfl
  | false =>
    cases stored with
    | none =>
      cases hcheck : checkHyperparams rt.executor.hp with
      | error message => exact .inr ⟨.inr rfl, message, rfl, rfl⟩
      | ok u => exact .inl rfl
    | some session => exact .inl rfl

/-- An admitted frame with an open session runs the body of its role. -/
theorem serveSession_of_open {rt : LlamaPartialRuntime F} {env : ForwardEnv}
    {request : RuntimeRequest D} {stored : Option (LlamaRequestSession rt.executor.hp)}
    (hadmission : admission rt request = .ok ())
    (hopen : openSession rt.executor.hp env request stored =
      .ok () (some (openedSession rt env request stored))) :
    serveSession rt env request stored =
      mapState some (roleBody rt env request (openedSession rt env request stored)) := by
  rw [serveSession, hadmission, bind_apply, stateless_ok]
  dsimp only
  rw [bind_apply, hopen]
  dsimp only
  rw [onPart_apply]
  rfl

/-- The frame is refused before it has a session to run on. -/
def Refused (rt : LlamaPartialRuntime F) (request : RuntimeRequest D)
    (stored : Option (LlamaRequestSession rt.executor.hp)) : Prop :=
  (∃ message, admission rt request = .error message) ∨
    (stored = none ∧ ∃ message, checkHyperparams rt.executor.hp = .error message)

/-- A refused frame leaves what is stored; any other frame runs its role. -/
theorem serveSession_cases {rt : LlamaPartialRuntime F} (env : ForwardEnv)
    {request : RuntimeRequest D} (stored : Option (LlamaRequestSession rt.executor.hp))
    (hcontinues : resetsSession request = false) :
    (Refused rt request stored ∧ ∃ message, serveSession rt env request stored =
        .error message stored) ∨
      (¬Refused rt request stored ∧ admission rt request = .ok () ∧
        serveSession rt env request stored =
          mapState some (roleBody rt env request (openedSession rt env request stored))) := by
  cases hadmission : admission rt request with
  | error message =>
    refine .inl ⟨.inl ⟨message, hadmission⟩, message, ?_⟩
    rw [serveSession, hadmission, bind_apply, stateless_error]
  | ok u =>
    have hadmitted : ¬∃ message, admission rt request = .error message := by
      rintro ⟨message, h⟩
      rw [hadmission] at h
      cases h
    rcases openSession_cases rt env request stored with hopen | ⟨hmissing, message, hcheck, hopen⟩
    · refine .inr ⟨?_, rfl, serveSession_of_open hadmission hopen⟩
      rintro (h | ⟨rfl, message, hcheck⟩)
      · exact hadmitted h
      · simp only [openSession, hcontinues, Bool.false_eq_true, if_false, hcheck] at hopen
        cases hopen
    · have hnone : stored = none := by
        rcases hmissing with hreset | hnone
        · rw [hcontinues] at hreset
          cases hreset
        · exact hnone
      refine .inl ⟨.inr ⟨hnone, message, hcheck⟩, message, ?_⟩
      rw [serveSession, hadmission, bind_apply, stateless_ok]
      dsimp only
      rw [bind_apply, hopen, hnone]

/-- An answered frame had its full effect on the session it was executed on. -/
theorem serveSession_ok {rt : LlamaPartialRuntime F} {env : ForwardEnv}
    {request : RuntimeRequest D} {stored after : Option (LlamaRequestSession rt.executor.hp)}
    {response : RuntimeResponse} (h : serveSession rt env request stored = .ok response after) :
    ∃ session, after = some session ∧
      FrameDone rt request (openedSession rt env request stored) session response := by
  cases hadmission : admission rt request with
  | error message =>
    rw [serveSession, hadmission, bind_apply, stateless_error] at h
    cases h
  | ok u =>
    rcases openSession_cases rt env request stored with hopen | ⟨-, message, -, hopen⟩
    · have heffect := satisfies_roleBody env hadmission (openedSession rt env request stored) _ rfl
      rw [serveSession_of_open hadmission hopen] at h
      cases hrun : roleBody rt env request (openedSession rt env request stored) with
      | ok response' session =>
        rw [hrun] at h heffect
        cases h
        exact ⟨session, rfl, heffect⟩
      | error message session =>
        rw [hrun] at h
        cases h
    · rw [serveSession, hadmission, bind_apply, stateless_ok] at h
      dsimp only at h
      rw [bind_apply, hopen] at h
      cases h

end LayerInference.SessionEffects
