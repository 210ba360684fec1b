import LayerInference.SessionEffects
import LayerInference.SessionIsolation

/-!
# What a failed frame leaves behind

A frame that fails does not always leave its session as it was. The counter
moves before the executor looks at the tensor, and a layer keeps the rows it
stored before a later row or layer failed. The counters of the session are
kept when the frame is refused before its session, or when it neither counts
nor stores anything. The position of the first stored row decides, and it is
known from the input.
-/

namespace LayerInference.FailedForward

open ByteStrings FallibleRuns FlatVectors FloatArithmetic TensorAbi CpuExecutor PartitionExecution
  PartialRuntime SessionMachine CacheGrowth SessionEffects SessionIsolation ZeroModel

variable {F D G : Type} [FloatArith F] [FloatArith D] [Numerics F D G]

/-- The position counter of a session and the lengths of its layer caches. -/
@[ext] structure SessionCounters where
  seqLen : ℕ
  valid : Bool
  layerSeqLen : ℤ → ℕ

/-- The counters of a stored session. A session that is missing counts as new. -/
def countersOf {hp : LlamaExecutorHyperparams F} :
    Option (LlamaRequestSession hp) → SessionCounters
  | none => ⟨0, true, fun _ => 0⟩
  | some session => ⟨session.kvCache.seqLen, session.kvCache.valid,
      fun l => (session.executor.layerCache l).seqLen⟩

/-- The mode and the row count of the frame fit together. -/
def Advances (request : RuntimeRequest D) : Prop :=
  let inputSeq := toInt32 (dli2SequenceLength request.inputTensor)
  (request.generationMode = ascii "prefill" ∧ 0 < inputSeq) ∨
    (request.generationMode = ascii "decode" ∧ inputSeq = 1)

/-- The frame is not counted and has nothing left to invalidate. -/
def CounterKept (request : RuntimeRequest D) (counters : SessionCounters) : Prop :=
  request.kvCacheEnabled = false ∨ (counters.valid = false ∧ ¬Advances request)

/-- What the first row of the first layer needs before it is stored. -/
def firstRow (context : ExecutorContext F) (hidden : List F) : List ℤ → Except Bytes Unit
  | [] => .ok ()
  | layerId :: _ => do
    let attnNormWeight ← tensorVectorToFloat context.tensorContext
      (layerPrefix layerId ++ ascii "attn_norm.weight") context.hp.hiddenSize
    let _ ← tensorVectorToFloat context.tensorContext
      (layerPrefix layerId ++ ascii "ffn_norm.weight") context.hp.hiddenSize
    appendInputs context layerId attnNormWeight (slice hidden 0 context.hp.hiddenSize)

theorem firstRow_cons (context : ExecutorContext F) (hidden : List F) (layerId : ℤ)
    (layers : List ℤ) :
    firstRow context hidden (layerId :: layers) =
      (tensorVectorToFloat context.tensorContext (layerPrefix layerId ++ ascii "attn_norm.weight")
        context.hp.hiddenSize).bind fun attnNormWeight =>
      (tensorVectorToFloat context.tensorContext (layerPrefix layerId ++ ascii "ffn_norm.weight")
        context.hp.hiddenSize).bind fun _ =>
      appendInputs context layerId attnNormWeight (slice hidden 0 context.hp.hiddenSize) := rfl

/-- What a frame needs before its first row is stored. -/
def firstAppend (rt : LlamaPartialRuntime F) (tensor : TensorBuffer) : Except Bytes Unit := do
  let hidden ← frameHidden rt tensor
  firstRow rt.executor hidden rt.shard.layers

/-- The frame fails before its first row is stored, or its rows are all below
the ends of the caches. -/
def CachesKept (rt : LlamaPartialRuntime F) (tensor : TensorBuffer) (counters : SessionCounters) :
    Prop :=
  (∃ message, firstAppend rt tensor = .error message) ∨
    ∀ l ∈ rt.shard.layers, frameEnd counters.seqLen (frameRows tensor) ≤ counters.layerSeqLen l

/-- The first row is below the end of its cache, but some row is not. -/
def PartlyCovered (rt : LlamaPartialRuntime F) (tensor : TensorBuffer)
    (counters : SessionCounters) : Prop :=
  (∀ l ∈ rt.shard.layers.head?, counters.seqLen < counters.layerSeqLen l) ∧
    ∃ l ∈ rt.shard.layers, counters.layerSeqLen l < frameEnd counters.seqLen (frameRows tensor)

omit [FloatArith D] in
/-- The counter update changes nothing exactly when the counter is kept. -/
theorem updateKvCacheForRequest_kept_iff (request : RuntimeRequest D)
    (kvCache : PartitionKvCacheState) (layerSeqLen : ℤ → ℕ) :
    (updateKvCacheForRequest request kvCache).2 = kvCache ↔
      CounterKept request ⟨kvCache.seqLen, kvCache.valid, layerSeqLen⟩ := by
  have hmode : ascii "decode" ≠ ascii "prefill" := by decide
  obtain ⟨seqLen, valid⟩ := kvCache
  unfold CounterKept updateKvCacheForRequest Advances
  dsimp only
  generalize toInt32 (dli2SequenceLength request.inputTensor) = inputSeq
  cases request.kvCacheEnabled with
  | false => simp
  | true =>
    by_cases hprefill : request.generationMode = ascii "prefill"
    · have hnot : ¬request.generationMode = ascii "decode" := fun h => hmode (h.symm.trans hprefill)
      by_cases hseq : inputSeq ≤ 0
      · have hge : ¬0 < inputSeq := by omega
        simp [hprefill, hseq, hge, hmode.symm, eq_comm]
      · have hgt : 0 < inputSeq := by omega
        simp [hprefill, hseq, hgt]
    · by_cases hdecode : request.generationMode = ascii "decode"
      · by_cases hseq : inputSeq = 1
        · simp [hdecode, hseq, hmode]
        · simp [hdecode, hseq, hmode, eq_comm]
      · simp [hprefill, hdecode, eq_comm]

section FirstRow

variable {context : ExecutorContext F} {layerId : ℤ} {m n : ℕ}

/-- A cache never gets shorter. -/
theorem satisfies_runRow_longer (l layerId : ℤ) (attnNormWeight ffnNormWeight x : List F)
    (position : ℕ) :
    Satisfies (fun s => m ≤ (s.layerCache l).seqLen)
      (runRow context layerId attnNormWeight ffnNormWeight x position)
      (fun _ s => m ≤ (s.layerCache l).seqLen) (fun _ s => m ≤ (s.layerCache l).seqLen) := by
  intro s hs
  have hstored (s' : LlamaCpuExecutor context.hp)
      (h : Stored context s.layerCache layerId (position + 1) s') :
      m ≤ (s'.layerCache l).seqLen := by
    obtain ⟨cache, hcache, hgrown⟩ := h
    rw [hcache]
    by_cases hl : l = layerId
    · subst hl
      rw [Function.update_self, hgrown.seqLen]
      omega
    · rwa [Function.update_of_ne hl]
  have hrow := satisfies_runRow layerId attnNormWeight ffnNormWeight x position s rfl
  cases hrun : runRow context layerId attnNormWeight ffnNormWeight x position s with
  | ok row s' =>
    rw [hrun] at hrow
    exact hstored s' hrow.2
  | error message s' =>
    rw [hrun] at hrow
    rcases hrow with ⟨hkept, -⟩ | ⟨-, hrow⟩
    · dsimp only
      rwa [hkept]
    · exact hstored s' hrow

theorem satisfies_runLayer_longer (l layerId : ℤ) (input : List F) (rows : ℕ) :
    Satisfies (fun s => m ≤ (s.layerCache l).seqLen) (runLayer context layerId input rows n)
      (fun _ s => m ≤ (s.layerCache l).seqLen) (fun _ s => m ≤ (s.layerCache l).seqLen) := by
  unfold runLayer
  dsimp only
  refine satisfies_stateless_bind (fun _ _ _ hs => hs) fun attnNorm _ => ?_
  refine satisfies_stateless_bind (fun _ _ _ hs => hs) fun ffnNorm _ => ?_
  refine satisfies_foldlM (I := fun _ (s : LlamaCpuExecutor context.hp) =>
    m ≤ (s.layerCache l).seqLen) (fun output t _ => ?_) input
  exact satisfies_bind (satisfies_runRow_longer l layerId attnNorm ffnNorm _ _)
    fun row => satisfies_pure fun _ hs => hs

/-- A row that has its inputs is stored. -/
theorem satisfies_runRow_stored {attnNormWeight x : List F} (ffnNormWeight : List F)
    {position : ℕ} (happend : appendInputs context layerId attnNormWeight x = .ok ()) :
    Satisfies (fun _ => True) (runRow context layerId attnNormWeight ffnNormWeight x position)
      (fun _ s => position + 1 ≤ (s.layerCache layerId).seqLen)
      (fun _ s => position + 1 ≤ (s.layerCache layerId).seqLen) := by
  rintro s -
  have hstored (s' : LlamaCpuExecutor context.hp)
      (h : Stored context s.layerCache layerId (position + 1) s') :
      position + 1 ≤ (s'.layerCache layerId).seqLen := by
    obtain ⟨cache, hcache, hgrown⟩ := h
    rw [hcache, Function.update_self, hgrown.seqLen]
    omega
  have hrow := satisfies_runRow layerId attnNormWeight ffnNormWeight x position s rfl
  rw [happend] at hrow
  cases hrun : runRow context layerId attnNormWeight ffnNormWeight x position s with
  | ok row s' =>
    rw [hrun] at hrow
    exact hstored s' hrow.2
  | error message s' =>
    rw [hrun] at hrow
    rcases hrow with ⟨-, message, h⟩ | ⟨-, h⟩
    · cases h
    · exact hstored s' h

/-- Once the first row of the first layer has its inputs, it is stored. -/
theorem satisfies_runLayers_first {layers : List ℤ} {hidden : List F} {rows : ℕ}
    (hfirst : firstRow context hidden (layerId :: layers) = .ok ()) :
    Satisfies (fun _ => True) (runLayers context (layerId :: layers) hidden (rows + 1) n)
      (fun _ s => n + 1 ≤ (s.layerCache layerId).seqLen)
      (fun _ s => n + 1 ≤ (s.layerCache layerId).seqLen) := by
  let Longer (s : LlamaCpuExecutor context.hp) : Prop := n + 1 ≤ (s.layerCache layerId).seqLen
  rw [firstRow_cons] at hfirst
  unfold runLayers
  rw [List.foldlM_cons]
  -- The later layers and the later rows do not shorten the cache again.
  refine satisfies_bind (Q := fun _ => Longer) ?_ fun hidden' =>
    satisfies_foldlM (I := fun _ => Longer)
      (fun b l _ => satisfies_runLayer_longer layerId l b (rows + 1)) hidden'
  unfold runLayer
  dsimp only
  refine satisfies_stateless_bind (fun _ _ h => ?_) fun attnNorm hattn => ?_
  · rw [h] at hfirst
    cases hfirst
  refine satisfies_stateless_bind (fun _ _ h => ?_) fun ffnNorm hffn => ?_
  · rw [hattn, h] at hfirst
    cases hfirst
  rw [hattn, hffn] at hfirst
  rw [List.range_succ_eq_map, List.foldlM_cons, Nat.zero_mul]
  refine satisfies_bind (Q := fun _ => Longer) ?_ fun output =>
    satisfies_foldlM (I := fun _ => Longer) (fun b t _ =>
      satisfies_bind (satisfies_runRow_longer layerId layerId _ _ _ _)
        fun row => satisfies_pure fun _ hs => hs) output
  exact satisfies_bind (satisfies_runRow_stored ffnNorm hfirst)
    fun row => satisfies_pure fun _ hs => hs

/-- Without these inputs the layers fail and store nothing. -/
theorem satisfies_runLayers_refused {layers : List ℤ} {hidden : List F} {rows : ℕ}
    {message : Bytes} {caches : ℤ → LayerKvCache F}
    (hfirst : firstRow context hidden layers = .error message) :
    Satisfies (fun s => s.layerCache = caches) (runLayers context layers hidden (rows + 1) n)
      (fun _ _ => False) (fun _ s => s.layerCache = caches) := by
  cases layers with
  | nil => cases hfirst
  | cons layerId layers =>
    rw [firstRow_cons] at hfirst
    unfold runLayers runLayer
    rw [List.foldlM_cons]
    refine satisfies_bind (Q := fun _ _ => False) ?_ fun hidden' s hs => hs.elim
    dsimp only
    refine satisfies_stateless_bind (fun _ _ _ hs => hs) fun attnNorm hattn => ?_
    refine satisfies_stateless_bind (fun _ _ _ hs => hs) fun ffnNorm hffn => ?_
    rw [hattn, hffn] at hfirst
    simp only [Except.bind] at hfirst
    rw [List.range_succ_eq_map, List.foldlM_cons, Nat.zero_mul]
    refine satisfies_bind (Q := fun _ _ => False) ?_ fun output s hs => hs.elim
    refine satisfies_bind (Q := fun _ _ => False) ?_ fun output s hs => hs.elim
    refine satisfies_weaken (satisfies_runRow layerId attnNorm ffnNorm _ _) (fun _ hs => hs)
      (fun _ s hs => ?_) fun _ s hs => ?_
    · rw [hfirst] at hs
      cases hs.1
    · rw [hfirst] at hs
      rcases hs with ⟨hkept, -⟩ | ⟨h, -⟩
      · exact hkept
      · cases h

end FirstRow

theorem frameEnd_zero (n : ℕ) : frameEnd n 0 = 0 := if_pos rfl

theorem frameEnd_mono {n t rows : ℕ} (h : t ≤ rows) : frameEnd n t ≤ frameEnd n rows := by
  unfold frameEnd
  split <;> split <;> omega

omit [FloatArith F] in
/-- Rows below the end of every cache change no length. -/
theorem LayersGrown.seqLen_of_covered {context : ExecutorContext F} {layers : List ℤ} {n rows : ℕ}
    {before after : ℤ → LayerKvCache F} (h : LayersGrown context layers n rows before after)
    (hcovered : ∀ l ∈ layers, frameEnd n rows ≤ (before l).seqLen) (l : ℤ) :
    (after l).seqLen = (before l).seqLen := by
  by_cases hl : l ∈ layers
  · obtain ⟨t, ht, hgrown⟩ := h.grown l
    have hend := (frameEnd_mono ht).trans (hcovered l hl)
    rw [hgrown.seqLen]
    omega
  · rw [h.frame l hl]

/-- The frame is refused before its session, or neither counts nor stores. -/
def Untouched (rt : LlamaPartialRuntime F) (request : RuntimeRequest D)
    (stored : Option (LlamaRequestSession rt.executor.hp)) : Prop :=
  Refused rt request stored ∨
    (CounterKept request (countersOf stored) ∧
      CachesKept rt request.inputTensor (countersOf stored))

/-- A missing session has the counters of a new one. -/
theorem countersOf_openedSession (rt : LlamaPartialRuntime F) (env : ForwardEnv)
    {request : RuntimeRequest D} (stored : Option (LlamaRequestSession rt.executor.hp))
    (hcontinues : resetsSession request = false) :
    countersOf (some (openedSession rt env request stored)) = countersOf stored := by
  rw [openedSession, hcontinues]
  cases stored <;> rfl

section FailedBody

variable {rt : LlamaPartialRuntime F} {env : ForwardEnv} {request : RuntimeRequest D}
variable {before after : LlamaRequestSession rt.executor.hp} {message : Bytes}

/-- A failed frame that stores nothing keeps the lengths of the caches. -/
theorem layerSeqLen_of_cachesKept (hadmission : admission rt request = .ok ())
    (hrun : roleBody rt env request before = .error message after)
    (hkept : CachesKept rt request.inputTensor (countersOf (some before))) (l : ℤ) :
    (after.executor.layerCache l).seqLen = (before.executor.layerCache l).seqLen := by
  have heffect := satisfies_roleBody env hadmission before before rfl
  rw [hrun] at heffect
  rcases hkept with ⟨reason, hfirst⟩ | hcovered
  · cases hrows : frameRows request.inputTensor with
    | zero =>
      refine LayersGrown.seqLen_of_covered heffect.caches (fun l _ => ?_) l
      rw [hrows, frameEnd_zero]
      exact Nat.zero_le _
    | succ rows =>
      have hsame := satisfies_roleBody_layers (fun _ => False)
        (fun caches => caches = before.executor.layerCache) env (rank_of_admission hadmission) before
        (fun _ h => h.elim) (fun _ _ => rfl) (fun hidden hhidden => by
          rw [hrows]
          rw [firstAppend, hhidden] at hfirst
          exact satisfies_runLayers_refused hfirst) before rfl
      rw [hrun] at hsame
      rw [hsame.2]
  · exact LayersGrown.seqLen_of_covered heffect.caches hcovered l

/-- A failed frame that stored its first row past the end of the cache shows. -/
theorem lt_layerSeqLen_of_firstAppend (hadmission : admission rt request = .ok ())
    (hrun : roleBody rt env request before = .error message after) {layerId : ℤ}
    {layers : List ℤ} (hlayers : rt.shard.layers = layerId :: layers)
    (hfirst : firstAppend rt request.inputTensor = .ok ()) {rows : ℕ}
    (hrows : frameRows request.inputTensor = rows + 1) :
    before.kvCache.seqLen < (after.executor.layerCache layerId).seqLen := by
  let Longer (caches : ℤ → LayerKvCache F) : Prop :=
    before.kvCache.seqLen + 1 ≤ (caches layerId).seqLen
  have hstored := satisfies_roleBody_layers Longer Longer env (rank_of_admission hadmission) before
    (fun _ h => h) (fun reason h => by
      rw [firstAppend, h] at hfirst
      cases hfirst) (fun hidden hhidden => by
      rw [firstAppend, hhidden, hlayers] at hfirst
      rw [hrows, hlayers]
      exact satisfies_weaken (satisfies_runLayers_first hfirst) (fun _ _ => trivial)
        (fun _ _ h => h) fun _ _ h => h) before rfl
  rw [hrun] at hstored
  exact hstored.2

/-- A failed frame that neither counts nor stores keeps the counters. -/
theorem countersOf_of_kept (hadmission : admission rt request = .ok ())
    (hrun : roleBody rt env request before = .error message after)
    (hcounter : CounterKept request (countersOf (some before)))
    (hcaches : CachesKept rt request.inputTensor (countersOf (some before))) :
    countersOf (some after) = countersOf (some before) := by
  have heffect := satisfies_roleBody env hadmission before before rfl
  rw [hrun] at heffect
  have hsame : after.kvCache = before.kvCache :=
    heffect.counter.trans ((updateKvCacheForRequest_kept_iff request before.kvCache _).mpr hcounter)
  refine SessionCounters.ext ?_ ?_ (funext fun l => ?_)
  · exact congrArg PartitionKvCacheState.seqLen hsame
  · exact congrArg PartitionKvCacheState.valid hsame
  · exact layerSeqLen_of_cachesKept hadmission hrun hcaches l

/-- A failed frame that keeps the counters neither counts nor stores, unless
only the rows after the first are past the ends of the caches. -/
theorem kept_of_countersOf (hadmission : admission rt request = .ok ())
    (hrun : roleBody rt env request before = .error message after)
    (hsame : countersOf (some after) = countersOf (some before)) :
    (CounterKept request (countersOf (some before)) ∧
        CachesKept rt request.inputTensor (countersOf (some before))) ∨
      PartlyCovered rt request.inputTensor (countersOf (some before)) := by
  have heffect := satisfies_roleBody env hadmission before before rfl
  rw [hrun] at heffect
  have hseq : after.kvCache.seqLen = before.kvCache.seqLen :=
    congrArg SessionCounters.seqLen hsame
  have hvalid : after.kvCache.valid = before.kvCache.valid := congrArg SessionCounters.valid hsame
  have hlayers (l : ℤ) : (after.executor.layerCache l).seqLen =
      (before.executor.layerCache l).seqLen :=
    congrFun (congrArg SessionCounters.layerSeqLen hsame) l
  have hkvCache : after.kvCache = before.kvCache := by
    cases hafter : after.kvCache
    cases hbefore : before.kvCache
    rw [hafter, hbefore] at hseq hvalid
    cases hseq
    cases hvalid
    rfl
  have hcounter : CounterKept request (countersOf (some before)) :=
    (updateKvCacheForRequest_kept_iff request before.kvCache _).mp
      (heffect.counter.symm.trans hkvCache)
  by_cases hcaches : CachesKept rt request.inputTensor (countersOf (some before))
  · exact .inl ⟨hcounter, hcaches⟩
  · -- Some row is past the end of its cache, so the first one cannot be.
    rw [CachesKept, not_or, not_exists, not_forall] at hcaches
    obtain ⟨hnofail, l, hshort⟩ := hcaches
    rw [Classical.not_imp, Nat.not_le] at hshort
    refine .inr ⟨fun layerId hhead => ?_, l, hshort⟩
    obtain ⟨layers, hcons⟩ : ∃ layers, rt.shard.layers = layerId :: layers := by
      cases hl : rt.shard.layers with
      | nil =>
        rw [hl] at hhead
        cases hhead
      | cons first layers =>
        rw [hl] at hhead
        cases hhead
        exact ⟨layers, rfl⟩
    have hfirst : firstAppend rt request.inputTensor = .ok () := by
      cases h : firstAppend rt request.inputTensor with
      | error reason => exact absurd h (hnofail reason)
      | ok u => rfl
    cases hrows : frameRows request.inputTensor with
    | zero =>
      rw [hrows, frameEnd_zero] at hshort
      exact absurd hshort.2 (Nat.not_lt_zero _)
    | succ rows =>
      have hlt := lt_layerSeqLen_of_firstAppend hadmission hrun hcons hfirst hrows
      rwa [hlayers] at hlt

end FailedBody

/-- The counters of a session after a failed frame. -/
theorem failed_counters (rt : LlamaPartialRuntime F) (env : ForwardEnv)
    {request : RuntimeRequest D} {stored after : Option (LlamaRequestSession rt.executor.hp)}
    {message : Bytes} (hcontinues : resetsSession request = false)
    (hfail : serveSession rt env request stored = .error message after) :
    (Untouched rt request stored → countersOf after = countersOf stored) ∧
      (countersOf after = countersOf stored →
        Untouched rt request stored ∨ PartlyCovered rt request.inputTensor (countersOf stored)) := by
  rcases serveSession_cases env stored hcontinues with
    ⟨hrefused, reason, hrun⟩ | ⟨hrefused, hadmission, hrun⟩
  · rw [hrun] at hfail
    cases hfail
    exact ⟨fun _ => rfl, fun _ => .inl (.inl hrefused)⟩
  · have hopened := countersOf_openedSession rt env stored hcontinues
    rw [hrun] at hfail
    simp only [Untouched, hrefused, false_or, ← hopened]
    cases hbody : roleBody rt env request (openedSession rt env request stored) with
    | ok response session =>
      rw [hbody] at hfail
      cases hfail
    | error reason session =>
      rw [hbody] at hfail
      cases hfail
      exact ⟨fun h => countersOf_of_kept hadmission hbody h.1 h.2,
        fun h => kept_of_countersOf hadmission hbody h⟩

section Runs

variable {rt : LlamaPartialRuntime F}

/-- The property holds at every frame of a run of the stage. -/
def Throughout (rt : LlamaPartialRuntime F)
    (P : Sessions rt.executor.hp → StageEvent D → Prop) :
    Sessions rt.executor.hp → List (StageEvent D) → Prop
  | _, [] => True
  | sessions, event :: events => P sessions event ∧
      Throughout rt P (finalState (forward rt event.env event.request sessions)) events

/-- What one property of a frame implies, it implies throughout a run. -/
theorem Throughout.mono {P Q : Sessions rt.executor.hp → StageEvent D → Prop}
    (h : ∀ sessions event, P sessions event → Q sessions event) {events : List (StageEvent D)}
    {sessions : Sessions rt.executor.hp} (hP : Throughout rt P sessions events) :
    Throughout rt Q sessions events := by
  induction events generalizing sessions with
  | nil => trivial
  | cons event events ih => exact ⟨h _ _ hP.1, ih hP.2⟩

/-- The frame is answered with an error and does not reset its session. -/
def Fails (sessions : Sessions rt.executor.hp) (event : StageEvent D) : Prop :=
  resetsSession event.request = false ∧
    ∃ message, outcome (forward rt event.env event.request sessions) = .error message

/-- The counters of the frame's session are the same after the frame. -/
def CountersKept (sessions : Sessions rt.executor.hp) (event : StageEvent D) : Prop :=
  countersOf ((finalState (forward rt event.env event.request sessions)).lookup
    (sessionKey event.request)) = countersOf (sessions.lookup (sessionKey event.request))

/-- The condition under which a failed frame keeps the counters. -/
def UntouchedBy (sessions : Sessions rt.executor.hp) (event : StageEvent D) : Prop :=
  Untouched rt event.request (sessions.lookup (sessionKey event.request))

/-- The session holds part of the positions of the frame already. -/
def CoveredBy (sessions : Sessions rt.executor.hp) (event : StageEvent D) : Prop :=
  PartlyCovered rt event.request.inputTensor
    (countersOf (sessions.lookup (sessionKey event.request)))

theorem fails_counters (sessions : Sessions rt.executor.hp) {event : StageEvent D}
    (hfails : Fails sessions event) :
    (UntouchedBy sessions event → CountersKept sessions event) ∧
      (CountersKept sessions event → UntouchedBy sessions event ∨ CoveredBy sessions event) := by
  obtain ⟨hcontinues, message, hmessage⟩ := hfails
  have hself := forward_self rt event.env event.request sessions
  have hstate := congrArg finalState hself
  have houtcome := congrArg outcome hself
  rw [finalState_mapState] at hstate
  rw [outcome_mapState, hmessage] at houtcome
  simp only [CountersKept, hstate]
  cases hrun : serveSession rt event.env event.request
      (sessions.lookup (sessionKey event.request)) with
  | ok response after =>
    rw [hrun] at houtcome
    cases houtcome
  | error reason after => exact failed_counters rt event.env hcontinues hrun

end Runs

/-- In a run in which every failed frame is untouched, every failed frame keeps
the counters of its session. In a run in which every failed frame keeps them,
each one was untouched or met a session that held part of its positions. -/
theorem failures_keep_counters (rt : LlamaPartialRuntime F) (events : List (StageEvent D)) :
    (Throughout rt (fun s event => Fails s event → UntouchedBy s event) ∅ events →
      Throughout rt (fun s event => Fails s event → CountersKept s event) ∅ events) ∧
    (Throughout rt (fun s event => Fails s event → CountersKept s event) ∅ events →
      Throughout rt (fun s event => Fails s event → UntouchedBy s event ∨ CoveredBy s event)
        ∅ events) := by
  refine ⟨fun h => h.mono fun s event hstep hfails => ?_,
    fun h => h.mono fun s event hstep hfails => ?_⟩
  · exact (fails_counters s hfails).1 (hstep hfails)
  · exact (fails_counters s hfails).2 (hstep hfails)

/-- A decode frame of the tiny stage with a tensor of the caller's choice. -/
def decodeEvent (tensor : TensorBuffer) : StageEvent Binary64 :=
  { tinyEvent 2 (ascii "a") 1 (ascii "decode") 1 with
    request := { hiddenFrame (ascii "a") 1 (ascii "decode") 1 with inputTensor := tensor } }

/-- A frame with token ids is refused by a stage behind the source. -/
theorem failures_keep_counters_refused :
    Throughout (tinyRuntime [0] false false) (fun s event => Fails s event → CountersKept s event) ∅
      [tinyEvent 2 (ascii "a") 0 (ascii "prefill") 2,
        decodeEvent ⟨{ dtype := dtypeTokenIds, shape := [1, 1] }, List.replicate 8 0⟩] := by
  refine (failures_keep_counters (tinyRuntime [0] false false) _).1 ⟨fun h => ?_, fun _ => ?_, trivial⟩
  · exact absurd h.1 (by decide)
  · exact .inl (.inl ⟨ascii "non-source partition expects DLI2 hidden states input", rfl⟩)

/-- Two hidden rows in the batch dimension: the frame counts one position and
then fails. -/
def batchOfTwo : TensorBuffer := ⟨{ dtype := dtypeHiddenF32, shape := [2, 1, 1] }, List.replicate 8 0⟩

theorem failed_frame_moves_counter :
    ¬Throughout (tinyRuntime [0] false false)
      (fun s event => Fails s event → CountersKept s event) ∅
      [tinyEvent 2 (ascii "a") 0 (ascii "prefill") 2, decodeEvent batchOfTwo] := by
  rintro ⟨-, h, -⟩
  have hkept := h ⟨by decide, ascii "CPU reference executor currently supports batch=1",
    by decide +kernel⟩
  exact absurd (congrArg SessionCounters.seqLen hkept) (by decide +kernel)

end LayerInference.FailedForward
