import LayerInference.ExecutorLockstep
import LayerInference.SessionMachine
import LayerInference.ZeroModel

/-!
# Sessions do not interfere

Two runs of one stage may interleave other requests differently and read
different random devices. As long as the session of a request is not pruned,
its frames are answered alike in both runs. The random engine of a session
matters only when sampling, and the reseeding at position zero removes what
the random device left in it.
-/

namespace LayerInference.SessionIsolation

open ByteStrings FallibleRuns FloatArithmetic TensorAbi CpuExecutor PartitionExecution
  PartialRuntime SessionMachine ExecutorLockstep ZeroModel

variable {F D G : Type} [FloatArith F] [FloatArith D] [Numerics F D G]

/-- One frame with the surroundings it meets. -/
structure StageEvent (D : Type) where
  env : ForwardEnv
  request : RuntimeRequest D

/-- No positive temperature, so the engine is not drawn from. -/
def Greedy (request : RuntimeRequest D) : Prop :=
  request.temperature.all (fun t => !FloatArith.lt 0 t) = true

instance (request : RuntimeRequest D) : Decidable (Greedy request) :=
  inferInstanceAs (Decidable (_ = true))

/-- A seed that reproduces. -/
def Seeded (request : RuntimeRequest D) : Prop := ∃ seed ≥ 0, request.seed = some seed

/-- The stage executes frames as a terminal partition. -/
def TerminalRole (shard : LlamaShardMetadata) : Prop :=
  shard.ownsEmbedding = false ∧ (shard.ownsLmHead || shard.nextStageUrl.isEmpty) = true

/-- The answers to the frames of one request in a run of the stage. -/
def answers (rt : LlamaPartialRuntime F) (requestId : Bytes) :
    Sessions rt.executor.hp → List (StageEvent D) → List (Except Bytes RuntimeResponse)
  | _, [] => []
  | sessions, event :: events =>
    let result := forward rt event.env event.request sessions
    (if event.request.requestId = requestId then [outcome result] else []) ++
      answers rt requestId (finalState result) events

/-- No frame of another request removes the session. -/
def NeverPruned (rt : LlamaPartialRuntime F) (requestId : Bytes) :
    Sessions rt.executor.hp → List (StageEvent D) → Prop
  | _, [] => True
  | sessions, event :: events =>
    let next := finalState (forward rt event.env event.request sessions)
    (event.request.requestId ≠ requestId → (sessions.lookup requestId).isSome →
      (next.lookup requestId).isSome) ∧ NeverPruned rt requestId next events

/-- The pruning condition of a concrete run can be evaluated. -/
instance NeverPruned.decidable (rt : LlamaPartialRuntime F) (requestId : Bytes) :
    (sessions : Sessions rt.executor.hp) → (events : List (StageEvent D)) →
      Decidable (NeverPruned rt requestId sessions events)
  | _, [] => .isTrue trivial
  | sessions, event :: events =>
    have := NeverPruned.decidable rt requestId
      (finalState (forward rt event.env event.request sessions)) events
    inferInstanceAs (Decidable (_ ∧ _))

/-- The frames of one request, in order. -/
def framesOf (requestId : Bytes) (events : List (StageEvent D)) : List (StageEvent D) :=
  events.filter fun event => event.request.requestId = requestId

/-- The answers of the session machine. -/
def sessionAnswers (rt : LlamaPartialRuntime F) :
    Option (LlamaRequestSession rt.executor.hp) → List (StageEvent D) →
      List (Except Bytes RuntimeResponse)
  | _, [] => []
  | stored, event :: events =>
    let result := serveSession rt event.env event.request stored
    outcome result :: sessionAnswers rt (finalState result) events

/-- The frames of a request meet its session only. -/
theorem answers_eq_sessionAnswers (rt : LlamaPartialRuntime F) {requestId : Bytes}
    (events : List (StageEvent D)) (hids : ∀ event ∈ events, event.request.requestId ≠ [])
    (sessions : Sessions rt.executor.hp) (hkept : NeverPruned rt requestId sessions events) :
    answers rt requestId sessions events =
      sessionAnswers rt (sessions.lookup requestId) (framesOf requestId events) := by
  induction events generalizing sessions with
  | nil => rfl
  | cons event events ih =>
    obtain ⟨hkeep, hrest⟩ := hkept
    have hkey : sessionKey event.request = event.request.requestId := by
      have hne := hids event List.mem_cons_self
      simp [sessionKey, hne]
    have htail := ih (fun e he => hids e (List.mem_cons_of_mem event he)) _ hrest
    by_cases hid : event.request.requestId = requestId
    · have hself := forward_self rt event.env event.request sessions
      rw [hkey, hid] at hself
      have hstate := congrArg finalState hself
      have hanswer := congrArg outcome hself
      rw [finalState_mapState] at hstate
      rw [outcome_mapState] at hanswer
      simp only [answers, framesOf, List.filter_cons, hid, decide_true, if_true, sessionAnswers,
        List.singleton_append]
      rw [htail, hstate, hanswer]
      rfl
    · have hlookup : (finalState (forward rt event.env event.request sessions)).lookup requestId =
          sessions.lookup requestId := by
        rcases forward_other rt event.env event.request sessions
          (show requestId ≠ sessionKey event.request by rw [hkey]; exact fun h => hid h.symm)
          with h | h
        · exact h
        · cases hs : sessions.lookup requestId with
          | none => exact h
          | some session =>
            have hsome := hkeep hid (by rw [hs]; rfl)
            rw [h] at hsome
            cases hsome
      simp only [answers, framesOf, List.filter_cons, hid, decide_false, Bool.false_eq_true,
        if_false, List.nil_append]
      rw [htail, hlookup]
      rfl

/-- Sessions that answer alike: the engine must agree past position zero. -/
structure SessionsAgree (engine : Prop) {hp : LlamaExecutorHyperparams F}
    (s t : LlamaRequestSession hp) : Prop where
  counter : s.kvCache = t.kvCache
  executor : AgreeOn (fun _ => True) (engine ∧ s.kvCache.seqLen ≠ 0) s.executor t.executor

/-- Agreement of two stored sessions, or of two absent ones. -/
def StoredAgree (engine : Prop) {hp : LlamaExecutorHyperparams F} :
    Option (LlamaRequestSession hp) → Option (LlamaRequestSession hp) → Prop
  | none, none => True
  | some s, some t => SessionsAgree engine s t
  | _, _ => False

section Lockstep

variable {engine : Prop}

/-- The executor of a session runs from the position before the frame. -/
theorem lockstep_stepSession {hp : LlamaExecutorHyperparams F} {α : Type}
    (request : RuntimeRequest D) {execute execute' : ℕ → ExecM hp α}
    (h : ∀ seqBefore, Lockstep (AgreeOn (fun _ => True) (engine ∧ seqBefore ≠ 0))
      (execute seqBefore) (execute' seqBefore) (AgreeOn (fun _ => True) engine)) :
    Lockstep (SessionsAgree engine) (stepSession request execute) (stepSession request execute')
      (SessionsAgree engine) := by
  intro s t hst
  obtain ⟨hcounter, hexecutor⟩ := hst
  obtain ⟨kvCache, executor⟩ := s
  obtain ⟨kvCache', executor'⟩ := t
  cases hcounter
  have hrun := h kvCache.seqLen executor executor' hexecutor
  simp only [stepSession, updateKvCacheForRequest_seqBefore]
  cases hx : execute kvCache.seqLen executor with
  | ok a u =>
    cases hy : execute' kvCache.seqLen executor' with
    | ok b w =>
      rw [hx, hy] at hrun
      obtain ⟨hab, huw⟩ := hrun
      cases hab
      exact ⟨rfl, rfl, huw.layers, fun he => huw.rng he.1⟩
    | error e w =>
      rw [hx, hy] at hrun
      cases hrun.1
  | error e u =>
    cases hy : execute' kvCache.seqLen executor' with
    | ok b w =>
      rw [hx, hy] at hrun
      cases hrun.1
    | error e' w =>
      rw [hx, hy] at hrun
      obtain ⟨he, huw⟩ := hrun
      cases he
      exact ⟨rfl, rfl, huw.layers, fun he => huw.rng he.1⟩

/-- Running the layers of a partition on two agreeing executors. -/
theorem lockstep_layers (context : ExecutorContext F) (layers : List ℤ) (hidden : List F)
    (seqLen kvSeqBefore : ℕ) :
    Lockstep (AgreeOn (fun _ => True) engine) (runLayers context layers hidden seqLen kvSeqBefore)
      (runLayers context layers hidden seqLen kvSeqBefore) (AgreeOn (fun _ => True) engine) :=
  lockstep_runLayers context (fun _ _ _ _ => rfl) (fun _ _ => trivial) hidden seqLen kvSeqBefore

theorem lockstep_executeSource (context : ExecutorContext F) (tokenIds : TensorBuffer)
    (layers : List ℤ) (kvSeqBefore : ℕ) (precision : Bytes) :
    Lockstep (AgreeOn (fun _ => True) engine)
      (executeSource context tokenIds layers kvSeqBefore precision)
      (executeSource context tokenIds layers kvSeqBefore precision)
      (AgreeOn (fun _ => True) engine) := by
  refine lockstep_bind lockstep_stateless fun tokens => ?_
  refine lockstep_bind lockstep_stateless fun embedded => ?_
  refine lockstep_bind (lockstep_layers context layers _ _ _) fun hidden => ?_
  exact lockstep_pure fun _ _ hst => hst

theorem lockstep_executeIntermediate (context : ExecutorContext F) (hiddenStates : TensorBuffer)
    (layers : List ℤ) (kvSeqBefore : ℕ) (precision : Bytes) :
    Lockstep (AgreeOn (fun _ => True) engine)
      (executeIntermediate context hiddenStates layers kvSeqBefore precision)
      (executeIntermediate context hiddenStates layers kvSeqBefore precision)
      (AgreeOn (fun _ => True) engine) := by
  refine lockstep_bind lockstep_stateless fun decoded => ?_
  refine lockstep_bind (lockstep_layers context layers _ _ _) fun hidden => ?_
  exact lockstep_pure fun _ _ hst => hst

/-- Reseeding at position zero replaces whatever the engines held. -/
theorem lockstep_reseed {hp : LlamaExecutorHyperparams F} {sampling : LlamaSamplingParams F}
    (hseed : engine → sampling.hasSeed = true ∧ 0 ≤ sampling.seed) (kvSeqBefore : ℕ)
    (entropy entropy' : UInt32) :
    Lockstep (AgreeOn (fun _ => True) (engine ∧ kvSeqBefore ≠ 0))
      (reseed sampling kvSeqBefore entropy : ExecM hp Unit) (reseed sampling kvSeqBefore entropy')
      (AgreeOn (fun _ => True) engine) := by
  intro s t hst
  unfold reseed
  by_cases hzero : kvSeqBefore = 0
  · by_cases hhas : sampling.hasSeed
    · simp only [hhas, hzero, BEq.rfl, Bool.and_self, if_true, finalState, outcome]
      refine ⟨trivial, hst.layers, fun he => ?_⟩
      rw [if_pos (hseed he).2, if_pos (hseed he).2]
    · simp only [hhas, Bool.false_and, Bool.false_eq_true, if_false, finalState, outcome]
      exact ⟨trivial, hst.layers, fun he => absurd (hseed he).1 hhas⟩
  · simp only [hzero, beq_iff_eq, Bool.and_eq_true, and_false, if_false, finalState, outcome]
    exact ⟨trivial, hst.layers, fun he => hst.rng ⟨he, hzero⟩⟩

/-- Picking a token draws from the engine only when sampling is on. -/
theorem lockstep_sampleFromLogits {hp : LlamaExecutorHyperparams F} (logits : List F)
    {sampling : LlamaSamplingParams F} (hdraw : sampling.enabled = true → engine) :
    Lockstep (AgreeOn (fun _ => True) engine) (sampleFromLogits logits sampling : ExecM hp ℕ)
      (sampleFromLogits logits sampling) (AgreeOn (fun _ => True) engine) := by
  intro s t hst
  unfold sampleFromLogits
  split
  · exact ⟨rfl, hst⟩
  · next hoff =>
    have henabled : sampling.enabled = true := by
      cases he : sampling.enabled with
      | true => rfl
      | false => simp [he] at hoff
    have hrng := hst.rng (hdraw henabled)
    simp only [hrng, outcome, finalState]
    exact ⟨trivial, hst.layers, fun _ => rfl⟩

theorem lockstep_executeTerminal (context : ExecutorContext F) (hiddenStates : TensorBuffer)
    (layers : List ℤ) (kvSeqBefore : ℕ) (ownsNorm ownsLmHead : Bool)
    {sampling : LlamaSamplingParams F} (entropy entropy' : UInt32)
    (hseed : engine → sampling.hasSeed = true ∧ 0 ≤ sampling.seed)
    (hdraw : sampling.enabled = true → engine) :
    Lockstep (AgreeOn (fun _ => True) (engine ∧ kvSeqBefore ≠ 0))
      (executeTerminal context hiddenStates layers kvSeqBefore ownsNorm ownsLmHead sampling entropy)
      (executeTerminal context hiddenStates layers kvSeqBefore ownsNorm ownsLmHead sampling
        entropy') (AgreeOn (fun _ => True) engine) := by
  refine lockstep_bind (lockstep_reseed hseed kvSeqBefore entropy entropy') fun _ => ?_
  refine lockstep_bind lockstep_stateless fun decoded => ?_
  refine lockstep_bind (lockstep_layers context layers _ _ _) fun hidden => ?_
  refine lockstep_bind lockstep_stateless fun logits => ?_
  exact lockstep_sampleFromLogits logits hdraw

/-- A mode in which frames may be compared: the engine is tracked only on a
terminal partition with a seed, and must be tracked where sampling draws. -/
structure Comparable (engine : Prop) (shard : LlamaShardMetadata) (request : RuntimeRequest D) :
    Prop where
  terminal : engine → TerminalRole shard
  seeded : engine → Seeded request
  greedy : TerminalRole shard → Greedy request ∨ engine

/-- The three roles on agreeing sessions. -/
theorem lockstep_roleBody (rt : LlamaPartialRuntime F) (env env' : ForwardEnv)
    {request : RuntimeRequest D} (hmode : Comparable engine rt.shard request) :
    Lockstep (SessionsAgree engine) (roleBody rt env request) (roleBody rt env' request)
      (SessionsAgree engine) := by
  unfold roleBody
  by_cases hsource : rt.shard.ownsEmbedding = true
  · have hno (he : engine) : False := by
      have h := (hmode.terminal he).1
      rw [hsource] at h
      cases h
    rw [if_pos hsource, if_pos hsource]
    refine lockstep_bind (lockstep_stepSession request fun seqBefore => ?_) fun r =>
      lockstep_pure fun _ _ hst => hst
    exact lockstep_weaken (lockstep_executeSource rt.executor _ _ _ _)
      (fun s t hst => ⟨hst.layers, fun he => (hno he).elim⟩) fun _ _ hst => hst
  · rw [if_neg hsource, if_neg hsource]
    by_cases hterminal : (rt.shard.ownsLmHead || rt.shard.nextStageUrl.isEmpty) = true
    · rw [if_pos hterminal, if_pos hterminal]
      have hrole : TerminalRole rt.shard := ⟨by simpa using hsource, hterminal⟩
      refine lockstep_bind (lockstep_stepSession request fun seqBefore => ?_) fun r =>
        lockstep_pure fun _ _ hst => hst
      refine lockstep_executeTerminal rt.executor _ _ _ _ _ _ _ (fun he => ?_) fun hon => ?_
      · obtain ⟨seed, hnonneg, hseed⟩ := hmode.seeded he
        simp only [samplingParams, hseed, Option.isSome_some, Option.getD_some]
        exact ⟨trivial, hnonneg⟩
      · rcases hmode.greedy hrole with hgreedy | he
        · cases ht : request.temperature with
          | none => simp [samplingParams, ht] at hon
          | some t =>
            simp only [Greedy, ht, Option.all_some, Bool.not_eq_true'] at hgreedy
            simp [samplingParams, ht, hgreedy] at hon
        · exact he
    · have hno (he : engine) : False := hterminal (hmode.terminal he).2
      rw [if_neg hterminal, if_neg hterminal]
      refine lockstep_bind (lockstep_stepSession request fun seqBefore => ?_) fun r =>
        lockstep_pure fun _ _ hst => hst
      exact lockstep_weaken (lockstep_executeIntermediate rt.executor _ _ _ _)
        (fun s t hst => ⟨hst.layers, fun he => (hno he).elim⟩) fun _ _ hst => hst

/-- New sessions agree: only their engines may differ, at position zero. -/
theorem lockstep_openSession (hp : LlamaExecutorHyperparams F) (env env' : ForwardEnv)
    (request : RuntimeRequest D) :
    Lockstep (StoredAgree engine) (openSession hp env request) (openSession hp env' request)
      (StoredAgree engine) := by
  have hfresh : SessionsAgree engine (.fresh hp env.executorEntropy)
      (.fresh hp env'.executorEntropy) := ⟨rfl, fun _ _ => rfl, fun h => absurd rfl h.2⟩
  intro stored stored' hst
  unfold openSession
  cases resetsSession request with
  | true =>
    cases checkHyperparams hp with
    | error message => exact ⟨rfl, trivial⟩
    | ok u => exact ⟨rfl, hfresh⟩
  | false =>
    cases stored with
    | none =>
      cases stored' with
      | none =>
        cases checkHyperparams hp with
        | error message => exact ⟨rfl, trivial⟩
        | ok u => exact ⟨rfl, hfresh⟩
      | some t => exact hst.elim
    | some s =>
      cases stored' with
      | none => exact hst.elim
      | some t => exact ⟨rfl, hst⟩

/-- Serving one frame on agreeing sessions. -/
theorem lockstep_serveSession (rt : LlamaPartialRuntime F) (env env' : ForwardEnv)
    {request : RuntimeRequest D} (hmode : Comparable engine rt.shard request) :
    Lockstep (StoredAgree engine) (serveSession rt env request) (serveSession rt env' request)
      (StoredAgree engine) := by
  refine lockstep_bind lockstep_stateless fun _ => ?_
  refine lockstep_bind (lockstep_openSession _ env env' request) fun _ => ?_
  intro stored stored' hst
  rw [onPart_apply, onPart_apply]
  simp only [outcome_mapState, finalState_mapState]
  have hopen : SessionsAgree engine (stored.getD (.fresh rt.executor.hp env.executorEntropy))
      (stored'.getD (.fresh rt.executor.hp env'.executorEntropy)) := by
    cases stored with
    | none =>
      cases stored' with
      | none => exact ⟨rfl, fun _ _ => rfl, fun h => absurd rfl h.2⟩
      | some t => exact hst.elim
    | some s =>
      cases stored' with
      | none => exact hst.elim
      | some t => exact hst
  exact lockstep_roleBody rt env env' hmode _ _ hopen

end Lockstep

/-- The session machine answers alike on the same frames, whatever the
surroundings. -/
theorem sessionAnswers_eq (rt : LlamaPartialRuntime F) (engine : Prop)
    (events events' : List (StageEvent D))
    (hframes : events.map StageEvent.request = events'.map StageEvent.request)
    (hmode : ∀ event ∈ events, Comparable engine rt.shard event.request)
    {stored stored' : Option (LlamaRequestSession rt.executor.hp)}
    (hst : StoredAgree engine stored stored') :
    sessionAnswers rt stored events = sessionAnswers rt stored' events' := by
  induction events generalizing events' stored stored' with
  | nil =>
    cases events' with
    | nil => rfl
    | cons event' events' => cases hframes
  | cons event events ih =>
    cases events' with
    | nil => cases hframes
    | cons event' events' =>
      obtain ⟨hrequest, hrest⟩ := List.cons.inj hframes
      have hstep := lockstep_serveSession rt event.env event'.env
        (hmode event List.mem_cons_self) stored stored' hst
      simp only [sessionAnswers, ← hrequest]
      rw [hstep.1, ih events' hrest (fun e he => hmode e (List.mem_cons_of_mem event he)) hstep.2]

/-- Two runs of one stage with the same frames of a request, greedy or with a
seed, answer these frames alike: the outputs, the next tokens and the errors. -/
theorem answers_isolated (rt : LlamaPartialRuntime F) {requestId : Bytes}
    {run run' : List (StageEvent D)} {sessions sessions' : Sessions rt.executor.hp}
    (hids : ∀ event ∈ run, event.request.requestId ≠ [])
    (hids' : ∀ event ∈ run', event.request.requestId ≠ [])
    (hframes : (framesOf requestId run).map StageEvent.request =
      (framesOf requestId run').map StageEvent.request)
    (hmode : (∀ event ∈ framesOf requestId run, Greedy event.request) ∨
      ∀ event ∈ framesOf requestId run, Seeded event.request)
    (hstart : sessions.lookup requestId = none) (hstart' : sessions'.lookup requestId = none)
    (hkept : NeverPruned rt requestId sessions run)
    (hkept' : NeverPruned rt requestId sessions' run') :
    answers rt requestId sessions run = answers rt requestId sessions' run' := by
  rw [answers_eq_sessionAnswers rt run hids sessions hkept,
    answers_eq_sessionAnswers rt run' hids' sessions' hkept', hstart, hstart']
  rcases hmode with hgreedy | hseeded
  · refine sessionAnswers_eq rt False _ _ hframes (fun event he => ?_) trivial
    exact ⟨False.elim, False.elim, fun _ => .inl (hgreedy event he)⟩
  · refine sessionAnswers_eq rt (TerminalRole rt.shard) _ _ hframes
      (fun event he => ?_) trivial
    exact ⟨id, fun _ => hseeded event he, fun h => .inr h⟩

/-- A frame of the tiny stage with room for `maxSessions` sessions. -/
def tinyEvent (maxSessions : ℕ) (requestId : Bytes) (tokenIndex : ℤ) (generationMode : Bytes)
    (rows : ℕ) : StageEvent Binary64 :=
  ⟨.newestFirst maxSessions, hiddenFrame requestId tokenIndex generationMode rows⟩

/-- Two requests, interleaved in two ways. -/
theorem answers_isolated_interleaved :
    answers (tinyRuntime [0] false false) (ascii "a") ∅
        [tinyEvent 2 (ascii "a") 0 (ascii "prefill") 2,
          tinyEvent 2 (ascii "b") 0 (ascii "prefill") 1,
          tinyEvent 2 (ascii "a") 1 (ascii "decode") 1] =
      answers (tinyRuntime [0] false false) (ascii "a") ∅
        [tinyEvent 2 (ascii "b") 0 (ascii "prefill") 3,
          tinyEvent 2 (ascii "a") 0 (ascii "prefill") 2,
          tinyEvent 2 (ascii "a") 1 (ascii "decode") 1] :=
  answers_isolated (tinyRuntime [0] false false) (by decide) (by decide) rfl (.inl (by decide))
    rfl rfl (by decide +kernel) (by decide +kernel)

end LayerInference.SessionIsolation
