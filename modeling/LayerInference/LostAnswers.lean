import LayerInference.FollowedGenerations
import LayerInference.SplitInvariance
import LayerInference.UnreliableStages

/-!
# A generation over unreliable connections

As long as no answer to a decode frame is lost behind its stage, failing connections
either end a generation with an error or leave no trace: its result and the sessions
it leaves are those of the run without failures, every decode frame was served once at
every stage, and the counters stand behind the prompt and the decoded tokens. When
such an answer is lost, the frame is served again one position further.
-/

namespace LayerInference.LostAnswers

open ByteStrings FallibleRuns RunSimulation OneSidedRuns FloatArithmetic TensorAbi CpuExecutor
  PartitionExecution PartialRuntime SessionMachine SessionEffects PartitionRouting GenerationLoop
  FollowedGenerations FrameTensors StagePipeline StageSequence UnreliableStages ZeroModel
  StageCounts SplitInvariance

variable {F D G : Type} [FloatArith F] [FloatArith D] [Numerics F D G]

section Calls

variable {net : Network F D} {settings : GatewaySettings D}

/-- A post of the gateway to one stage, without chaining. -/
theorem serves_post (hkeeps : KeepsDecodes net) (i : ℕ) {frame : StageFrame D}
    (hchaining : frame.request.nativeStageChainingEnabled = false) :
    Serves net frame.request [i]
      (fun result response => result = ⟨200, responseFrame frame.request response, []⟩)
      (net.postBinary i frame.request
        (net.handleForwardBinary net.deployment.partitions.length i frame))
      (net.deployment.serve i frame.request) := by
  refine (serves_kept net net.deployment.partitions.length i frame ?_).post hkeeps i
  intro s response s' _
  rw [hchaining, Bool.false_and, Bool.false_and]

/-- The gateway carries the frames over the network. -/
theorem orchestrate_follows (horder : InPipelineOrder net.deployment settings)
    (hkeeps : KeepsDecodes net) (k : ℕ) {i : ℕ} (hi : i + k + 1 = net.deployment.partitions.length)
    {frame : StageFrame D} (hchaining : frame.request.nativeStageChainingEnabled = false)
    {s s' : NetworkState net.deployment.hp D} {t : StageStates net.deployment.hp}
    {result : StageClientResult (StageFrame D)}
    (halike : resetsSession frame.request = true ∨
      Alike frame.request (List.range' i (k + 1)) s.states t)
    (hrun : orchestrate (net.deployment.routeConfig settings) net.client i
      (net.deployment.partitions.drop i) frame s = .ok result s') :
    ∃ response t', serveSequence net.deployment k i frame.request t = .ok response t' ∧
      Answered result response ∧ Visited frame.request (List.range' i (k + 1)) s s' t t' := by
  induction k generalizing i frame s t with
  | zero =>
    have hlt : i < net.deployment.partitions.length := by omega
    obtain ⟨url, hurl, hat⟩ := horder.url hlt
    have hlmHead := (horder.last i _ (List.getElem?_eq_getElem hlt) (by omega)).1
    have hterminal : isTerminalPartition net.deployment.partitions[i] = true := by
      rw [isTerminalPartition, hlmHead, Bool.or_true]
    rw [List.drop_eq_getElem_cons hlt, orchestrate, hurl, stateless_ok_bind, bind_apply,
      Network.client, hat] at hrun
    cases hpost : net.postBinary i frame.request
        (net.handleForwardBinary net.deployment.partitions.length i frame) s with
    | error message s₁ =>
      rw [hpost] at hrun
      cases hrun
    | ok answer s₁ =>
      rw [hpost] at hrun
      dsimp only at hrun
      by_cases hsuccess : isSuccess answer.httpStatus
      · rw [if_neg (not_not.mpr hsuccess), if_pos hterminal] at hrun
        cases hrun
        obtain ⟨response, t', hserve, hanswer, hvisited⟩ :=
          (serves_post hkeeps i hchaining).follows s t _ _ halike hpost hsuccess
        exact ⟨response, t', hserve, ⟨frame.request, hanswer⟩, hvisited⟩
      · rw [if_pos hsuccess] at hrun
        cases hrun
  | succ k ih =>
    have hlt : i < net.deployment.partitions.length := by omega
    obtain ⟨url, hurl, hat⟩ := horder.url hlt
    obtain ⟨hnext, hlmHead⟩ := horder.inner i _ (List.getElem?_eq_getElem hlt) (by omega)
    have hterminal : ¬isTerminalPartition net.deployment.partitions[i] = true := by
      rw [isTerminalPartition, hlmHead, Bool.or_false, List.isEmpty_iff]
      exact hnext
    have hfresh := not_mem_behind i (k + 1)
    rw [List.drop_eq_getElem_cons hlt, orchestrate, hurl, stateless_ok_bind, bind_apply,
      Network.client, hat] at hrun
    rw [List.range'_succ] at halike ⊢
    cases hpost : net.postBinary i frame.request
        (net.handleForwardBinary net.deployment.partitions.length i frame) s with
    | error message s₁ =>
      rw [hpost] at hrun
      cases hrun
    | ok answer s₁ =>
      rw [hpost] at hrun
      dsimp only at hrun
      by_cases hsuccess : isSuccess answer.httpStatus
      · rw [if_neg (not_not.mpr hsuccess), if_neg hterminal] at hrun
        have hhere : resetsSession frame.request = true ∨ Alike frame.request [i] s.states t :=
          halike.imp_right fun h j hj => h j (List.mem_singleton.mp hj ▸ List.mem_cons_self)
        obtain ⟨response, t₁, hserve, rfl, hvisited⟩ :=
          (serves_post hkeeps i hchaining).follows s t _ _ hhere hpost hsuccess
        have hflag : (responseFrame frame.request response).request.nativeStageChainingEnabled =
            false := hchaining
        obtain ⟨last, t', hsequence, hanswered, hrest⟩ :=
          ih (show i + 1 + k + 1 = _ by omega) hflag (hvisited.ahead hfresh halike) hrun
        have hbehind : Visited frame.request (List.range' (i + 1) (k + 1)) s₁ s' t₁ t' :=
          ⟨hrest.alike, hrest.elsewhere, hrest.decoded⟩
        refine ⟨last, t', ?_, hanswered, hvisited.append hbehind hfresh⟩
        rw [serveSequence, bind_apply, hserve]
        exact hsequence
      · rw [if_pos hsuccess] at hrun
        cases hrun

/-- A pipeline call that returns over the network is the sequence of all stages. -/
theorem call_follows (horder : InPipelineOrder net.deployment settings)
    (hkeeps : KeepsDecodes net) (requestId : Bytes) (call : PipelineCall)
    {s s' : NetworkState net.deployment.hp D} {t : StageStates net.deployment.hp}
    {result : StageClientResult (StageFrame D)}
    (halike : resetsSession (gatewayFrame settings requestId call).request = true ∨
      Alike (gatewayFrame settings requestId call).request
        (List.range net.deployment.partitions.length) s.states t)
    (hrun : (net.pipeline settings requestId).call call s = .ok result s') :
    ∃ response t', serveSequence net.deployment (net.deployment.partitions.length - 1) 0
        (gatewayFrame settings requestId call).request t = .ok response t' ∧
      Answered result response ∧ Visited (gatewayFrame settings requestId call).request
        (List.range net.deployment.partitions.length) s s' t t' := by
  have hseveral := horder.several
  have hlength : 0 + (net.deployment.partitions.length - 1) + 1 =
      net.deployment.partitions.length := by omega
  have hrange : List.range net.deployment.partitions.length =
      List.range' 0 (net.deployment.partitions.length - 1 + 1) := by
    rw [List.range_eq_range', ← Nat.zero_add (net.deployment.partitions.length - 1), hlength]
  have hnonempty : (net.deployment.routeConfig settings).partitions.isEmpty = false := by
    rw [List.isEmpty_eq_false_iff, ← List.length_pos_iff]
    exact show 0 < net.deployment.partitions.length by omega
  rw [hrange] at halike ⊢
  change forwardThroughPartitionGraph (net.deployment.routeConfig settings) net.client
    (gatewayFrame settings requestId call) s = .ok result s' at hrun
  rw [forwardThroughPartitionGraph, hnonempty] at hrun
  cases hchaining : settings.nativeStageChainingEnabled with
  | false =>
    have hflag : (gatewayFrame settings requestId call).request.nativeStageChainingEnabled =
        false := hchaining
    refine orchestrate_follows horder hkeeps _ hlength hflag halike ?_
    simpa only [Deployment.routeConfig, hchaining, List.drop_zero, Bool.false_eq_true, if_false]
      using hrun
  | true =>
    have hflag : (gatewayFrame settings requestId call).request.nativeStageChainingEnabled =
        true := hchaining
    have hfirst : net.deployment.stageAt settings.firstStageUrl = 0 := horder.addresses.first
    have hserves := (serves_chained horder hkeeps (net.deployment.partitions.length - 1) hlength
      (show net.deployment.partitions.length - 1 ≤ net.deployment.partitions.length by omega)
      hflag).post hkeeps 0
    simp only [Deployment.routeConfig, hchaining, Bool.false_eq_true, if_false, if_true] at hrun
    rw [forwardChained, bind_apply, Network.client, hfirst] at hrun
    cases hpost : net.postBinary 0 (gatewayFrame settings requestId call).request
        (net.handleForwardBinary net.deployment.partitions.length 0
          (gatewayFrame settings requestId call)) s with
    | error message s₁ =>
      rw [hpost] at hrun
      cases hrun
    | ok answer s₁ =>
      rw [hpost] at hrun
      dsimp only at hrun
      by_cases hsuccess : isSuccess answer.httpStatus
      · rw [if_neg (not_not.mpr hsuccess)] at hrun
        cases hrun
        exact hserves.follows s t _ _ halike hpost hsuccess
      · rw [if_pos hsuccess] at hrun
        cases hrun

end Calls

section Counters

variable {d : Deployment F D} {rt : LlamaPartialRuntime F} {request : RuntimeRequest D}

/-- The output of a stage has as many rows as its input. -/
def SameRows (output input : TensorBuffer) : Prop :=
  frameRows output = frameRows input ∧ output.metadata.shape ≠ []

theorem sameRows_hidden {hp : LlamaExecutorHyperparams F} {hidden : List F} {value : ℤ}
    {precision : Bytes} {input : TensorBuffer} (h : (toInt32 value).toNat = frameRows input) :
    SameRows (floatHiddenToTensor hp hidden 1 (toInt32 value) precision) input := by
  refine ⟨?_, List.cons_ne_nil _ _⟩
  rw [← h]
  change (toInt32 (toInt32 value)).toNat = (toInt32 value).toNat
  rw [toInt32, toInt32, Int.bmod_bmod]

theorem satisfies_anything {σ α : Type} (x : EStateM Bytes σ α) :
    Satisfies (fun _ => True) x (fun _ _ => True) fun _ _ => True := by
  intro s _
  cases x s <;> trivial

theorem satisfies_source_rows {context : ExecutorContext F} (tokenIds : TensorBuffer)
    (layers : List ℤ) (n : ℕ) (precision : Bytes) :
    Satisfies (fun _ => True) (executeSource context tokenIds layers n precision)
      (fun output _ => SameRows output tokenIds) fun _ _ => True := by
  refine satisfies_stateless_bind (fun _ _ _ _ => trivial) fun tokens htokens => ?_
  refine satisfies_bind (satisfies_anything _) fun embedded => ?_
  refine satisfies_bind (satisfies_anything _) fun hidden => ?_
  exact satisfies_pure fun _ _ => sameRows_hidden (tensorToTokenIds_rows htokens)

theorem satisfies_intermediate_rows {context : ExecutorContext F} {hiddenStates : TensorBuffer}
    (hrank : 2 ≤ hiddenStates.metadata.shape.length) (layers : List ℤ) (n : ℕ)
    (precision : Bytes) :
    Satisfies (fun _ => True) (executeIntermediate context hiddenStates layers n precision)
      (fun output _ => SameRows output hiddenStates) fun _ _ => True := by
  refine satisfies_bind (satisfies_anything _) fun decoded => ?_
  refine satisfies_bind (satisfies_anything _) fun hidden => ?_
  exact satisfies_pure fun _ _ => sameRows_hidden (frameRows_eq hrank).symm

/-- The value of a step is that of its execution. -/
theorem satisfies_stepSession_value {hp : LlamaExecutorHyperparams F} {α : Type} {Q : α → Prop}
    {execute : ℕ → ExecM hp α}
    (h : ∀ n, Satisfies (fun _ => True) (execute n) (fun a _ => Q a) fun _ _ => True) :
    Satisfies (fun _ => True) (stepSession request execute) (fun result _ => Q result.2)
      fun _ _ => True := by
  intro session _
  have hrun := h (updateKvCacheForRequest request session.kvCache).1.seqBefore session.executor
    trivial
  unfold stepSession
  dsimp only
  cases hexecute : execute (updateKvCacheForRequest request session.kvCache).1.seqBefore
      session.executor with
  | ok a executor =>
    rw [hexecute] at hrun
    exact hrun
  | error message executor => trivial

/-- A stage that does not end the route passes its rows on. -/
theorem satisfies_roleBody_rows (env : ForwardEnv) (hadmission : admission rt request = .ok ())
    (hinner : endsRoute rt.shard = false) :
    Satisfies (fun _ => True) (roleBody rt env request)
      (fun response _ => SameRows response.outputTensor request.inputTensor) fun _ _ => True := by
  unfold roleBody
  unfold endsRoute at hinner
  cases hembedding : rt.shard.ownsEmbedding with
  | true =>
    refine satisfies_bind (satisfies_stepSession_value fun n =>
      satisfies_source_rows request.inputTensor _ n _) fun result => ?_
    exact satisfies_pure fun _ h => h
  | false =>
    rw [hembedding, Bool.not_false, Bool.true_and] at hinner
    rw [hinner]
    refine satisfies_bind (satisfies_stepSession_value fun n =>
      satisfies_intermediate_rows (rank_of_admission hadmission) _ n _) fun result => ?_
    exact satisfies_pure fun _ h => h

theorem serve_rows {i : ℕ} {states after : StageStates d.hp} {response : RuntimeResponse}
    (hrun : d.serve i request states = .ok response after)
    (hinner : endsRoute (d.runtime i).shard = false) :
    frameRows (responseFrame request response).request.inputTensor =
      frameRows request.inputTensor := by
  have hsession := serve_ok_iff.mpr ⟨after, hrun, rfl⟩
  have hadmission := admission_of_serveSession hsession
  have hrows : SameRows response.outputTensor request.inputTensor := by
    rcases openSession_cases (d.runtime i) (d.env i request) request
      ((states i).lookup (sessionKey request)) with hopen | ⟨-, message, -, hopen⟩
    · rw [serveSession_of_open hadmission hopen] at hsession
      have hbody := satisfies_roleBody_rows (d.env i request) hadmission hinner
        (openedSession (d.runtime i) (d.env i request) request
          ((states i).lookup (sessionKey request))) trivial
      cases hrole : roleBody (d.runtime i) (d.env i request) request
          (openedSession (d.runtime i) (d.env i request) request
            ((states i).lookup (sessionKey request))) with
      | error message session =>
        rw [hrole] at hsession
        cases hsession
      | ok response' session =>
        rw [hrole] at hsession hbody
        rw [← Except.ok.inj (congrArg outcome hsession)]
        exact hbody
    · rw [serveSession, hadmission, stateless_ok_bind, bind_apply, hopen] at hsession
      cases hsession
  have hshape : response.outputTensor.metadata.shape.isEmpty = false :=
    List.isEmpty_eq_false_iff.mpr hrows.2
  rw [← hrows.1]
  unfold responseFrame frameRows dli2SequenceLength
  simp only [hshape, Bool.false_eq_true, if_false]

omit [FloatArith D] in
/-- A frame of a generation moves the counter by its rows. -/
theorem update_counts (hmode : request.generationMode = ascii "prefill" ∨
      request.generationMode = ascii "decode" ∧ frameRows request.inputTensor = 1)
    (hkv : request.kvCacheEnabled = true) (kvCache : PartitionKvCacheState) :
    (updateKvCacheForRequest request kvCache).2.seqLen =
      kvCache.seqLen + frameRows request.inputTensor := by
  unfold updateKvCacheForRequest
  simp only [hkv, Bool.not_true, Bool.false_eq_true, if_false]
  rcases hmode with hmode | ⟨hmode, hone⟩
  · simp only [hmode, if_true]
    unfold frameRows
    split
    · next hneg =>
      rw [Option.getD_none]
      omega
    · rw [Option.getD_some]
  · have hne : ascii "decode" ≠ ascii "prefill" := by decide
    unfold frameRows at hone ⊢
    have hseq : toInt32 (dli2SequenceLength request.inputTensor) = 1 := by omega
    simp only [hmode, hne, hseq, if_true, if_false, ne_eq, not_true_eq_false, Option.getD_some]
    rfl

/-- The counter of a request at a stage. -/
def CountsTo (states : StageStates d.hp) (i : ℕ) (request : RuntimeRequest D) (n : ℕ) : Prop :=
  ∃ session, (states i).lookup (sessionKey request) = some session ∧ session.kvCache.seqLen = n

/-- Where the counter stands when a frame is executed. -/
def StartsAt (states : StageStates d.hp) (i : ℕ) (request : RuntimeRequest D) (n : ℕ) : Prop :=
  resetsSession request = true ∧ n = 0 ∨
    resetsSession request = false ∧ CountsTo states i request n

/-- A served frame moves the counter of its stage by its rows. -/
theorem serve_counts {i n : ℕ} {states after : StageStates d.hp} {response : RuntimeResponse}
    (hmode : request.generationMode = ascii "prefill" ∨
      request.generationMode = ascii "decode" ∧ frameRows request.inputTensor = 1)
    (hkv : request.kvCacheEnabled = true) (hstart : StartsAt states i request n)
    (hrun : d.serve i request states = .ok response after) :
    CountsTo after i request (n + frameRows request.inputTensor) := by
  obtain ⟨session, hlookup, hdone⟩ := serveSession_ok (serve_ok_iff.mpr ⟨after, hrun, rfl⟩)
  refine ⟨session, hlookup, ?_⟩
  rw [hdone.counter, update_counts hmode hkv]
  congr 1
  unfold openedSession
  rcases hstart with ⟨hreset, rfl⟩ | ⟨hcontinues, stored, hstored, hcount⟩
  · rw [if_pos hreset]
    rfl
  · rw [if_neg (by rw [hcontinues]; exact Bool.noConfusion), hstored]
    exact hcount

/-- Stages before a sequence are left alone. -/
theorem sequence_elsewhere {k i : ℕ} {states after : StageStates d.hp}
    {response : RuntimeResponse}
    (hrun : serveSequence d k i request states = .ok response after) {j : ℕ} (hj : j < i) :
    after j = states j := by
  have hserve {request : RuntimeRequest D} {states after : StageStates d.hp}
      {response : RuntimeResponse} (hrun : d.serve i request states = .ok response after) :
      after j = states j := by
    have helsewhere := serve_elsewhere d i request states (show j ≠ i by omega)
    rwa [hrun] at helsewhere
  induction k generalizing i request states with
  | zero => exact hserve hrun
  | succ k ih =>
    rw [serveSequence, bind_apply] at hrun
    cases hfirst : d.serve i request states with
    | error message states₁ =>
      rw [hfirst] at hrun
      cases hrun
    | ok response₁ states₁ =>
      rw [hfirst] at hrun
      have hhere := serve_elsewhere d i request states (show j ≠ i by omega)
      rw [hfirst] at hhere
      refine (ih hrun (by omega) ?_).trans hhere
      intro request states after response hrun
      have helsewhere := serve_elsewhere d (i + 1) request states (show j ≠ i + 1 by omega)
      rwa [hrun] at helsewhere

/-- A sequence moves the counters of all its stages by the rows of its frame. -/
theorem sequence_counts {settings : GatewaySettings D} (horder : InPipelineOrder d settings) (k : ℕ)
    {i n : ℕ} (hi : i + k + 1 = d.partitions.length) {states after : StageStates d.hp}
    {response : RuntimeResponse}
    (hmode : request.generationMode = ascii "prefill" ∨
      request.generationMode = ascii "decode" ∧ frameRows request.inputTensor = 1)
    (hkv : request.kvCacheEnabled = true)
    (hstart : ∀ j ∈ List.range' i (k + 1), StartsAt states j request n)
    (hrun : serveSequence d k i request states = .ok response after) :
    ∀ j ∈ List.range' i (k + 1), CountsTo after j request (n + frameRows request.inputTensor) := by
  induction k generalizing i request states with
  | zero =>
    intro j hj
    obtain rfl : j = i := List.mem_singleton.mp hj
    exact serve_counts hmode hkv (hstart j hj) hrun
  | succ k ih =>
    rw [serveSequence, bind_apply] at hrun
    cases hfirst : d.serve i request states with
    | error message states₁ =>
      rw [hfirst] at hrun
      cases hrun
    | ok response₁ states₁ =>
      rw [hfirst] at hrun
      have hrows := serve_rows hfirst (horder.endsRoute_inner (by omega))
      rw [List.range'_succ] at hstart ⊢
      have hahead : ∀ j ∈ List.range' (i + 1) (k + 1),
          StartsAt states₁ j (responseFrame request response₁).request n := by
        intro j hj
        have hne : j ≠ i := fun heq => not_mem_behind i (k + 1) (heq ▸ hj)
        have hsame := serve_elsewhere d i request states hne
        rw [hfirst] at hsame
        rcases hstart j (List.mem_cons_of_mem i hj) with hreset | ⟨hcontinues, hcounts⟩
        · exact .inl hreset
        · refine .inr ⟨hcontinues, ?_⟩
          unfold CountsTo
          rw [show states₁ j = states j from hsame]
          exact hcounts
      have hnext : (responseFrame request response₁).request.generationMode = ascii "prefill" ∨
          (responseFrame request response₁).request.generationMode = ascii "decode" ∧
            frameRows (responseFrame request response₁).request.inputTensor = 1 := by
        rw [hrows]
        exact hmode
      have hrest := @ih (responseFrame request response₁).request (i + 1)
        (show i + 1 + k + 1 = _ by omega) states₁ hnext hkv hahead hrun
      rw [hrows] at hrest
      intro j hj
      rcases List.mem_cons.mp hj with rfl | hj
      · unfold CountsTo
        rw [sequence_elsewhere hrun (Nat.lt_succ_self j)]
        exact serve_counts hmode hkv (hstart j List.mem_cons_self) hfirst
      · exact hrest j hj

end Counters

section Generations

variable {net : Network F D} {settings : GatewaySettings D} {requestId : Bytes}

/-- The request of a generation, as far as its sessions depend on it. -/
abbrev anyRequest (settings : GatewaySettings D) (requestId : Bytes) : RuntimeRequest D :=
  (gatewayFrame settings requestId ⟨0, [], []⟩).request

/-- The decode frames of a generation with `n` tokens, each served once at every stage. -/
def onceEach (stages n : ℕ) : List (ℕ × ℤ) :=
  (List.range' 1 (n - 1)).flatMap fun (index : ℕ) =>
    (List.range stages).map fun i => (i, (index : ℤ))

/-- Two networks after some pipeline calls, the second one without failures. -/
structure InStep (net : Network F D) (settings : GatewaySettings D) (requestId : Bytes)
    (tokens : List ℤ) (calls : ℕ) (s : NetworkState net.deployment.hp D)
    (t : StageStates net.deployment.hp) : Prop where
  alike : Alike (anyRequest settings requestId) (List.range net.deployment.partitions.length)
    s.states t
  counts : ∀ i < net.deployment.partitions.length, CountsTo t i (anyRequest settings requestId)
    ((toInt32 tokens.length).toNat + (calls - 1))
  once : decodes s.served = onceEach net.deployment.partitions.length calls

/-- Two answers of one response carry the same token. -/
theorem carriesToken_of_answered {result result' : StageClientResult (StageFrame D)}
    {response : RuntimeResponse} (h : Answered result response) (h' : Answered result' response) :
    CarriesToken (net.pipeline settings requestId) (net.deployment.pipeline settings requestId)
      result result' := by
  obtain ⟨request, rfl⟩ := h
  obtain ⟨request', rfl⟩ := h'
  exact fun token htoken => htoken

/-- One pipeline call over the network, next to the call without failures. -/
theorem call_in_step (horder : InPipelineOrder net.deployment settings)
    (hkeeps : KeepsDecodes net) {call : PipelineCall}
    (hmode : call.generationMode = ascii "prefill" ∨
      call.generationMode = ascii "decode" ∧ call.tokens.length = 1)
    {s s' : NetworkState net.deployment.hp D} {t : StageStates net.deployment.hp}
    {result : StageClientResult (StageFrame D)}
    (halike : resetsSession (gatewayFrame settings requestId call).request = true ∨
      Alike (gatewayFrame settings requestId call).request
        (List.range net.deployment.partitions.length) s.states t)
    {n : ℕ} (hstart : ∀ i < net.deployment.partitions.length,
      StartsAt t i (gatewayFrame settings requestId call).request n)
    (hrun : (net.pipeline settings requestId).call call s = .ok result s') :
    ∃ result' t', (net.deployment.pipeline settings requestId).call call t = .ok result' t' ∧
      CarriesToken (net.pipeline settings requestId) (net.deployment.pipeline settings requestId)
        result result' ∧
      Alike (anyRequest settings requestId) (List.range net.deployment.partitions.length)
        s'.states t' ∧
      (∀ i < net.deployment.partitions.length, CountsTo t' i (anyRequest settings requestId)
        (n + (toInt32 call.tokens.length).toNat)) ∧
      decodes s'.served = decodes s.served ++
        visits (gatewayFrame settings requestId call).request
          (List.range net.deployment.partitions.length) := by
  obtain ⟨response, t', hsequence, hanswered, hvisited⟩ :=
    call_follows horder hkeeps requestId call halike hrun
  have hplain := horder.simulates_call requestId call t t rfl
  rw [hsequence] at hplain
  have hseveral := horder.several
  have hlength : 0 + (net.deployment.partitions.length - 1) + 1 =
      net.deployment.partitions.length := by omega
  have hcounts := sequence_counts horder _ hlength
    (hmode.imp_right fun h => ⟨h.1, by
      change (toInt32 (call.tokens.length : ℤ)).toNat = 1
      rw [h.2]
      rfl⟩) rfl
    (fun j hj => hstart j (by rw [List.mem_range'_1] at hj; omega)) hsequence
  cases hcall : (net.deployment.pipeline settings requestId).call call t with
  | error message t'' =>
    rw [hcall] at hplain
    exact hplain.elim
  | ok result' t'' =>
    rw [hcall] at hplain
    obtain ⟨hanswered', rfl⟩ := hplain
    refine ⟨result', t'', rfl, carriesToken_of_answered hanswered hanswered', hvisited.alike,
      fun i hi => ?_, hvisited.decoded⟩
    exact hcounts i (by rw [List.mem_range'_1]; omega)

theorem onceEach_succ (stages n : ℕ) (hn : 1 ≤ n) :
    onceEach stages (n + 1) =
      onceEach stages n ++ (List.range stages).map fun i => (i, (n : ℤ)) := by
  unfold onceEach
  have hrange : List.range' 1 (n + 1 - 1) = List.range' 1 (n - 1) ++ [n] := by
    obtain ⟨m, rfl⟩ : ∃ m, n = m + 1 := ⟨n - 1, by omega⟩
    rw [Nat.add_sub_cancel, Nat.add_sub_cancel, List.range'_concat]
    congr 2
    omega
  rw [hrange, List.flatMap_append, List.flatMap_singleton]

/-- The prefill brings both networks in step. -/
theorem prefill_follows (horder : InPipelineOrder net.deployment settings)
    (hkeeps : KeepsDecodes net) (requestId : Bytes) (tokens : List ℤ) :
    CallFollows (net.pipeline settings requestId) (net.deployment.pipeline settings requestId)
      ⟨0, ascii "prefill", tokens⟩ (fun s t => s.states = t ∧ s.served = [])
      (InStep net settings requestId tokens 1) := by
  rintro s t result s' ⟨rfl, hserved⟩ hrun
  have hreset : resetsSession
      (gatewayFrame settings requestId ⟨0, ascii "prefill", tokens⟩).request = true := rfl
  obtain ⟨result', t', hcall, htoken, halike, hcounts, honce⟩ :=
    call_in_step horder hkeeps (.inl rfl) (.inl hreset) (fun i _ => .inl ⟨hreset, rfl⟩) hrun
  refine ⟨result', t', hcall, htoken, halike, fun i hi => ?_, ?_⟩
  · rw [Nat.sub_self, Nat.add_zero, ← Nat.zero_add (toInt32 _).toNat]
    exact hcounts i hi
  · have hvisits : visits (gatewayFrame settings requestId ⟨0, ascii "prefill", tokens⟩).request
        (List.range net.deployment.partitions.length) = [] :=
      if_neg (show ascii "prefill" ≠ ascii "decode" by decide)
    rw [honce, hserved, hvisits]
    rfl

/-- A decode call keeps them in step. -/
theorem decode_follows (horder : InPipelineOrder net.deployment settings)
    (hkeeps : KeepsDecodes net) (requestId : Bytes) (tokens : List ℤ) {i : ℕ} (hi : 1 ≤ i)
    (token : ℤ) :
    CallFollows (net.pipeline settings requestId) (net.deployment.pipeline settings requestId)
      ⟨i, ascii "decode", [token]⟩ (InStep net settings requestId tokens i)
      (InStep net settings requestId tokens (i + 1)) := by
  intro s t result s' hstep hrun
  have hcontinues : resetsSession
      (gatewayFrame settings requestId ⟨i, ascii "decode", [token]⟩).request = false := rfl
  have halike : Alike (gatewayFrame settings requestId ⟨i, ascii "decode", [token]⟩).request
      (List.range net.deployment.partitions.length) s.states t := hstep.alike
  obtain ⟨result', t', hcall, htoken, halike, hcounts, honce⟩ :=
    call_in_step horder hkeeps (.inr ⟨rfl, rfl⟩) (.inr halike)
      (fun j hj => .inr ⟨hcontinues, hstep.counts j hj⟩) hrun
  refine ⟨result', t', hcall, htoken, halike, fun j hj => ?_, ?_⟩
  · have hone : (toInt32 ([token].length : ℤ)).toNat = 1 := by
      rw [List.length_singleton]
      rfl
    have hcount := hcounts j hj
    rw [hone] at hcount
    rw [show i + 1 - 1 = i - 1 + 1 by omega, ← Nat.add_assoc]
    exact hcount
  · have hvisits : visits (gatewayFrame settings requestId ⟨i, ascii "decode", [token]⟩).request
        (List.range net.deployment.partitions.length) =
          (List.range net.deployment.partitions.length).map fun j => (j, (i : ℤ)) := if_pos rfl
    rw [honce, hstep.once, onceEach_succ _ _ hi, hvisits]

/-- A generation without a trace of failing connections. -/
structure Undisturbed (net : Network F D) (settings : GatewaySettings D) (requestId : Bytes)
    (s : LoopState (NetworkState net.deployment.hp D))
    (t : LoopState (StageStates net.deployment.hp)) : Prop where
  result : s.result = t.result
  /-- Every stage holds the session that it holds without failures. -/
  sessions : ∀ i < net.deployment.partitions.length,
    (s.pipeline.states i).lookup (sessionKey (anyRequest settings requestId)) =
      (t.pipeline i).lookup (sessionKey (anyRequest settings requestId))
  /-- Every decode frame was served once at every stage. -/
  once : decodes s.pipeline.served =
    onceEach net.deployment.partitions.length s.result.generatedTokenIds.length
  /-- Every counter stands behind the prompt and the decoded tokens. -/
  counters : ∀ i < net.deployment.partitions.length, ∃ session,
    (s.pipeline.states i).lookup (sessionKey (anyRequest settings requestId)) = some session ∧
      session.kvCache.seqLen = (toInt32 s.result.promptTokenIds.length).toNat +
        (s.result.generatedTokenIds.length - 1)

/-- If no answer to a decode frame is lost behind its stage, a generation that succeeds
shows no trace of the connections that failed. -/
theorem generation_undisturbed (horder : InPipelineOrder net.deployment settings)
    (hkeeps : KeepsDecodes net) (tokenizer : Tokenizer) (requestId prompt : Bytes)
    (maxNewTokens : ℤ) (start : StageStates net.deployment.hp)
    (hok : (net.generate settings tokenizer requestId prompt maxNewTokens
      { states := start }).result.ok = true) :
    Undisturbed net settings requestId
      (net.generate settings tokenizer requestId prompt maxNewTokens { states := start })
      (net.deployment.generate settings tokenizer requestId prompt maxNewTokens start) := by
  generalize hs : net.generate settings tokenizer requestId prompt maxNewTokens
    { states := start } = s at hok
  have hstart : (fun (s : NetworkState net.deployment.hp D) t => s.states = t ∧ s.served = [])
      { states := start } start := ⟨rfl, rfl⟩
  obtain ⟨t, ht, hresult, hstep⟩ := runStubGeneration_follows
    (fun tokens _ => prefill_follows horder hkeeps requestId tokens)
    (fun tokens i token hi => decode_follows horder hkeeps requestId tokens hi token)
    requestId maxNewTokens hstart hs hok
  have ht' : net.deployment.generate settings tokenizer requestId prompt maxNewTokens start = t :=
    ht
  have hcalls : max 1 s.result.generatedTokenIds.length - 1 =
      s.result.generatedTokenIds.length - 1 := by omega
  rw [ht']
  refine ⟨hresult, fun i hi => hstep.alike i (List.mem_range.mpr hi), ?_, fun i hi => ?_⟩
  · rw [hstep.once]
    unfold onceEach
    rw [hcalls]
  · obtain ⟨session, hlookup, hcount⟩ := hstep.counts i hi
    refine ⟨session, ?_, ?_⟩
    · rw [← hlookup]
      exact hstep.alike i (List.mem_range.mpr hi)
    · rw [hcount, hcalls]

end Generations

section Tiny

/-- Two stages whose connections fail at two attempts, for some frames with the answer
behind the stage. -/
def flakyNetwork (loses : RuntimeRequest Binary64 → Bool) : Network Binary32 Binary64 where
  deployment := tinyDeployment (tinySplit [[0], [1]])
  fate n _ request :=
    if n = 0 ∨ n = 3 then
      if loses request then .lost (ascii "recv timed out") else .undelivered (ascii "refused")
    else .answered

/-- Two tokens over these stages. -/
def flakyGeneration (loses : RuntimeRequest Binary64 → Bool) :
    LoopState (NetworkState tinyHyperparams Binary64) :=
  (flakyNetwork loses).generate (greedySettings (tinySplit [[0], [1]]) false) tinyTokenizer
    (ascii "r") (ascii "hi") 2 { states := fun _ => ∅ }

/-- The first prefill is served twice, and a decode frame is posted twice. -/
theorem generation_undisturbed_flaky :
    Undisturbed (flakyNetwork resetsSession) (greedySettings (tinySplit [[0], [1]]) false)
      (ascii "r") (flakyGeneration resetsSession)
      ((tinyDeployment (tinySplit [[0], [1]])).generate
        (greedySettings (tinySplit [[0], [1]]) false) tinyTokenizer (ascii "r") (ascii "hi") 2
        fun _ => ∅) := by
  have horder : InPipelineOrder (flakyNetwork resetsSession).deployment
      (greedySettings (tinySplit [[0], [1]]) false) :=
    tinySplit_inPipelineOrder [[0], [1]] false (by decide) (by decide)
  refine generation_undisturbed horder ?_ tinyTokenizer (ascii "r") (ascii "hi") 2 (fun _ => ∅)
    (by decide +kernel)
  intro n i request message hlost
  unfold flakyNetwork at hlost
  dsimp only at hlost
  split at hlost
  · split at hlost
    · assumption
    · cases hlost
  · cases hlost

/-- With the answer to a decode frame lost, the frame is served twice at the first stage,
and the generation succeeds on a session that is one position ahead. -/
theorem lost_decode_served_twice :
    let s := flakyGeneration fun request => !resetsSession request
    s.result.ok = true ∧ decodes s.pipeline.served = [(0, 1), (0, 1), (1, 1)] ∧
      ((s.pipeline.states 0).lookup (ascii "r")).map (fun session => session.kvCache.seqLen) =
        some 3 := by
  decide +kernel

end Tiny

end LayerInference.LostAnswers
