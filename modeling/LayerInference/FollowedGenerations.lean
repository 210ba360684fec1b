import LayerInference.GenerationLoop
import LayerInference.OneSidedRuns

/-!
# A generation that follows another

When every pipeline call that returns carries the token of the call of another
pipeline, a generation that succeeds has the result of the other generation. The
relation between the two pipelines may depend on the prompt and on the number of
calls made so far, so that it can count them.
-/

namespace LayerInference.FollowedGenerations

open ByteStrings FallibleRuns RunSimulation OneSidedRuns TensorAbi GenerationLoop

variable {σ τ ρ ρ' : Type} {tokenizer : Tokenizer} {settings : LoopSettings}
  {pipeline : Pipeline σ ρ} {pipeline' : Pipeline τ ρ'} {tokens : List ℤ}
  {R : List ℤ → ℕ → σ → τ → Prop}

/-- The second answer carries the token of the first. -/
def CarriesToken (pipeline : Pipeline σ ρ) (pipeline' : Pipeline τ ρ') (response : ρ)
    (response' : ρ') : Prop :=
  ∀ token, pipeline.nextTokenId response = .ok token → pipeline'.nextTokenId response' = .ok token

/-- A call that returns is one that the other pipeline answers with the same token. -/
def CallFollows (pipeline : Pipeline σ ρ) (pipeline' : Pipeline τ ρ') (call : PipelineCall)
    (R S : σ → τ → Prop) : Prop :=
  Follows R (pipeline.call call) (pipeline'.call call) (CarriesToken pipeline pipeline') S

/-- Equal results with `n` tokens, before pipelines that were called `calls` times. -/
structure Alongside (R : List ℤ → ℕ → σ → τ → Prop) (tokens : List ℤ) (n calls : ℕ)
    (s : LoopState σ) (t : LoopState τ) : Prop where
  result : s.result = t.result
  prompt : s.result.promptTokenIds = tokens
  collected : s.result.generatedTokenIds.length = n
  pipelines : R tokens calls s.pipeline t.pipeline

/-- Equal results behind the loop: one call for each token, and at least one. -/
def Finished (R : List ℤ → ℕ → σ → τ → Prop) (tokens : List ℤ) (s : LoopState σ)
    (t : LoopState τ) : Prop :=
  ∃ n, Alongside R tokens n (max 1 n) s t

theorem follows_setTermination {n calls : ℕ} (reason : Bytes) :
    Follows (Alongside R tokens n calls) (setTermination reason) (setTermination reason) Eq
      (Alongside R tokens n calls) := by
  intro s t u s' hst hrun
  cases hrun
  have hresult := congrArg (fun r => { r with terminationReason := reason }) hst.result
  exact ⟨(), _, rfl, rfl, hresult, hst.prompt, hst.collected, hst.pipelines⟩

theorem follows_pushToken {n calls : ℕ} (token : ℤ) :
    Follows (Alongside R tokens n calls) (pushToken token) (pushToken token) Eq
      (Alongside R tokens (n + 1) calls) := by
  intro s t u s' hst hrun
  cases hrun
  have hresult := congrArg
    (fun r => { r with generatedTokenIds := r.generatedTokenIds ++ [token] }) hst.result
  refine ⟨(), _, rfl, rfl, hresult, hst.prompt, ?_, hst.pipelines⟩
  dsimp only
  rw [List.length_append, hst.collected, List.length_singleton]

theorem follows_callPipeline {call : PipelineCall} {n calls : ℕ}
    (h : CallFollows pipeline pipeline' call (R tokens calls) (R tokens (calls + 1))) :
    Follows (Alongside R tokens n calls) (callPipeline pipeline call)
      (callPipeline pipeline' call) (CarriesToken pipeline pipeline')
      (Alongside R tokens n (calls + 1)) :=
  follows_onPart h (fun _ _ hst => hst.pipelines)
    fun _ _ _ _ hst huv => ⟨hst.result, hst.prompt, hst.collected, huv⟩

theorem follows_shouldStopAfter {n calls : ℕ} (token : ℤ) :
    Follows (Alongside R tokens n calls) (shouldStopAfter settings tokenizer token)
      (shouldStopAfter settings tokenizer token) Eq (Alongside R tokens n calls) := by
  intro s t stop s' hst hrun
  unfold shouldStopAfter at hrun ⊢
  rw [← hst.result]
  split at hrun
  · next hmin =>
    cases hrun
    exact ⟨false, t, if_pos hmin, rfl, hst⟩
  · next hmin =>
    cases htext : tokenizer.detokenize [token] with
    | error message =>
      rw [htext] at hrun
      cases hrun
    | ok text =>
      rw [htext] at hrun
      cases hrun
      exact ⟨_, t, by rw [if_neg hmin], rfl, hst⟩

/-- Taking the token of an answer and going on with it. -/
theorem follows_collect {n : ℕ} {response : ρ} {response' : ρ'}
    (htoken : CarriesToken pipeline pipeline' response response') {rest : ℤ → LoopM σ Unit}
    {rest' : ℤ → LoopM τ Unit}
    (hrest : ∀ token, Follows (Alongside R tokens (n + 1) (n + 1)) (rest token) (rest' token) Eq
      (Finished R tokens)) :
    Follows (Alongside R tokens n (n + 1))
      (do
        let token ← stateless (pipeline.nextTokenId response)
        pushToken token
        let stop ← shouldStopAfter settings tokenizer token
        if stop then setTermination (ascii "stop_marker") else rest token)
      (do
        let token ← stateless (pipeline'.nextTokenId response')
        pushToken token
        let stop ← shouldStopAfter settings tokenizer token
        if stop then setTermination (ascii "stop_marker") else rest' token)
      Eq (Finished R tokens) := by
  have hnext : Follows (Alongside R tokens n (n + 1)) (stateless (pipeline.nextTokenId response))
      (stateless (pipeline'.nextTokenId response')) Eq (Alongside R tokens n (n + 1)) :=
    follows_stateless fun token h => ⟨token, htoken token h, rfl⟩
  refine follows_bind hnext ?_
  rintro token _ rfl
  refine follows_bind (follows_pushToken token) fun _ _ _ => ?_
  refine follows_bind (follows_shouldStopAfter token) ?_
  rintro stop _ rfl
  cases stop with
  | true =>
    refine follows_weaken (follows_setTermination _) (fun _ _ hst => hst) (fun _ _ h => h) ?_
    intro s t hst
    exact ⟨n + 1, by rwa [max_eq_right (by omega)]⟩
  | false => exact hrest token

theorem follows_decodeLoop
    (hdecode : ∀ i token, 1 ≤ i → CallFollows pipeline pipeline' ⟨i, ascii "decode", [token]⟩
      (R tokens i) (R tokens (i + 1)))
    (remaining : ℕ) {i : ℕ} (hi : 1 ≤ i) (lastTokenId : ℤ) :
    Follows (Alongside R tokens i i)
      (decodeLoop settings tokenizer pipeline remaining i lastTokenId)
      (decodeLoop settings tokenizer pipeline' remaining i lastTokenId) Eq (Finished R tokens) := by
  induction remaining generalizing i lastTokenId with
  | zero =>
    refine follows_pure rfl fun s t hst => ⟨i, ?_⟩
    rwa [max_eq_right hi]
  | succ remaining ih =>
    unfold decodeLoop
    refine follows_bind (follows_callPipeline (hdecode i lastTokenId hi)) ?_
    exact fun response response' htoken => follows_collect htoken fun token => ih (by omega) token

/-- Everything inside the exception handler. -/
theorem follows_generationBody {prompt : Bytes} {Q : σ → τ → Prop}
    (hprefill : ∀ tokens, tokenizer.tokenize
      (formatPromptForGeneration prompt settings.applyChatTemplate) = .ok tokens →
      CallFollows pipeline pipeline' ⟨0, ascii "prefill", tokens⟩ Q (R tokens 1))
    (hdecode : ∀ tokens i token, 1 ≤ i →
      CallFollows pipeline pipeline' ⟨i, ascii "decode", [token]⟩ (R tokens i) (R tokens (i + 1)))
    (maxNewTokens : ℤ) {start : LoopState σ} {start' : LoopState τ}
    (hresult : start.result = start'.result) (hids : start.result.generatedTokenIds = [])
    (hstart : Q start.pipeline start'.pipeline) {final : LoopState σ}
    (hrun : generationBody settings tokenizer pipeline prompt maxNewTokens start = .ok () final) :
    ∃ end', generationBody settings tokenizer pipeline' prompt maxNewTokens start' = .ok () end' ∧
      final.result = end'.result ∧ R final.result.promptTokenIds
        (max 1 final.result.generatedTokenIds.length) final.pipeline end'.pipeline := by
  have hbody : Follows (fun s t => s.result = t.result ∧ s.result.generatedTokenIds = [] ∧
      Q s.pipeline t.pipeline) (generationBody settings tokenizer pipeline prompt maxNewTokens)
      (generationBody settings tokenizer pipeline' prompt maxNewTokens) Eq
      fun s t => s.result = t.result ∧ R s.result.promptTokenIds
        (max 1 s.result.generatedTokenIds.length) s.pipeline t.pipeline := by
    unfold generationBody
    refine follows_stateless_bind fun tokens htokens => ?_
    have hset : Follows (fun (s : LoopState σ) (t : LoopState τ) => s.result = t.result ∧
        s.result.generatedTokenIds = [] ∧ Q s.pipeline t.pipeline)
        (modifyResult fun r => { r with promptTokenIds := tokens })
        (modifyResult fun r => { r with promptTokenIds := tokens }) Eq
        (Alongside (fun _ _ => Q) tokens 0 0) := by
      intro s t u s' hst hrun
      cases hrun
      have hresult := congrArg (fun r => { r with promptTokenIds := tokens }) hst.1
      exact ⟨(), _, rfl, rfl, hresult, rfl, congrArg List.length hst.2.1, hst.2.2⟩
    refine follows_bind hset fun _ _ _ => ?_
    have hcall : Follows (Alongside (fun _ _ => Q) tokens 0 0)
        (callPipeline pipeline ⟨0, ascii "prefill", tokens⟩)
        (callPipeline pipeline' ⟨0, ascii "prefill", tokens⟩) (CarriesToken pipeline pipeline')
        (Alongside R tokens 0 1) :=
      follows_onPart (hprefill tokens htokens) (fun _ _ hst => hst.pipelines)
        fun _ _ _ _ hst huv => ⟨hst.result, hst.prompt, hst.collected, huv⟩
    refine follows_bind hcall fun response response' htoken => ?_
    refine follows_bind (follows_setTermination _) fun _ _ _ => ?_
    have hloop : Follows (Alongside R tokens 0 1)
        (decodeAfterPrefill settings tokenizer pipeline maxNewTokens.toNat response)
        (decodeAfterPrefill settings tokenizer pipeline' maxNewTokens.toNat response') Eq
        (Finished R tokens) := by
      cases maxNewTokens.toNat with
      | zero => exact follows_pure rfl fun s t hst => ⟨0, hst⟩
      | succ remaining =>
        exact follows_collect htoken fun token =>
          follows_decodeLoop (hdecode tokens) remaining le_rfl token
    refine follows_bind hloop fun _ _ _ => ?_
    rintro s t u s' ⟨n, hst⟩ hrun
    simp only [bind_apply, get_apply] at hrun ⊢
    rw [← hst.result]
    cases htext : tokenizer.detokenize s.result.generatedTokenIds with
    | error message =>
      rw [htext] at hrun
      cases hrun
    | ok text =>
      rw [htext] at hrun
      cases hrun
      have hresult := congrArg (fun r =>
        { r with
          generatedText := cleanupGeneratedText text
          generatedTokenCount := r.generatedTokenIds.length }) hst.result
      have hpipelines := hst.pipelines
      rw [← hst.prompt, ← hst.collected] at hpipelines
      exact ⟨(), _, rfl, trivial, hresult, hpipelines⟩
  obtain ⟨u, end', hrun', -, h⟩ := hbody start start' () final ⟨hresult, hids, hstart⟩ hrun
  exact ⟨end', hrun', h⟩

/-- A generation that succeeds has the result of the one that it follows. -/
theorem runStubGeneration_follows {prompt : Bytes} {Q : σ → τ → Prop}
    (hprefill : ∀ tokens, tokenizer.tokenize
      (formatPromptForGeneration prompt settings.applyChatTemplate) = .ok tokens →
      CallFollows pipeline pipeline' ⟨0, ascii "prefill", tokens⟩ Q (R tokens 1))
    (hdecode : ∀ tokens i token, 1 ≤ i →
      CallFollows pipeline pipeline' ⟨i, ascii "decode", [token]⟩ (R tokens i) (R tokens (i + 1)))
    (requestId : Bytes) (maxNewTokens : ℤ) {start : σ} {start' : τ} (hstart : Q start start')
    {s : LoopState σ}
    (hs : runStubGeneration settings tokenizer pipeline requestId prompt maxNewTokens start = s)
    (hok : s.result.ok = true) :
    ∃ t, runStubGeneration settings tokenizer pipeline' requestId prompt maxNewTokens start' = t ∧
      s.result = t.result ∧ R s.result.promptTokenIds (max 1 s.result.generatedTokenIds.length)
        s.pipeline t.pipeline := by
  unfold runStubGeneration at hs
  cases hbody : generationBody settings tokenizer pipeline prompt maxNewTokens
      ⟨emptyResult tokenizer requestId prompt, start⟩ with
  | error message s' =>
    rw [hbody] at hs
    subst hs
    cases hok
  | ok u s' =>
    rw [hbody] at hs
    subst hs
    obtain ⟨end', hrun, h⟩ := @follows_generationBody _ _ _ _ _ _ _ _ R _ _ hprefill hdecode
      maxNewTokens _ ⟨emptyResult tokenizer requestId prompt, start'⟩ rfl rfl hstart _ hbody
    refine ⟨end', ?_, h⟩
    unfold runStubGeneration
    rw [hrun]

end LayerInference.FollowedGenerations
