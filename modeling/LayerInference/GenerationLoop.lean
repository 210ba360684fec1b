import LayerInference.FallibleRuns
import LayerInference.RunSimulation
import LayerInference.TensorAbi

/-!
# The generation loop of the gateway

A generation tokenizes its prompt, makes one pipeline call for the prefill and
one for each further token, and stops at the token limit or at a token whose
text holds a control marker. An error ends it; the tokens collected until then
stay in the result. The pipeline is a parameter: any stateful call that
answers or fails.
-/

namespace LayerInference.GenerationLoop

open ByteStrings FallibleRuns RunSimulation TensorAbi

variable {σ τ ρ : Type}

/-- A tokenizer; both directions may fail. -/
structure Tokenizer where
  backendName : Bytes
  tokenize : Bytes → Except Bytes (List ℤ)
  detokenize : List ℤ → Except Bytes Bytes

/-- What varies between the frames of one generation. -/
structure PipelineCall where
  tokenIndex : ℕ
  generationMode : Bytes
  tokens : List ℤ

/-- A pipeline call with a response, and the token that the response carries. -/
structure Pipeline (σ ρ : Type) where
  call : PipelineCall → EStateM Bytes σ ρ
  nextTokenId : ρ → Except Bytes ℤ

/-- The settings that the loop itself reads. -/
structure LoopSettings where
  minNewTokens : ℤ := 0
  applyChatTemplate : Bool := true

structure GenerationLoopResult where
  requestId : Bytes
  prompt : Bytes
  tokenizerBackend : Bytes
  promptTokenIds : List ℤ := []
  generatedTokenIds : List ℤ := []
  generatedText : Bytes := []
  generatedTokenCount : ℕ := 0
  ok : Bool := true
  error : Bytes := []
  terminationReason : Bytes := ascii "unknown"
  deriving DecidableEq

def containsGenerationControlMarker (text : Bytes) : Bool :=
  (find (ascii "</s>") text).isSome || (find (ascii "<s>") text).isSome ||
    (find (ascii "<|user|>") text).isSome || (find (ascii "<|assistant|>") text).isSome ||
    (find (ascii "<|system|>") text).isSome

/-- The chat template, unless the prompt has one. -/
def formatPromptForGeneration (prompt : Bytes) (applyChatTemplate : Bool) : Bytes :=
  if !applyChatTemplate then prompt
  else if (find (ascii "<|user|>") prompt).isSome || (find (ascii "<|assistant|>") prompt).isSome then
    prompt
  else ascii "<|user|>\n" ++ prompt ++ ascii "</s>\n<|assistant|>\n"

/-- Cut the text at a marker. -/
def cutAtMarker (text marker : Bytes) : Bytes :=
  match find marker text with
  | some pos => text.take pos
  | none => text

/-- Erase every occurrence of a marker, searching on behind the last one. Each
pass removes at least one byte. -/
def eraseLoop (marker : Bytes) : ℕ → Bytes → Bytes
  | 0, text => text
  | fuel + 1, text =>
    match find marker text with
    | some pos => text.take pos ++ eraseLoop marker fuel (text.drop (pos + marker.length))
    | none => text

def eraseMarker (text marker : Bytes) : Bytes := eraseLoop marker text.length text

def cleanupGeneratedText (text : Bytes) : Bytes :=
  let cut := [ascii "<|user|>", ascii "<|system|>", ascii "<|assistant|>"].foldl cutAtMarker text
  trimCopy ([ascii "</s>", ascii "<s>"].foldl eraseMarker cut)

/-- The result under construction, and the state behind the pipeline. -/
structure LoopState (σ : Type) where
  result : GenerationLoopResult
  pipeline : σ

/-- A step of the loop; the result survives an exception. -/
abbrev LoopM (σ : Type) := EStateM Bytes (LoopState σ)

/-- Change the result. -/
def modifyResult (f : GenerationLoopResult → GenerationLoopResult) : LoopM σ Unit := fun s =>
  .ok () { s with result := f s.result }

/-- Make a pipeline call. -/
def callPipeline (pipeline : Pipeline σ ρ) (call : PipelineCall) : LoopM σ ρ :=
  onPart LoopState.pipeline (fun s t => { s with pipeline := t }) (pipeline.call call)

def pushToken (token : ℤ) : LoopM σ Unit :=
  modifyResult fun r => { r with generatedTokenIds := r.generatedTokenIds ++ [token] }

def setTermination (reason : Bytes) : LoopM σ Unit :=
  modifyResult fun r => { r with terminationReason := reason }

/-- Whether the generation ends after the token that was just collected. -/
def shouldStopAfter (settings : LoopSettings) (tokenizer : Tokenizer) (token : ℤ) : LoopM σ Bool :=
  fun s =>
    if toInt32 s.result.generatedTokenIds.length < settings.minNewTokens then .ok false s
    else
      match tokenizer.detokenize [token] with
      | .ok text => .ok (containsGenerationControlMarker text) s
      | .error message => .error message s

/-- Decode the remaining tokens, the next one with index `i`. -/
def decodeLoop (settings : LoopSettings) (tokenizer : Tokenizer) (pipeline : Pipeline σ ρ) :
    ℕ → ℕ → ℤ → LoopM σ Unit
  | 0, _, _ => pure ()
  | remaining + 1, i, lastTokenId => do
    let response ← callPipeline pipeline ⟨i, ascii "decode", [lastTokenId]⟩
    let token ← stateless (pipeline.nextTokenId response)
    pushToken token
    let stop ← shouldStopAfter settings tokenizer token
    if stop then setTermination (ascii "stop_marker")
    else decodeLoop settings tokenizer pipeline remaining (i + 1) token

/-- The part of the loop behind the prefill. -/
def decodeAfterPrefill (settings : LoopSettings) (tokenizer : Tokenizer) (pipeline : Pipeline σ ρ)
    (decodeSteps : ℕ) (response : ρ) : LoopM σ Unit :=
  match decodeSteps with
  | 0 => pure ()
  | remaining + 1 => do
    let token ← stateless (pipeline.nextTokenId response)
    pushToken token
    let stop ← shouldStopAfter settings tokenizer token
    if stop then setTermination (ascii "stop_marker")
    else decodeLoop settings tokenizer pipeline remaining 1 token

/-- Everything inside the exception handler of the source. -/
def generationBody (settings : LoopSettings) (tokenizer : Tokenizer) (pipeline : Pipeline σ ρ)
    (prompt : Bytes) (maxNewTokens : ℤ) : LoopM σ Unit := do
  let tokens ← stateless
    (tokenizer.tokenize (formatPromptForGeneration prompt settings.applyChatTemplate))
  modifyResult fun r => { r with promptTokenIds := tokens }
  let response ← callPipeline pipeline ⟨0, ascii "prefill", tokens⟩
  setTermination (ascii "max_new_tokens")
  decodeAfterPrefill settings tokenizer pipeline maxNewTokens.toNat response
  let finished ← get
  let text ← stateless (tokenizer.detokenize finished.result.generatedTokenIds)
  modifyResult fun r =>
    { r with
      generatedText := cleanupGeneratedText text
      generatedTokenCount := r.generatedTokenIds.length }

/-- The result before anything ran. -/
def emptyResult (tokenizer : Tokenizer) (requestId prompt : Bytes) : GenerationLoopResult where
  requestId := requestId
  prompt := prompt
  tokenizerBackend := tokenizer.backendName

/-- One generation, with the state it leaves behind the pipeline. -/
def runStubGeneration (settings : LoopSettings) (tokenizer : Tokenizer) (pipeline : Pipeline σ ρ)
    (requestId prompt : Bytes) (maxNewTokens : ℤ) (start : σ) : LoopState σ :=
  match generationBody settings tokenizer pipeline prompt maxNewTokens
      ⟨emptyResult tokenizer requestId prompt, start⟩ with
  | .ok () s => s
  | .error message s =>
    { s with result :=
      { s.result with ok := false, error := message, terminationReason := ascii "error" } }

section Success

variable {Good : ℤ → Prop} {tokenizer : Tokenizer} {pipeline : Pipeline σ ρ}

/-- No error so far, and all tokens collected so far are good. -/
def AllGood (Good : ℤ → Prop) (s : LoopState σ) : Prop :=
  s.result.ok = true ∧ ∀ token ∈ s.result.generatedTokenIds, Good token

/-- The call answers, and its answer carries a good token. -/
def AnswersGood (Good : ℤ → Prop) (pipeline : Pipeline σ ρ) (call : PipelineCall) : Prop :=
  Returns (pipeline.call call) fun response =>
    ∃ token, pipeline.nextTokenId response = .ok token ∧ Good token

theorem satisfies_callPipeline {call : PipelineCall} (h : AnswersGood Good pipeline call) :
    Satisfies (AllGood Good) (callPipeline pipeline call)
      (fun response s => (∃ token, pipeline.nextTokenId response = .ok token ∧ Good token) ∧
        AllGood Good s) fun _ _ => False := by
  intro s hs
  obtain ⟨response, t, hrun, htoken⟩ := h s.pipeline
  rw [callPipeline, onPart_apply, hrun]
  exact ⟨htoken, hs⟩

/-- A change of the result that leaves the tokens and reports no error. -/
theorem satisfies_modifyResult (f : GenerationLoopResult → GenerationLoopResult)
    (hok : ∀ r, (f r).ok = r.ok) (hids : ∀ r, (f r).generatedTokenIds = r.generatedTokenIds) :
    Satisfies (AllGood Good) (modifyResult f : LoopM σ Unit) (fun _ => AllGood Good)
      fun _ _ => False := by
  intro s hs
  refine ⟨(hok s.result).trans hs.1, fun token htoken => hs.2 token ?_⟩
  rwa [← hids s.result]

theorem satisfies_setTermination (reason : Bytes) :
    Satisfies (AllGood Good) (setTermination reason : LoopM σ Unit) (fun _ => AllGood Good)
      fun _ _ => False :=
  satisfies_modifyResult _ (fun _ => rfl) fun _ => rfl

theorem satisfies_pushToken {token : ℤ} (htoken : Good token) :
    Satisfies (AllGood Good) (pushToken token : LoopM σ Unit) (fun _ => AllGood Good)
      fun _ _ => False := by
  intro s hs
  refine ⟨hs.1, fun t ht => ?_⟩
  rcases List.mem_append.mp ht with ht | ht
  · exact hs.2 t ht
  · rwa [List.mem_singleton.mp ht]

theorem satisfies_shouldStopAfter {settings : LoopSettings}
    (hdetokenize : ∀ ids, ∃ text, tokenizer.detokenize ids = .ok text) (token : ℤ) :
    Satisfies (AllGood Good) (shouldStopAfter settings tokenizer token : LoopM σ Bool)
      (fun _ => AllGood Good) fun _ _ => False := by
  intro s hs
  obtain ⟨text, htext⟩ := hdetokenize [token]
  unfold shouldStopAfter
  by_cases hmin : toInt32 s.result.generatedTokenIds.length < settings.minNewTokens
  · simpa only [if_pos hmin] using hs
  · simpa only [if_neg hmin, htext] using hs

/-- Collecting a good token, and going on unless it stops the generation. -/
theorem satisfies_collect {settings : LoopSettings}
    (hdetokenize : ∀ ids, ∃ text, tokenizer.detokenize ids = .ok text) {token : ℤ}
    (htoken : Good token) {rest : LoopM σ Unit}
    (hrest : Satisfies (AllGood Good) rest (fun _ => AllGood Good) fun _ _ => False) :
    Satisfies (AllGood Good) (do
      pushToken token
      let stop ← shouldStopAfter settings tokenizer token
      if stop then setTermination (ascii "stop_marker") else rest)
      (fun _ => AllGood Good) fun _ _ => False := by
  refine satisfies_bind (satisfies_pushToken htoken) fun _ =>
    satisfies_bind (satisfies_shouldStopAfter hdetokenize token) fun stop => ?_
  cases stop with
  | true => exact satisfies_setTermination _
  | false => exact hrest

theorem satisfies_decodeLoop {settings : LoopSettings}
    (hdetokenize : ∀ ids, ∃ text, tokenizer.detokenize ids = .ok text)
    (hdecode : ∀ i token, Good token →
      AnswersGood Good pipeline ⟨i, ascii "decode", [token]⟩)
    (remaining i : ℕ) {lastTokenId : ℤ} (hlast : Good lastTokenId) :
    Satisfies (AllGood Good) (decodeLoop settings tokenizer pipeline remaining i lastTokenId)
      (fun _ => AllGood Good) fun _ _ => False := by
  induction remaining generalizing i lastTokenId with
  | zero => exact satisfies_pure fun _ hs => hs
  | succ remaining ih =>
    unfold decodeLoop
    refine satisfies_bind (satisfies_callPipeline (hdecode i lastTokenId hlast)) fun response => ?_
    rintro s ⟨⟨token, hnext, htoken⟩, hs⟩
    rw [hnext]
    exact satisfies_collect hdetokenize htoken (ih (i + 1) htoken) s hs

/-- Everything behind the prefill, when its answer carries a good token. -/
theorem satisfies_decodeAfterPrefill {settings : LoopSettings}
    (hdetokenize : ∀ ids, ∃ text, tokenizer.detokenize ids = .ok text)
    (hdecode : ∀ i token, Good token →
      AnswersGood Good pipeline ⟨i, ascii "decode", [token]⟩)
    {response : ρ} {token : ℤ} (hnext : pipeline.nextTokenId response = .ok token)
    (htoken : Good token) (decodeSteps : ℕ) :
    Satisfies (AllGood Good)
      (decodeAfterPrefill settings tokenizer pipeline decodeSteps response)
      (fun _ => AllGood Good) fun _ _ => False := by
  cases decodeSteps with
  | zero => exact satisfies_pure fun _ hs => hs
  | succ remaining =>
    unfold decodeAfterPrefill
    rw [hnext]
    exact satisfies_collect hdetokenize htoken
      (satisfies_decodeLoop hdetokenize hdecode remaining 1 htoken)

end Success

section Agreement

variable {ρ' : Type} {tokenizer : Tokenizer} {settings : LoopSettings} {pipeline : Pipeline σ ρ}
  {pipeline' : Pipeline τ ρ'} {R : σ → τ → Prop}

/-- Two answers carry the same token, or none. -/
def SameToken (pipeline : Pipeline σ ρ) (pipeline' : Pipeline τ ρ') (response : ρ)
    (response' : ρ') : Prop :=
  (∃ token, pipeline.nextTokenId response = .ok token ∧
      pipeline'.nextTokenId response' = .ok token) ∨
    ∃ message message', pipeline.nextTokenId response = .error message ∧
      pipeline'.nextTokenId response' = .error message'

/-- Two calls agree: both are answered with the same token, or both fail. -/
def CallsAgree (pipeline : Pipeline σ ρ) (pipeline' : Pipeline τ ρ') (call : PipelineCall)
    (R S : σ → τ → Prop) : Prop :=
  Simulates R (pipeline.call call) (pipeline'.call call) (SameToken pipeline pipeline') S
    fun _ _ => True

/-- Equal results, before related pipelines. -/
def SameResult (R : σ → τ → Prop) (s : LoopState σ) (t : LoopState τ) : Prop :=
  s.result = t.result ∧ R s.pipeline t.pipeline

/-- What is left of it when an error ended both loops. -/
abbrev SameResultOnly : LoopState σ → LoopState τ → Prop := SameResult fun _ _ => True

theorem simulates_modifyResult (f : GenerationLoopResult → GenerationLoopResult) :
    Simulates (SameResult R) (modifyResult f : LoopM σ Unit) (modifyResult f : LoopM τ Unit) Eq
      (SameResult R) SameResultOnly :=
  fun _ _ hst => ⟨rfl, congrArg f hst.1, hst.2⟩

theorem simulates_setTermination (reason : Bytes) :
    Simulates (SameResult R) (setTermination reason : LoopM σ Unit)
      (setTermination reason : LoopM τ Unit) Eq (SameResult R) SameResultOnly :=
  simulates_modifyResult _

theorem simulates_callPipeline {call : PipelineCall} {S : σ → τ → Prop}
    (h : CallsAgree pipeline pipeline' call R S) :
    Simulates (SameResult R) (callPipeline pipeline call) (callPipeline pipeline' call)
      (SameToken pipeline pipeline') (SameResult S) SameResultOnly :=
  simulates_onPart h (fun _ _ hst => hst.2) (fun _ _ _ _ hst huv => ⟨hst.1, huv⟩)
    fun _ _ _ _ hst _ => ⟨hst.1, trivial⟩

theorem sameResult_only (s : LoopState σ) (t : LoopState τ) (h : SameResult R s t) :
    SameResultOnly s t := ⟨h.1, trivial⟩

theorem simulates_shouldStopAfter (token : ℤ) :
    Simulates (SameResult R) (shouldStopAfter settings tokenizer token : LoopM σ Bool)
      (shouldStopAfter settings tokenizer token : LoopM τ Bool) Eq (SameResult R)
      SameResultOnly := by
  intro s t hst
  unfold shouldStopAfter
  rw [← hst.1]
  by_cases hmin : toInt32 s.result.generatedTokenIds.length < settings.minNewTokens
  · simp only [if_pos hmin]
    exact ⟨rfl, hst⟩
  · simp only [if_neg hmin]
    cases tokenizer.detokenize [token] with
    | ok text => exact ⟨rfl, hst⟩
    | error message => exact sameResult_only s t hst

/-- Taking the token of two agreeing answers and going on with it. -/
theorem simulates_collect {response : ρ} {response' : ρ'}
    (htoken : SameToken pipeline pipeline' response response') {rest : ℤ → LoopM σ Unit}
    {rest' : ℤ → LoopM τ Unit}
    (hrest : ∀ token, Simulates (SameResult R) (rest token) (rest' token) Eq (SameResult R)
      SameResultOnly) :
    Simulates (SameResult R)
      (do
        let token ← stateless (pipeline.nextTokenId response)
        pushToken token
        let stop ← shouldStopAfter settings tokenizer token
        if stop then setTermination (ascii "stop_marker") else rest token)
      (do
        let token ← stateless (pipeline'.nextTokenId response')
        pushToken token
        let stop ← shouldStopAfter settings tokenizer token
        if stop then setTermination (ascii "stop_marker") else rest' token)
      Eq (SameResult R) SameResultOnly := by
  have hnext : Simulates (SameResult R) (stateless (pipeline.nextTokenId response))
      (stateless (pipeline'.nextTokenId response')) Eq (SameResult R) SameResultOnly := by
    refine simulates_stateless ?_ sameResult_only
    exact htoken.imp_left fun ⟨token, h, h'⟩ => ⟨token, token, h, h', rfl⟩
  refine simulates_bind hnext ?_
  rintro token _ rfl
  refine simulates_bind (simulates_modifyResult _) fun _ _ _ => ?_
  refine simulates_bind (simulates_shouldStopAfter token) ?_
  rintro stop _ rfl
  cases stop with
  | true => exact simulates_setTermination _
  | false => exact hrest token

theorem simulates_decodeLoop
    (hdecode : ∀ i token, 1 ≤ i →
      CallsAgree pipeline pipeline' ⟨i, ascii "decode", [token]⟩ R R)
    (remaining : ℕ) {i : ℕ} (hi : 1 ≤ i) (lastTokenId : ℤ) :
    Simulates (SameResult R) (decodeLoop settings tokenizer pipeline remaining i lastTokenId)
      (decodeLoop settings tokenizer pipeline' remaining i lastTokenId) Eq (SameResult R)
      SameResultOnly := by
  induction remaining generalizing i lastTokenId with
  | zero => exact simulates_pure rfl fun _ _ hst => hst
  | succ remaining ih =>
    unfold decodeLoop
    refine simulates_bind (simulates_callPipeline (hdecode i lastTokenId hi)) ?_
    exact fun response response' htoken =>
      simulates_collect htoken fun token => ih (by omega) token

theorem simulates_decodeAfterPrefill
    (hdecode : ∀ i token, 1 ≤ i →
      CallsAgree pipeline pipeline' ⟨i, ascii "decode", [token]⟩ R R)
    {response : ρ} {response' : ρ'} (htoken : SameToken pipeline pipeline' response response')
    (decodeSteps : ℕ) :
    Simulates (SameResult R) (decodeAfterPrefill settings tokenizer pipeline decodeSteps response)
      (decodeAfterPrefill settings tokenizer pipeline' decodeSteps response') Eq (SameResult R)
      SameResultOnly := by
  cases decodeSteps with
  | zero => exact simulates_pure rfl fun _ _ hst => hst
  | succ remaining =>
    exact simulates_collect htoken fun token =>
      simulates_decodeLoop hdecode remaining le_rfl token

/-- Two generations whose calls agree have the same result, except for the
text of an error. -/
theorem runStubGeneration_agree {prompt : Bytes} {Q : σ → τ → Prop}
    (hprefill : ∀ tokens, tokenizer.tokenize
      (formatPromptForGeneration prompt settings.applyChatTemplate) = .ok tokens →
      CallsAgree pipeline pipeline' ⟨0, ascii "prefill", tokens⟩ Q R)
    (hdecode : ∀ i token, 1 ≤ i →
      CallsAgree pipeline pipeline' ⟨i, ascii "decode", [token]⟩ R R)
    (requestId : Bytes) (maxNewTokens : ℤ) {start : σ} {start' : τ} (hstart : Q start start') :
    let s := runStubGeneration settings tokenizer pipeline requestId prompt maxNewTokens start
    let t := runStubGeneration settings tokenizer pipeline' requestId prompt maxNewTokens start'
    { s.result with error := [] } = { t.result with error := [] } := by
  have hbody : Simulates (SameResult Q)
      (generationBody settings tokenizer pipeline prompt maxNewTokens)
      (generationBody settings tokenizer pipeline' prompt maxNewTokens) Eq (SameResult R)
      SameResultOnly := by
    unfold generationBody
    refine simulates_stateless_bind sameResult_only fun tokens htokens => ?_
    refine simulates_bind (simulates_modifyResult _) fun _ _ _ => ?_
    refine simulates_bind (simulates_callPipeline (hprefill tokens htokens)) ?_
    intro response response' htoken
    refine simulates_bind (simulates_modifyResult _) fun _ _ _ => ?_
    refine simulates_bind (simulates_decodeAfterPrefill hdecode htoken _) fun _ _ _ => ?_
    intro s t hst
    simp only [bind_apply, get_apply]
    rw [← hst.1]
    cases tokenizer.detokenize s.result.generatedTokenIds with
    | ok text => exact simulates_modifyResult _ s t hst
    | error message => exact sameResult_only s t hst
  have h := hbody ⟨emptyResult tokenizer requestId prompt, start⟩
    ⟨emptyResult tokenizer requestId prompt, start'⟩ ⟨rfl, hstart⟩
  dsimp only
  unfold runStubGeneration
  revert h
  cases generationBody settings tokenizer pipeline prompt maxNewTokens _ with
  | ok u s =>
    cases generationBody settings tokenizer pipeline' prompt maxNewTokens _ with
    | ok u' t =>
      rintro ⟨-, hresult, -⟩
      simp only [hresult]
    | error message t => exact False.elim
  | error message s =>
    cases generationBody settings tokenizer pipeline' prompt maxNewTokens _ with
    | ok u t => exact False.elim
    | error message' t =>
      rintro ⟨hresult, -⟩
      simp only [hresult]

end Agreement

end LayerInference.GenerationLoop
