import LayerInference.GenerateRequests
import LayerInference.JsonStrings
import LayerInference.ResultTexts

/-!
# The prompt between request and answer

The gateway takes the contents of the prompt literal as they stand in the body:
it does not undo their escapes. The loop gives this text to the tokenizer, inside
the chat template unless that is switched off or the text has a role marker, and
the answer escapes it once more. So the prompt that a request denotes is the one
that is tokenized and echoed exactly when its literal needs no escapes.
-/

namespace LayerInference.PromptFields

open ByteStrings TextStreams QuotedTexts JsonText JsonStrings JsonFields JsonPieces RequestBodies
  GenerationLoop GenerateRequests ResultTexts FallibleRuns TensorAbi

section Runs

variable {σ ρ : Type} {prompt : Bytes}

/-- The text that the loop gives to the tokenizer. -/
def tokenizedText (request : GenerateRequest) : Bytes :=
  formatPromptForGeneration request.prompt request.applyChatTemplate

/-- The tokenizer is asked for this text and for no other. -/
theorem generate_congr (request : GenerateRequest) (tokenizer : Tokenizer)
    (pipeline : Pipeline σ ρ) (requestId : Bytes) (start : σ)
    {tokenize : Bytes → Except Bytes (List ℤ)}
    (h : tokenize (tokenizedText request) = tokenizer.tokenize (tokenizedText request)) :
    generate request { tokenizer with tokenize := tokenize } pipeline requestId start =
      generate request tokenizer pipeline requestId start := by
  have hloop : ∀ remaining i token,
      decodeLoop request.settings { tokenizer with tokenize := tokenize } pipeline remaining i
        token = decodeLoop request.settings tokenizer pipeline remaining i token := by
    intro remaining
    induction remaining with
    | zero => exact fun _ _ => rfl
    | succ remaining ih =>
      intro i token
      unfold decodeLoop
      simp only [ih]
      rfl
  have hdecode : ∀ steps response,
      decodeAfterPrefill request.settings { tokenizer with tokenize := tokenize } pipeline steps
        response = decodeAfterPrefill request.settings tokenizer pipeline steps response := by
    intro steps response
    cases steps with
    | zero => rfl
    | succ remaining =>
      unfold decodeAfterPrefill
      simp only [hloop]
      rfl
  unfold tokenizedText at h
  unfold generate runStubGeneration generationBody
  simp only [hdecode]
  have hsettings : request.settings.applyChatTemplate = request.applyChatTemplate := rfl
  rw [hsettings, h]
  rfl

/-- The result under construction has this prompt. -/
def PromptIs (prompt : Bytes) (s : LoopState σ) : Prop := s.result.prompt = prompt

/-- A step that leaves the prompt as it is, also where it fails. -/
def KeepsPrompt (prompt : Bytes) {α : Type} (x : LoopM σ α) : Prop :=
  Satisfies (PromptIs prompt) x (fun _ => PromptIs prompt) fun _ => PromptIs prompt

theorem keepsPrompt_bind {α β : Type} {x : LoopM σ α} {f : α → LoopM σ β}
    (hx : KeepsPrompt prompt x) (hf : ∀ a, KeepsPrompt prompt (f a)) :
    KeepsPrompt prompt (x >>= f) := satisfies_bind hx hf

theorem keepsPrompt_modifyResult {f : GenerationLoopResult → GenerationLoopResult}
    (hf : ∀ r, (f r).prompt = r.prompt) :
    KeepsPrompt prompt (modifyResult f : LoopM σ Unit) := fun s hs => (hf s.result).trans hs

theorem keepsPrompt_callPipeline (pipeline : Pipeline σ ρ) (call : PipelineCall) :
    KeepsPrompt prompt (callPipeline pipeline call) := by
  intro s hs
  rw [callPipeline, onPart_apply]
  cases pipeline.call call s.pipeline with
  | ok response t => exact hs
  | error message t => exact hs

theorem keepsPrompt_stateless {α : Type} (r : Except Bytes α) :
    KeepsPrompt prompt (stateless r : LoopM σ α) := satisfies_stateless_keep

theorem keepsPrompt_pushToken (token : ℤ) : KeepsPrompt prompt (pushToken token : LoopM σ Unit) :=
  keepsPrompt_modifyResult fun _ => rfl

theorem keepsPrompt_setTermination (reason : Bytes) :
    KeepsPrompt prompt (setTermination reason : LoopM σ Unit) :=
  keepsPrompt_modifyResult fun _ => rfl

theorem keepsPrompt_shouldStopAfter (settings : LoopSettings) (tokenizer : Tokenizer)
    (token : ℤ) :
    KeepsPrompt prompt (shouldStopAfter settings tokenizer token : LoopM σ Bool) := by
  intro s hs
  unfold shouldStopAfter
  by_cases hmin : toInt32 s.result.generatedTokenIds.length < settings.minNewTokens
  · simpa only [if_pos hmin] using hs
  · simp only [if_neg hmin]
    cases tokenizer.detokenize [token] with
    | ok text => exact hs
    | error message => exact hs

/-- Collecting a token, and going on unless it stops the generation. -/
theorem keepsPrompt_collect (settings : LoopSettings) (tokenizer : Tokenizer) (token : ℤ)
    {rest : LoopM σ Unit} (hrest : KeepsPrompt prompt rest) :
    KeepsPrompt prompt (do
      pushToken token
      let stop ← shouldStopAfter settings tokenizer token
      if stop then setTermination (ascii "stop_marker") else rest) := by
  apply keepsPrompt_bind (keepsPrompt_pushToken token)
  intro _
  apply keepsPrompt_bind (keepsPrompt_shouldStopAfter settings tokenizer token)
  intro stop
  cases stop with
  | true => exact keepsPrompt_setTermination _
  | false => exact hrest

theorem keepsPrompt_decodeLoop (settings : LoopSettings) (tokenizer : Tokenizer)
    (pipeline : Pipeline σ ρ) (remaining i : ℕ) (lastTokenId : ℤ) :
    KeepsPrompt prompt (decodeLoop settings tokenizer pipeline remaining i lastTokenId) := by
  induction remaining generalizing i lastTokenId with
  | zero => exact satisfies_pure fun _ hs => hs
  | succ remaining ih =>
    unfold decodeLoop
    apply keepsPrompt_bind (keepsPrompt_callPipeline pipeline _)
    intro response
    apply keepsPrompt_bind (keepsPrompt_stateless _)
    intro token
    exact keepsPrompt_collect settings tokenizer token (ih (i + 1) token)

theorem keepsPrompt_decodeAfterPrefill (settings : LoopSettings) (tokenizer : Tokenizer)
    (pipeline : Pipeline σ ρ) (decodeSteps : ℕ) (response : ρ) :
    KeepsPrompt prompt (decodeAfterPrefill settings tokenizer pipeline decodeSteps response) := by
  cases decodeSteps with
  | zero => exact satisfies_pure fun _ hs => hs
  | succ remaining =>
    unfold decodeAfterPrefill
    apply keepsPrompt_bind (keepsPrompt_stateless _)
    intro token
    exact keepsPrompt_collect settings tokenizer token
      (keepsPrompt_decodeLoop settings tokenizer pipeline remaining 1 token)

theorem keepsPrompt_generationBody (settings : LoopSettings) (tokenizer : Tokenizer)
    (pipeline : Pipeline σ ρ) (text : Bytes) (maxNewTokens : ℤ) :
    KeepsPrompt prompt (generationBody settings tokenizer pipeline text maxNewTokens) := by
  unfold generationBody
  apply keepsPrompt_bind (keepsPrompt_stateless _)
  intro tokens
  refine keepsPrompt_bind (keepsPrompt_modifyResult fun _ => rfl) ?_
  intro _
  apply keepsPrompt_bind (keepsPrompt_callPipeline pipeline _)
  intro response
  apply keepsPrompt_bind (keepsPrompt_setTermination _)
  intro _
  apply keepsPrompt_bind (keepsPrompt_decodeAfterPrefill settings tokenizer pipeline _ response)
  intro _ s hs
  simp only [bind_apply, get_apply]
  cases tokenizer.detokenize s.result.generatedTokenIds with
  | ok text => exact hs
  | error message => exact hs

/-- The result of a generation has the prompt of its request, also where it failed. -/
theorem generate_prompt (request : GenerateRequest) (tokenizer : Tokenizer)
    (pipeline : Pipeline σ ρ) (requestId : Bytes) (start : σ) :
    (generate request tokenizer pipeline requestId start).result.prompt = request.prompt := by
  have hbody := keepsPrompt_generationBody request.settings tokenizer pipeline request.prompt
    request.maxNewTokens ⟨emptyResult tokenizer requestId request.prompt, start⟩ rfl
  unfold generate runStubGeneration
  revert hbody
  cases generationBody request.settings tokenizer pipeline request.prompt request.maxNewTokens
    ⟨emptyResult tokenizer requestId request.prompt, start⟩ with
  | ok u s => exact fun h => h
  | error message s => exact fun h => h

end Runs

section Echo

/-- The answer has the escaped prompt under its key. -/
theorem searchField_prompt (measured : MeasuredResult) (requestBodyBytes : ℕ) :
    searchField (ascii "prompt") rawString (generationLoopResultJson measured requestBodyBytes) =
      some (jsonEscape measured.prompt) := by
  unfold generationLoopResultJson
  have hkey : IsName (ascii "prompt") := by decide
  have hfound : ∃ rest, behind (ascii "prompt") (resultPieces measured requestBodyBytes) =
      some (.string measured.prompt .comma :: rest) := ⟨_, rfl⟩
  obtain ⟨rest, hfound⟩ := hfound
  exact searchField_some hkey hfound (rawString_pieces _ _ _)

end Echo

section Exactness

/-- The body of a request gets its prompt `s` to the tokenizer, and the answer to every
run of the request echoes a literal that denotes `s`. -/
def PromptExact (overflow : ℚ → ℤ) (bodyText s : Bytes) : Prop :=
  tokenizedText (generateRequest overflow bodyText) = s ∧
    ∀ (σ ρ : Type) (tokenizer : Tokenizer) (pipeline : Pipeline σ ρ) (requestId : Bytes)
      (start : σ) (measured : MeasuredResult), measured.toGenerationLoopResult =
        (generate (generateRequest overflow bodyText) tokenizer pipeline requestId start).result →
      ∃ raw, searchField (ascii "prompt") rawString
        (generationLoopResultJson measured bodyText.length) = some raw ∧ denote raw = some s

/-- A text that the chat template leaves as it is when it is switched on. -/
def HasRole (text : Bytes) : Prop :=
  (find (ascii "<|user|>") text).isSome ∨ (find (ascii "<|assistant|>") text).isSome

/-- The chat template changes every prompt that it is for. -/
theorem formatPromptForGeneration_eq_iff (prompt : Bytes) (applyChatTemplate : Bool) :
    formatPromptForGeneration prompt applyChatTemplate = prompt ↔
      applyChatTemplate = false ∨ HasRole prompt := by
  unfold formatPromptForGeneration HasRole
  cases applyChatTemplate with
  | false => exact iff_of_true rfl (Or.inl rfl)
  | true =>
    rw [if_neg (by decide)]
    by_cases hrole : ((find (ascii "<|user|>") prompt).isSome ||
        (find (ascii "<|assistant|>") prompt).isSome) = true
    · rw [if_pos hrole]
      exact iff_of_true rfl (Or.inr (Bool.or_eq_true_iff.mp hrole))
    · rw [if_neg hrole]
      refine iff_of_false (fun heq => ?_) ?_
      · have hlength := congrArg List.length heq
        simp only [List.length_append] at hlength
        have hopen : (ascii "<|user|>\n").length = 9 := rfl
        omega
      · rw [not_or]
        exact ⟨by decide, fun h => hrole (Bool.or_eq_true_iff.mpr h)⟩

/-- The prompt of a flat object is what the first string under its key has between its
quotes, and the template is switched off by the first flag under its key. -/
theorem tokenizedText_body (overflow : ℚ → ℤ) {body : Body} (hbody : body.WellFormed) :
    tokenizedText (generateRequest overflow body.text) =
      formatPromptForGeneration ((fieldOf (ascii "prompt") readRaw body.members).getD [])
        ((fieldOf (ascii "apply_chat_template") readFlag body.members).getD true) := by
  have hprompt : (generateRequest overflow body.text).prompt =
      (fieldOf (ascii "prompt") readRaw body.members).getD [] :=
    congrArg (Option.getD · []) (parseStringField_body hbody (by decide))
  have htemplate : (generateRequest overflow body.text).applyChatTemplate =
      (fieldOf (ascii "apply_chat_template") readFlag body.members).getD true :=
    parseBoolFieldOrDefault_body hbody (by decide) true
  rw [tokenizedText, hprompt, htemplate]

/-- The prompt gets through exactly when the string that the gateway finds is, byte for
byte, the prompt that it denotes, and the chat template is off or has nothing to add. -/
theorem prompt_exact_iff (overflow : ℚ → ℤ) {body : Body} (hbody : body.WellFormed) (s : Bytes) :
    PromptExact overflow body.text s ↔
      (fieldOf (ascii "prompt") readRaw body.members).getD [] = s ∧
        ((fieldOf (ascii "apply_chat_template") readFlag body.members).getD true = false ∨
          HasRole s) := by
  have htext := tokenizedText_body overflow hbody
  have hprompt : (generateRequest overflow body.text).prompt =
      (fieldOf (ascii "prompt") readRaw body.members).getD [] :=
    congrArg (Option.getD · []) (parseStringField_body hbody (by decide))
  constructor
  · intro hexact
    have hsame : (fieldOf (ascii "prompt") readRaw body.members).getD [] = s := by
      let tokenizer : Tokenizer := ⟨[], fun _ => .error [], fun _ => .error []⟩
      let pipeline : Pipeline Unit Unit := ⟨fun _ => pure (), fun _ => .error []⟩
      let run := generate (generateRequest overflow body.text) tokenizer pipeline [] ()
      obtain ⟨raw, hraw, hdenote⟩ := hexact.2 Unit Unit tokenizer pipeline [] ()
        { toGenerationLoopResult := run.result } rfl
      rw [searchField_prompt] at hraw
      rw [← Option.some.inj hraw, denote_jsonEscape] at hdenote
      rw [← hprompt, ← generate_prompt _ tokenizer pipeline [] ()]
      exact Option.some.inj hdenote
    have htokenized := hexact.1
    rw [htext, hsame] at htokenized
    exact ⟨hsame, (formatPromptForGeneration_eq_iff _ _).mp htokenized⟩
  · intro h
    have hsame := h.1
    constructor
    · rw [htext, hsame]
      exact (formatPromptForGeneration_eq_iff _ _).mpr h.2
    · intro σ ρ tokenizer pipeline requestId start measured hmeasured
      refine ⟨jsonEscape measured.prompt, searchField_prompt measured _, ?_⟩
      rw [denote_jsonEscape, hmeasured, generate_prompt, hprompt, hsame]

/-- A request for a prompt without a template. -/
def promptBody (raw : Bytes) : Body where
  members :=
    [{ name := ascii "prompt", value := .string raw },
      { name := ascii "apply_chat_template", value := .flag false }]

theorem promptBody_wellFormed {raw : Bytes} (h : Escaped raw) : (promptBody raw).WellFormed where
  members := by
    intro m hm
    have hblank : Blank [] := fun _ hb => absurd hb List.not_mem_nil
    rcases List.mem_pair.mp hm with rfl | rfl
    · exact ⟨(keyLiteral_wellFormed (by decide)).escaped, h, hblank, hblank, hblank, hblank⟩
    · exact ⟨(keyLiteral_wellFormed (by decide)).escaped, trivial, hblank, hblank, hblank, hblank⟩
  blanks := ⟨fun _ hb => absurd hb List.not_mem_nil, fun _ hb => absurd hb List.not_mem_nil,
    fun _ hb => absurd hb List.not_mem_nil⟩

/-- A prompt of plain letters gets through. -/
theorem prompt_exact_plain :
    PromptExact (fun _ => 0) (promptBody (ascii "hi")).text (ascii "hi") ↔
      (fieldOf (ascii "prompt") readRaw (promptBody (ascii "hi")).members).getD [] = ascii "hi" ∧
        ((fieldOf (ascii "apply_chat_template") readFlag
          (promptBody (ascii "hi")).members).getD true = false ∨ HasRole (ascii "hi")) :=
  prompt_exact_iff _ (promptBody_wellFormed (keyLiteral_wellFormed (by decide)).escaped) _

/-- The literal of a line break denotes the break, but the tokenizer gets its escape. -/
theorem not_prompt_exact_break :
    (promptBody (ascii "a\\nb")).WellFormed ∧ denote (ascii "a\\nb") = some (ascii "a\nb") ∧
      ¬PromptExact (fun _ => 0) (promptBody (ascii "a\\nb")).text (ascii "a\nb") := by
  have hescaped : Escaped (ascii "a\\nb") :=
    .plain (by decide) (by decide) (.escape (by decide) (by decide)
      (.plain (by decide) (by decide) .nil))
  have hbody : (promptBody (ascii "a\\nb")).WellFormed := promptBody_wellFormed hescaped
  refine ⟨hbody, by decide, fun hexact => ?_⟩
  have htext := hexact.1
  rw [tokenizedText_body _ hbody] at htext
  revert htext
  decide

end Exactness

end LayerInference.PromptFields
