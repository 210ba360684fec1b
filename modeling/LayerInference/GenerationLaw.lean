import LayerInference.GenerationLoop

/-!
# What a generation collects

The answers to the prefill and to the decode calls behind it form a stream of
tokens, each call carrying the token before it. A generation that succeeds
returns the shortest prefix of this stream at which it stops, and makes one
call for each of its tokens. The count and the text of the result are set at
the end only, so they describe the collected tokens unless an error ends the
generation behind its first token.
-/

namespace LayerInference.GenerationLaw

open ByteStrings FallibleRuns TensorAbi GenerationLoop

variable {σ ρ : Type}

/-- The pipeline with a record of the calls made. -/
def logged (pipeline : Pipeline σ ρ) : Pipeline (σ × List PipelineCall) ρ where
  call c := fun s =>
    match pipeline.call c s.1 with
    | .ok response t => .ok response (t, s.2 ++ [c])
    | .error message t => .error message (t, s.2 ++ [c])
  nextTokenId := pipeline.nextTokenId

/-- What the tokens of one generation depend on. -/
structure Generation (σ ρ : Type) where
  settings : LoopSettings
  tokenizer : Tokenizer
  pipeline : Pipeline σ ρ
  promptTokens : List ℤ
  maxNewTokens : ℤ
  start : σ

namespace Generation

/-- The token that answers a call, with the state left behind the pipeline. -/
def answer (g : Generation σ ρ) (call : PipelineCall) (s : σ) : Except Bytes (ℤ × σ) :=
  match g.pipeline.call call s with
  | .ok response t =>
    match g.pipeline.nextTokenId response with
    | .ok token => .ok (token, t)
    | .error message => .error message
  | .error message _ => .error message

/-- The token stream: the answer to the prefill, then the answers to decode
calls that each carry the token before. -/
def token (g : Generation σ ρ) : ℕ → Except Bytes (ℤ × σ)
  | 0 => g.answer ⟨0, ascii "prefill", g.promptTokens⟩ g.start
  | i + 1 => do
    let (token, s) ← g.token i
    g.answer ⟨i + 1, ascii "decode", [token]⟩ s

/-- The first tokens of the stream. -/
def IsStreamPrefix (g : Generation σ ρ) (ids : List ℤ) : Prop :=
  ∀ i (hi : i < ids.length), ∃ s, g.token i = .ok (ids[i], s)

/-- The tokens are enough, and the text of the last one holds a control marker. -/
def EndsAtMarker (g : Generation σ ρ) (ids : List ℤ) : Prop :=
  g.settings.minNewTokens ≤ ids.length ∧ ∃ token, ids.getLast? = some token ∧
    ∃ text, g.tokenizer.detokenize [token] = .ok text ∧ containsGenerationControlMarker text = true

/-- The generation stops with these tokens. -/
def Stops (g : Generation σ ρ) (ids : List ℤ) : Prop :=
  ids.length = g.maxNewTokens.toNat ∨ g.EndsAtMarker ids

/-- The shortest prefix of the stream with which the generation stops. -/
structure IsOutput (g : Generation σ ρ) (ids : List ℤ) : Prop where
  stream : g.IsStreamPrefix ids
  stops : g.Stops ids
  shortest : ∀ n < ids.length, ¬g.Stops (ids.take n)

/-- The calls that fetch these tokens. The first token costs the prefill,
which is made in any case. -/
def calls (g : Generation σ ρ) (ids : List ℤ) : List PipelineCall :=
  ⟨0, ascii "prefill", g.promptTokens⟩ ::
    ids.dropLast.mapIdx fun i token => ⟨i + 1, ascii "decode", [token]⟩

/-- The text of the last token is known where the loop asks for it. -/
def Readable (g : Generation σ ρ) (ids : List ℤ) : Prop :=
  g.settings.minNewTokens ≤ ids.length → ∀ token, ids.getLast? = some token →
    ∃ text, g.tokenizer.detokenize [token] = .ok text

/-- The generation collects these tokens, and maybe more. -/
structure Reaches (g : Generation σ ρ) (ids : List ℤ) : Prop where
  stream : g.IsStreamPrefix ids
  fits : ids.length ≤ g.maxNewTokens.toNat
  readable : ∀ n, 0 < n → n < ids.length → g.Readable (ids.take n)
  goesOn : ∀ n, 0 < n → n < ids.length → ¬g.EndsAtMarker (ids.take n)

/-- The generation fails while it holds these tokens: the text of the last one
is not available, or the next call fails, or the whole text is not available. -/
def FailsWith (g : Generation σ ρ) (ids : List ℤ) : Prop :=
  g.Reaches ids ∧ (¬g.Readable ids ∨ (¬g.Stops ids ∧ ∃ message, g.token ids.length = .error message) ∨
    g.Stops ids ∧ ∃ message, g.tokenizer.detokenize ids = .error message)

variable {g : Generation σ ρ} {ids : List ℤ}

theorem calls_length (g : Generation σ ρ) (ids : List ℤ) :
    (g.calls ids).length = max 1 ids.length := by
  simp only [calls, List.length_cons, List.length_mapIdx, List.length_dropLast]
  omega

/-- The call that fetches the token behind some tokens. -/
theorem calls_append (g : Generation σ ρ) (hne : ids ≠ []) (token next : ℤ)
    (hlast : ids.getLast? = some token) :
    g.calls (ids ++ [next]) = g.calls ids ++ [⟨ids.length, ascii "decode", [token]⟩] := by
  have hids : ids.dropLast ++ [token] = ids := List.dropLast_append_getLast? token hlast
  have hpos : 0 < ids.length := List.length_pos_iff.mpr hne
  have hlength : ids.dropLast.length + 1 = ids.length := by
    rw [List.length_dropLast]
    omega
  have hmap : ids.mapIdx (fun i token => (⟨i + 1, ascii "decode", [token]⟩ : PipelineCall)) =
      ids.dropLast.mapIdx (fun i token => ⟨i + 1, ascii "decode", [token]⟩) ++
        [⟨ids.length, ascii "decode", [token]⟩] := by
    conv_lhs => rw [← hids]
    rw [List.mapIdx_append, List.mapIdx_singleton, Nat.zero_add, hlength]
  simp only [calls, List.dropLast_concat, hmap, List.cons_append]

theorem token_succ {i : ℕ} {token : ℤ} {s : σ} (h : g.token i = .ok (token, s)) :
    g.token (i + 1) = g.answer ⟨i + 1, ascii "decode", [token]⟩ s := by
  rw [Generation.token, h]
  rfl

theorem reaches_nil (g : Generation σ ρ) : g.Reaches [] :=
  ⟨fun i hi => absurd hi (Nat.not_lt_zero i), Nat.zero_le _,
    fun n _ hn => absurd hn (Nat.not_lt_zero n), fun n _ hn => absurd hn (Nat.not_lt_zero n)⟩

/-- One more token of the stream, unless the generation stopped before it. -/
theorem Reaches.append (h : g.Reaches ids) (hroom : ids.length < g.maxNewTokens.toNat)
    (hread : ids ≠ [] → g.Readable ids) (hgoes : ids ≠ [] → ¬g.EndsAtMarker ids) {token : ℤ} {s : σ}
    (htoken : g.token ids.length = .ok (token, s)) : g.Reaches (ids ++ [token]) := by
  have htake (n : ℕ) (hn : n < (ids ++ [token]).length) :
      (ids ++ [token]).take n = ids.take n := by
    rw [List.length_append, List.length_singleton] at hn
    rw [List.take_append_of_le_length (by omega)]
  refine ⟨fun i hi => ?_, by rw [List.length_append, List.length_singleton]; omega,
    fun n hpos hn => ?_, fun n hpos hn => ?_⟩
  · rw [List.length_append, List.length_singleton] at hi
    by_cases hold : i < ids.length
    · obtain ⟨t, ht⟩ := h.stream i hold
      exact ⟨t, by rw [ht, List.getElem_append_left hold]⟩
    · obtain rfl : i = ids.length := by omega
      exact ⟨s, by rw [htoken, List.getElem_concat_length rfl]⟩
  · rw [htake n hn]
    rw [List.length_append, List.length_singleton] at hn
    by_cases hold : n < ids.length
    · exact h.readable n hpos hold
    · rw [List.take_of_length_le (by omega)]
      exact hread (List.length_pos_iff.mp (by omega))
  · rw [htake n hn]
    rw [List.length_append, List.length_singleton] at hn
    by_cases hold : n < ids.length
    · exact h.goesOn n hpos hold
    · rw [List.take_of_length_le (by omega)]
      exact hgoes (List.length_pos_iff.mp (by omega))

/-- Tokens with which the generation stops are its output. -/
theorem Reaches.isOutput (h : g.Reaches ids) (hstops : g.Stops ids) : g.IsOutput ids := by
  refine ⟨h.stream, hstops, fun n hn hstop => ?_⟩
  have hfits := h.fits
  have hlength : (ids.take n).length = n := by
    rw [List.length_take]
    omega
  rcases hstop with hmax | hmarker
  · omega
  · by_cases hpos : 0 < n
    · exact h.goesOn n hpos hn hmarker
    · obtain ⟨-, token, hlast, -⟩ := hmarker
      obtain rfl : n = 0 := by omega
      cases hlast

/-- Of two prefixes of the stream the shorter one is a prefix of the other. -/
theorem IsStreamPrefix.take_eq {other : List ℤ} (h : g.IsStreamPrefix ids)
    (h' : g.IsStreamPrefix other) (hle : ids.length ≤ other.length) :
    other.take ids.length = ids := by
  refine List.ext_getElem (by rw [List.length_take]; omega) fun i hi hi' => ?_
  obtain ⟨s, hs⟩ := h i hi'
  obtain ⟨s', hs'⟩ := h' i (by omega)
  have heq : (ids[i], s) = (other[i], s') := Except.ok.inj (hs.symm.trans hs')
  rw [List.getElem_take]
  exact (Prod.mk.inj heq).1.symm

/-- A generation that stops with readable tokens fails with no other ones. -/
theorem Reaches.not_failsWith (h : g.Reaches ids) (hread : ids ≠ [] → g.Readable ids)
    (hstops : g.Stops ids) {text : Bytes} (htext : g.tokenizer.detokenize ids = .ok text)
    {other : List ℤ} (hne : other ≠ []) : ¬g.FailsWith other := by
  rintro ⟨hother, hfails⟩
  have hpos : 0 < other.length := List.length_pos_iff.mpr hne
  rcases Nat.lt_trichotomy other.length ids.length with hlt | heq | hgt
  · have hcommon : ids.take other.length = other :=
      hother.stream.take_eq h.stream (Nat.le_of_lt hlt)
    have hreadable := h.readable other.length hpos hlt
    have hgoes := h.goesOn other.length hpos hlt
    rw [hcommon] at hreadable hgoes
    rcases hfails with hread' | ⟨-, message, herror⟩ | ⟨hstops', -⟩
    · exact hread' hreadable
    · obtain ⟨s, hs⟩ := h.stream other.length hlt
      cases hs.symm.trans herror
    · have hfits := h.fits
      rcases hstops' with hmax | hmarker
      · omega
      · exact hgoes hmarker
  · have hsame : other = ids := by
      have hcommon := hother.stream.take_eq h.stream (Nat.le_of_eq heq)
      rwa [List.take_of_length_le (by omega), eq_comm] at hcommon
    subst hsame
    rcases hfails with hread' | ⟨hgoes, -⟩ | ⟨-, message, herror⟩
    · exact hread' (hread hne)
    · exact hgoes hstops
    · cases htext.symm.trans herror
  · have hcommon : other.take ids.length = ids :=
      h.stream.take_eq hother.stream (Nat.le_of_lt hgt)
    have hfits := hother.fits
    rcases hstops with hmax | hmarker
    · omega
    · by_cases hzero : ids = []
      · subst hzero
        obtain ⟨-, token, hlast, -⟩ := hmarker
        cases hlast
      · have hgoes := hother.goesOn ids.length (List.length_pos_iff.mpr hzero) hgt
        rw [hcommon] at hgoes
        exact hgoes hmarker

end Generation

section Runs

variable {g : Generation σ ρ} {ids : List ℤ}

/-- The result lists these tokens and describes none of them yet. -/
structure Collected (ids : List ℤ) (s : LoopState (σ × List PipelineCall)) : Prop where
  tokens : s.result.generatedTokenIds = ids
  count : s.result.generatedTokenCount = 0
  text : s.result.generatedText = []

/-- The loop is about to make the call behind these tokens. -/
structure GoesOn (g : Generation σ ρ) (ids : List ℤ) (s : LoopState (σ × List PipelineCall)) :
    Prop where
  collected : Collected ids s
  ok : s.result.ok = true
  reason : s.result.terminationReason = ascii "max_new_tokens"
  calls : s.pipeline.2 = g.calls ids
  behind : ∀ token, ids.getLast? = some token →
    g.token (ids.length - 1) = .ok (token, s.pipeline.1)

/-- The call behind these tokens was answered. -/
structure Answered (g : Generation σ ρ) (ids : List ℤ) (response : ρ)
    (s : LoopState (σ × List PipelineCall)) : Prop where
  collected : Collected ids s
  ok : s.result.ok = true
  reason : s.result.terminationReason = ascii "max_new_tokens"
  calls : ∀ next, s.pipeline.2 = g.calls (ids ++ [next])
  next : g.token ids.length =
    match g.pipeline.nextTokenId response with
    | .ok token => .ok (token, s.pipeline.1)
    | .error message => .error message

/-- The loop ended with these tokens. -/
structure EndedWith (g : Generation σ ρ) (ids : List ℤ)
    (s : LoopState (σ × List PipelineCall)) : Prop where
  reaches : g.Reaches ids
  readable : ids ≠ [] → g.Readable ids
  stops : g.Stops ids
  collected : Collected ids s
  ok : s.result.ok = true
  calls : s.pipeline.2 = g.calls ids
  reason : s.result.terminationReason = ascii "stop_marker" ↔ g.EndsAtMarker ids

/-- The loop failed: before its first token, or while it held some tokens. -/
def Failed (g : Generation σ ρ) (s : LoopState (σ × List PipelineCall)) : Prop :=
  (Collected [] s ∧ ∀ ids, ids ≠ [] → ¬g.Reaches ids) ∨
    ∃ ids, ids ≠ [] ∧ g.FailsWith ids ∧ Collected ids s

/-- No token is reached when the first one is not available. -/
theorem not_reaches_of_error {message : Bytes} (h : g.token 0 = .error message) (ids : List ℤ)
    (hne : ids ≠ []) : ¬g.Reaches ids := by
  intro hreaches
  obtain ⟨s, hs⟩ := hreaches.stream 0 (List.length_pos_iff.mpr hne)
  cases hs.symm.trans h

/-- The call behind some tokens failed. -/
theorem failed_of_error (hreaches : g.Reaches ids) (hgoes : ¬g.Stops ids) {message : Bytes}
    (h : g.token ids.length = .error message) {s : LoopState (σ × List PipelineCall)}
    (hs : Collected ids s) : Failed g s := by
  by_cases hzero : ids = []
  · subst hzero
    exact .inl ⟨hs, not_reaches_of_error h⟩
  · exact .inr ⟨ids, hzero, ⟨hreaches, .inr (.inl ⟨hgoes, message, h⟩)⟩, hs⟩

theorem not_endsAtMarker_nil (g : Generation σ ρ) : ¬g.EndsAtMarker [] := by
  rintro ⟨-, token, hlast, -⟩
  cases hlast

/-- The stop test of the loop, on tokens that an `int` can count. -/
theorem shouldStopAfter_eq (g : Generation σ ρ) (token : ℤ) (hcount : ids.length + 1 < 2 ^ 31)
    {s : LoopState (σ × List PipelineCall)} (hs : s.result.generatedTokenIds = ids ++ [token]) :
    (∃ message, shouldStopAfter g.settings g.tokenizer token s = .error message s ∧
        ¬g.Readable (ids ++ [token])) ∨
      ∃ stop, shouldStopAfter g.settings g.tokenizer token s = .ok stop s ∧
        g.Readable (ids ++ [token]) ∧ (stop = true ↔ g.EndsAtMarker (ids ++ [token])) := by
  have hlength : (ids ++ [token]).length = ids.length + 1 := by
    rw [List.length_append, List.length_singleton]
  have hint : toInt32 ((ids ++ [token]).length : ℤ) = ((ids ++ [token]).length : ℤ) := by
    rw [toInt32, Int.bmod_eq_of_le] <;> omega
  have hlast : (ids ++ [token]).getLast? = some token := List.getLast?_concat
  unfold shouldStopAfter
  rw [hs, hint]
  by_cases hmin : ((ids ++ [token]).length : ℤ) < g.settings.minNewTokens
  · refine .inr ⟨false, by rw [if_pos hmin], fun h => absurd h (by omega), ?_⟩
    constructor
    · intro h
      cases h
    · rintro ⟨h, -⟩
      omega
  · rw [if_neg hmin]
    cases htext : g.tokenizer.detokenize [token] with
    | error message =>
      refine .inl ⟨message, rfl, fun hread => ?_⟩
      obtain ⟨text, htext'⟩ := hread (by omega) token hlast
      cases htext.symm.trans htext'
    | ok text =>
      refine .inr ⟨_, rfl, fun _ other hother => ?_, fun hmarker => ?_, ?_⟩
      · obtain rfl : token = other := Option.some.inj (hlast.symm.trans hother)
        exact ⟨text, htext⟩
      · exact ⟨by omega, token, hlast, text, htext, hmarker⟩
      · rintro ⟨-, other, hother, text', htext', hmarker⟩
        obtain rfl : token = other := Option.some.inj (hlast.symm.trans hother)
        obtain rfl : text = text' := Except.ok.inj (htext.symm.trans htext')
        exact hmarker

/-- A call through the recording pipeline. -/
theorem callPipeline_logged (pipeline : Pipeline σ ρ) (call : PipelineCall)
    (s : LoopState (σ × List PipelineCall)) :
    callPipeline (logged pipeline) call s =
      match pipeline.call call s.pipeline.1 with
      | .ok response t => .ok response { s with pipeline := (t, s.pipeline.2 ++ [call]) }
      | .error message t => .error message { s with pipeline := (t, s.pipeline.2 ++ [call]) } := by
  rw [callPipeline, onPart_apply]
  simp only [logged]
  cases pipeline.call call s.pipeline.1 <;> rfl

/-- The text of the tokens is not available. -/
theorem failed_of_unreadable {s : LoopState (σ × List PipelineCall)} (h : EndedWith g ids s)
    {message : Bytes} (htext : g.tokenizer.detokenize ids = .error message) : Failed g s := by
  by_cases hzero : ids = []
  · subst hzero
    refine .inl ⟨h.collected, fun other hne hreaches => ?_⟩
    have hpos := List.length_pos_iff.mpr hne
    have hfits := hreaches.fits
    rcases h.stops with hmax | hmarker
    · rw [List.length_nil] at hmax
      omega
    · exact not_endsAtMarker_nil g hmarker
  · exact .inr ⟨ids, hzero, ⟨h.reaches, .inr (.inr ⟨h.stops, message, htext⟩)⟩, h.collected⟩

/-- Taking the token of an answer: the loop stops with it, or goes on. -/
theorem satisfies_takeToken (hint : g.maxNewTokens < 2 ^ 31) (hreaches : g.Reaches ids)
    (hroom : ids.length < g.maxNewTokens.toNat) (hread : ids ≠ [] → g.Readable ids)
    (hgoes : ids ≠ [] → ¬g.EndsAtMarker ids) (response : ρ)
    {rest : ℤ → LoopM (σ × List PipelineCall) Unit}
    (hrest : ∀ token, g.Reaches (ids ++ [token]) → g.Readable (ids ++ [token]) →
      ¬g.EndsAtMarker (ids ++ [token]) →
      Satisfies (GoesOn g (ids ++ [token])) (rest token) (fun _ s => ∃ out, EndedWith g out s)
        fun _ => Failed g) :
    Satisfies (Answered g ids response)
      (do
        let token ← stateless (g.pipeline.nextTokenId response)
        pushToken token
        let stop ← shouldStopAfter g.settings g.tokenizer token
        if stop then setTermination (ascii "stop_marker") else rest token)
      (fun _ s => ∃ out, EndedWith g out s) fun _ => Failed g := by
  have hstops : ¬g.Stops ids := by
    rintro (hmax | hmarker)
    · omega
    · by_cases hzero : ids = []
      · exact not_endsAtMarker_nil g (hzero ▸ hmarker)
      · exact hgoes hzero hmarker
  intro s hs
  have hnext := hs.next
  simp only [bind_apply]
  cases htoken : g.pipeline.nextTokenId response with
  | error message =>
    rw [htoken] at hnext
    exact failed_of_error hreaches hstops hnext hs.collected
  | ok token =>
    rw [htoken] at hnext
    have hreaches' := hreaches.append hroom hread hgoes hnext
    have hne : ids ++ [token] ≠ [] := List.append_ne_nil_of_right_ne_nil _ (List.cons_ne_nil _ _)
    simp only [stateless_ok, pushToken, modifyResult]
    generalize hs' : ({ s with result := { s.result with
      generatedTokenIds := s.result.generatedTokenIds ++ [token] } } :
        LoopState (σ × List PipelineCall)) = s'
    have htokens : s'.result.generatedTokenIds = ids ++ [token] := by
      rw [← hs', ← hs.collected.tokens]
    have hcollected : Collected (ids ++ [token]) s' := by
      refine ⟨htokens, ?_, ?_⟩
      · rw [← hs']
        exact hs.collected.count
      · rw [← hs']
        exact hs.collected.text
    rcases shouldStopAfter_eq g token (by omega) htokens with
      ⟨message, hstop, hread'⟩ | ⟨stop, hstop, hread', hmarker⟩
    · rw [hstop]
      exact .inr ⟨_, hne, ⟨hreaches', .inl hread'⟩, hcollected⟩
    · rw [hstop]
      cases stop with
      | true =>
        refine ⟨ids ++ [token], hreaches', fun _ => hread', .inr (hmarker.mp rfl), ?_, ?_, ?_, ?_⟩
        · exact ⟨hcollected.tokens, hcollected.count, hcollected.text⟩
        · rw [← hs']
          exact hs.ok
        · rw [← hs']
          exact hs.calls token
        · exact iff_of_true rfl (hmarker.mp rfl)
      | false =>
        have hgoes' : ¬g.EndsAtMarker (ids ++ [token]) := fun h => by
          cases hmarker.mpr h
        refine hrest token hreaches' hread' hgoes' s' ⟨hcollected, ?_, ?_, ?_, ?_⟩
        · rw [← hs']
          exact hs.ok
        · rw [← hs']
          exact hs.reason
        · rw [← hs']
          exact hs.calls token
        · intro last hlast
          obtain rfl : token = last := Option.some.inj (List.getLast?_concat.symm.trans hlast)
          rw [List.length_append, List.length_singleton, Nat.add_sub_cancel, hnext, ← hs']

/-- The decode loop behind some tokens. -/
theorem satisfies_decodeLoop (hint : g.maxNewTokens < 2 ^ 31) (remaining : ℕ)
    (hreaches : g.Reaches ids) (hremaining : ids.length + remaining = g.maxNewTokens.toNat)
    (hread : g.Readable ids) (hgoes : ¬g.EndsAtMarker ids) {last : ℤ}
    (hlast : ids.getLast? = some last) :
    Satisfies (GoesOn g ids)
      (decodeLoop g.settings g.tokenizer (logged g.pipeline) remaining ids.length last)
      (fun _ s => ∃ out, EndedWith g out s) fun _ => Failed g := by
  induction remaining generalizing ids last with
  | zero =>
    refine satisfies_pure fun s hs => ?_
    refine ⟨ids, hreaches, fun _ => hread, .inl (by omega), hs.collected, hs.ok, hs.calls, ?_⟩
    rw [hs.reason]
    exact iff_of_false (by decide) hgoes
  | succ remaining ih =>
    have hne : ids ≠ [] := by
      rintro rfl
      cases hlast
    have hpos : 0 < ids.length := List.length_pos_iff.mpr hne
    unfold decodeLoop
    refine satisfies_bind (Q := Answered g ids) ?_ fun response => ?_
    · intro s hs
      have hnext : g.token ids.length =
          g.answer ⟨ids.length, ascii "decode", [last]⟩ s.pipeline.1 := by
        have hsucc := Generation.token_succ (hs.behind last hlast)
        rwa [Nat.sub_add_cancel hpos] at hsucc
      have hcalls (next : ℤ) : g.calls (ids ++ [next]) =
          s.pipeline.2 ++ [⟨ids.length, ascii "decode", [last]⟩] := by
        rw [Generation.calls_append g hne last next hlast, hs.calls]
      rw [callPipeline_logged]
      simp only [Generation.answer] at hnext
      cases hrun : g.pipeline.call ⟨ids.length, ascii "decode", [last]⟩ s.pipeline.1 with
      | error message t =>
        rw [hrun] at hnext
        have hstops : ¬g.Stops ids := by
          rintro (hmax | hmarker)
          · omega
          · exact hgoes hmarker
        exact failed_of_error hreaches hstops hnext
          ⟨hs.collected.tokens, hs.collected.count, hs.collected.text⟩
      | ok response t =>
        rw [hrun] at hnext
        exact ⟨⟨hs.collected.tokens, hs.collected.count, hs.collected.text⟩, hs.ok, hs.reason,
          fun next => (hcalls next).symm, hnext⟩
    · refine satisfies_takeToken hint hreaches (by omega) (fun _ => hread) (fun _ => hgoes) response
        fun token hreaches' hread' hgoes' => ?_
      have hlength : (ids ++ [token]).length = ids.length + 1 := by
        rw [List.length_append, List.length_singleton]
      have hlast : (ids ++ [token]).getLast? = some token := List.getLast?_concat
      have hrest := ih hreaches' (by omega) hread' hgoes' hlast
      rwa [hlength] at hrest

/-- Everything behind the answer to the prefill. -/
theorem satisfies_decodeAfterPrefill (hint : g.maxNewTokens < 2 ^ 31) (response : ρ) :
    Satisfies
      (fun s => Collected [] s ∧ s.result.ok = true ∧
        s.result.terminationReason = ascii "max_new_tokens" ∧ s.pipeline.2 = g.calls [] ∧
        g.token 0 =
          match g.pipeline.nextTokenId response with
          | .ok token => .ok (token, s.pipeline.1)
          | .error message => .error message)
      (decodeAfterPrefill g.settings g.tokenizer (logged g.pipeline) g.maxNewTokens.toNat response)
      (fun _ s => ∃ out, EndedWith g out s) fun _ => Failed g := by
  cases hsteps : g.maxNewTokens.toNat with
  | zero =>
    refine satisfies_pure fun s ⟨hcollected, hok, hreason, hcalls, _⟩ => ?_
    refine ⟨[], Generation.reaches_nil g, fun h => absurd rfl h, .inl hsteps.symm, hcollected, hok,
      hcalls, ?_⟩
    rw [hreason]
    exact iff_of_false (by decide) (not_endsAtMarker_nil g)
  | succ remaining =>
    have htake := satisfies_takeToken (g := g) hint (Generation.reaches_nil g)
      (by rw [List.length_nil]; omega) (fun h => absurd rfl h) (fun h => absurd rfl h) response
      fun token hreaches hread hgoes =>
        satisfies_decodeLoop hint remaining hreaches
          (by rw [List.nil_append, List.length_singleton]; omega) hread hgoes
          (List.getLast?_concat : ([] ++ [token]).getLast? = some token)
    refine satisfies_weaken htake ?_ (fun _ _ h => h) fun _ _ h => h
    rintro s ⟨hcollected, hok, hreason, hcalls, hnext⟩
    exact ⟨hcollected, hok, hreason, fun _ => hcalls, hnext⟩

/-- The generation up to the last token, with the description of the tokens. -/
theorem satisfies_generationBody (hint : g.maxNewTokens < 2 ^ 31) {prompt : Bytes}
    (htokenize : g.tokenizer.tokenize
      (formatPromptForGeneration prompt g.settings.applyChatTemplate) = .ok g.promptTokens) :
    Satisfies
      (fun s => Collected [] s ∧ s.result.ok = true ∧ s.pipeline = (g.start, []))
      (generationBody g.settings g.tokenizer (logged g.pipeline) prompt g.maxNewTokens)
      (fun _ s => ∃ ids text before, EndedWith g ids before ∧
        g.tokenizer.detokenize ids = .ok text ∧ s.pipeline = before.pipeline ∧
        s.result = { before.result with
          generatedText := cleanupGeneratedText text
          generatedTokenCount := ids.length })
      fun _ => Failed g := by
  have hfirst : g.token 0 = g.answer ⟨0, ascii "prefill", g.promptTokens⟩ g.start := rfl
  simp only [Generation.answer] at hfirst
  unfold generationBody
  rw [htokenize, stateless_ok_bind]
  refine satisfies_bind (Q := fun _ s => Collected [] s ∧ s.result.ok = true ∧
    s.pipeline = (g.start, [])) ?_ fun _ => ?_
  · rintro s ⟨hcollected, hrest⟩
    exact ⟨⟨hcollected.tokens, hcollected.count, hcollected.text⟩, hrest⟩
  refine satisfies_bind (Q := fun response s => Collected [] s ∧ s.result.ok = true ∧
    s.pipeline.2 = g.calls [] ∧
    g.token 0 =
      match g.pipeline.nextTokenId response with
      | .ok token => .ok (token, s.pipeline.1)
      | .error message => .error message) ?_ fun response => ?_
  · rintro s ⟨hcollected, hok, hstart⟩
    have hcollected' (t : σ × List PipelineCall) : Collected [] { s with pipeline := t } :=
      ⟨hcollected.tokens, hcollected.count, hcollected.text⟩
    rw [callPipeline_logged, hstart]
    cases hrun : g.pipeline.call ⟨0, ascii "prefill", g.promptTokens⟩ g.start with
    | error message t =>
      rw [hrun] at hfirst
      exact .inl ⟨hcollected' _, not_reaches_of_error hfirst⟩
    | ok response t =>
      rw [hrun] at hfirst
      exact ⟨hcollected' _, hok, rfl, hfirst⟩
  refine satisfies_bind (Q := fun _ s => Collected [] s ∧ s.result.ok = true ∧
    s.result.terminationReason = ascii "max_new_tokens" ∧ s.pipeline.2 = g.calls [] ∧
    g.token 0 =
      match g.pipeline.nextTokenId response with
      | .ok token => .ok (token, s.pipeline.1)
      | .error message => .error message) ?_ fun _ => ?_
  · rintro s ⟨hcollected, hok, hcalls, hnext⟩
    exact ⟨⟨hcollected.tokens, hcollected.count, hcollected.text⟩, hok, rfl, hcalls, hnext⟩
  refine satisfies_bind (satisfies_decodeAfterPrefill hint response) fun _ => ?_
  rintro s ⟨ids, hended⟩
  simp only [bind_apply, get_apply, hended.collected.tokens]
  cases htext : g.tokenizer.detokenize ids with
  | ok text => exact ⟨ids, text, s, hended, htext, rfl, by rw [← hended.collected.tokens]⟩
  | error message => exact failed_of_unreadable hended htext

/-- One generation through the recording pipeline. -/
def Generation.run (g : Generation σ ρ) (requestId prompt : Bytes) :
    LoopState (σ × List PipelineCall) :=
  runStubGeneration g.settings g.tokenizer (logged g.pipeline) requestId prompt g.maxNewTokens
    (g.start, [])

/-- Both ends of a generation: described tokens, or an error. -/
theorem run_cases (hint : g.maxNewTokens < 2 ^ 31) {prompt : Bytes}
    (htokenize : g.tokenizer.tokenize
      (formatPromptForGeneration prompt g.settings.applyChatTemplate) = .ok g.promptTokens)
    (requestId : Bytes) :
    (∃ ids text before, EndedWith g ids before ∧ g.tokenizer.detokenize ids = .ok text ∧
        (g.run requestId prompt).pipeline = before.pipeline ∧
        (g.run requestId prompt).result = { before.result with
          generatedText := cleanupGeneratedText text
          generatedTokenCount := ids.length }) ∨
      (g.run requestId prompt).result.ok = false ∧ Failed g (g.run requestId prompt) := by
  have hbody := satisfies_generationBody hint htokenize
    ⟨emptyResult g.tokenizer requestId prompt, (g.start, [])⟩ ⟨⟨rfl, rfl, rfl⟩, rfl, rfl⟩
  unfold Generation.run runStubGeneration
  revert hbody
  cases generationBody g.settings g.tokenizer (logged g.pipeline) prompt g.maxNewTokens
      ⟨emptyResult g.tokenizer requestId prompt, (g.start, [])⟩ with
  | ok u s => exact fun h => .inl h
  | error message s =>
    rintro (⟨hs, hnone⟩ | ⟨ids, hne, hfails, hs⟩)
    · exact .inr ⟨rfl, .inl ⟨⟨hs.tokens, hs.count, hs.text⟩, hnone⟩⟩
    · exact .inr ⟨rfl, .inr ⟨ids, hne, hfails, hs.tokens, hs.count, hs.text⟩⟩

end Runs

section Results

variable {settings : LoopSettings} {tokenizer : Tokenizer} {pipeline : Pipeline σ ρ}
  {maxNewTokens : ℤ} {start : σ}

variable (settings tokenizer pipeline maxNewTokens start) in
/-- Recording the calls changes nothing else. -/
theorem logged_result (requestId prompt : Bytes) :
    { (runStubGeneration settings tokenizer pipeline requestId prompt maxNewTokens
        start).result with error := [] } =
      { (runStubGeneration settings tokenizer (logged pipeline) requestId prompt maxNewTokens
        (start, [])).result with error := [] } := by
  have hcall (call : PipelineCall) : CallsAgree pipeline (logged pipeline) call
      (fun s t => s = t.1) fun s t => s = t.1 := by
    rintro s ⟨_, calls⟩ rfl
    simp only [logged]
    cases pipeline.call call s with
    | error message t => trivial
    | ok response t =>
      refine ⟨?_, rfl⟩
      cases htoken : pipeline.nextTokenId response with
      | ok token => exact .inl ⟨token, htoken, htoken⟩
      | error message => exact .inr ⟨message, message, htoken, htoken⟩
  exact runStubGeneration_agree (Q := fun s t => s = t.1) (R := fun s t => s = t.1)
    (fun tokens _ => hcall _) (fun i token _ => hcall _) requestId maxNewTokens rfl

/-- A generation ends with an error when the prompt cannot be tokenized. -/
theorem run_of_untokenized {prompt message : Bytes} (requestId : Bytes)
    (h : tokenizer.tokenize (formatPromptForGeneration prompt settings.applyChatTemplate) =
      .error message) :
    (runStubGeneration settings tokenizer pipeline requestId prompt maxNewTokens start).result =
      { emptyResult tokenizer requestId prompt with
        ok := false, error := message, terminationReason := ascii "error" } := by
  unfold runStubGeneration generationBody
  rw [h]
  rfl

/-- A successful generation returns the shortest prefix of the token stream
with which it stops, and its calls are the ones that fetch these tokens. -/
theorem generation_output (requestId prompt : Bytes) (hint : maxNewTokens < 2 ^ 31)
    (hok : (runStubGeneration settings tokenizer pipeline requestId prompt maxNewTokens
      start).result.ok = true) :
    ∃ promptTokens, tokenizer.tokenize
        (formatPromptForGeneration prompt settings.applyChatTemplate) = .ok promptTokens ∧
      let g : Generation σ ρ := ⟨settings, tokenizer, pipeline, promptTokens, maxNewTokens, start⟩
      let result := (runStubGeneration settings tokenizer pipeline requestId prompt maxNewTokens
        start).result
      let calls := (runStubGeneration settings tokenizer (logged pipeline) requestId prompt
        maxNewTokens (start, [])).pipeline.2
      g.IsOutput result.generatedTokenIds ∧ calls = g.calls result.generatedTokenIds ∧
        calls.length = max 1 result.generatedTokenIds.length ∧
        (result.terminationReason = ascii "stop_marker" ↔
          g.EndsAtMarker result.generatedTokenIds) := by
  cases htokenize : tokenizer.tokenize
      (formatPromptForGeneration prompt settings.applyChatTemplate) with
  | error message =>
    rw [run_of_untokenized requestId htokenize] at hok
    cases hok
  | ok promptTokens =>
    refine ⟨promptTokens, rfl, ?_⟩
    have hsame := logged_result settings tokenizer pipeline maxNewTokens start requestId prompt
    have hids := congrArg GenerationLoopResult.generatedTokenIds hsame
    have hreason := congrArg GenerationLoopResult.terminationReason hsame
    have hoks := congrArg GenerationLoopResult.ok hsame
    dsimp only at hids hreason hoks ⊢
    rw [hoks] at hok
    rw [hids, hreason]
    rcases run_cases (g := ⟨settings, tokenizer, pipeline, promptTokens, maxNewTokens, start⟩)
        hint htokenize requestId with ⟨ids, text, before, hended, -, hpipeline, hresult⟩ | ⟨hfail, -⟩
    · simp only [Generation.run] at hpipeline hresult
      rw [hresult, hpipeline]
      dsimp only
      rw [hended.collected.tokens, hended.calls]
      exact ⟨hended.reaches.isOutput hended.stops, rfl, Generation.calls_length _ _, hended.reason⟩
    · cases hfail.symm.trans hok

/-- The result counts its tokens and describes them. -/
def Consistent (tokenizer : Tokenizer) (result : GenerationLoopResult) : Prop :=
  result.generatedTokenCount = result.generatedTokenIds.length ∧
    ∃ text, tokenizer.detokenize result.generatedTokenIds = .ok text ∧
      result.generatedText = cleanupGeneratedText text

/-- Count and text describe the tokens exactly when no call and no tokenizer
step fails behind the first token. -/
theorem consistent_iff_no_late_failure (requestId prompt : Bytes) (hint : maxNewTokens < 2 ^ 31)
    (hempty : tokenizer.detokenize [] = .ok []) :
    Consistent tokenizer (runStubGeneration settings tokenizer pipeline requestId prompt
        maxNewTokens start).result ↔
      ∀ promptTokens, tokenizer.tokenize
          (formatPromptForGeneration prompt settings.applyChatTemplate) = .ok promptTokens →
        ∀ ids, ids ≠ [] →
          ¬(⟨settings, tokenizer, pipeline, promptTokens, maxNewTokens, start⟩ :
            Generation σ ρ).FailsWith ids := by
  cases htokenize : tokenizer.tokenize
      (formatPromptForGeneration prompt settings.applyChatTemplate) with
  | error message =>
    refine iff_of_true ?_ fun promptTokens h => by cases h
    rw [run_of_untokenized requestId htokenize]
    exact ⟨rfl, [], hempty, rfl⟩
  | ok promptTokens =>
    have hsame := logged_result settings tokenizer pipeline maxNewTokens start requestId prompt
    have hids := congrArg GenerationLoopResult.generatedTokenIds hsame
    have hcount := congrArg GenerationLoopResult.generatedTokenCount hsame
    have htext := congrArg GenerationLoopResult.generatedText hsame
    dsimp only at hids hcount htext
    unfold Consistent
    rw [hids, hcount, htext]
    rcases run_cases (g := ⟨settings, tokenizer, pipeline, promptTokens, maxNewTokens, start⟩)
        hint htokenize requestId with ⟨ids, text, before, hended, htext, -, hresult⟩ |
          ⟨-, ⟨hcollected, hnone⟩ | ⟨ids, hne, hfails, hcollected⟩⟩
    · simp only [Generation.run] at hresult
      rw [hresult]
      dsimp only
      rw [hended.collected.tokens]
      refine iff_of_true ⟨rfl, text, htext, rfl⟩ fun tokens htokens other hother => ?_
      obtain rfl : promptTokens = tokens := Except.ok.inj htokens
      exact hended.reaches.not_failsWith hended.readable hended.stops htext hother
    · simp only [Generation.run] at hcollected
      rw [hcollected.tokens, hcollected.count, hcollected.text]
      refine iff_of_true ⟨rfl, [], hempty, rfl⟩ fun tokens htokens other hother hfails => ?_
      obtain rfl : promptTokens = tokens := Except.ok.inj htokens
      exact hnone other hother hfails.1
    · simp only [Generation.run] at hcollected
      rw [hcollected.tokens, hcollected.count]
      refine iff_of_false ?_ fun h => h promptTokens rfl ids hne hfails
      rintro ⟨hzero, -⟩
      exact hne (List.length_eq_zero_iff.mp hzero.symm)

end Results

section Stub

/-- The tokenizer that needs no model: a token for each word. -/
def tokenizerStub : Tokenizer where
  backendName := ascii "stub"
  tokenize prompt :=
    let words := (prompt.splitOnP isSpace).filter fun word => !word.isEmpty
    .ok (1 :: (List.range (max 1 words.length)).map fun i => 100 + (i : ℤ))
  detokenize ids := .ok ((ascii " ").intercalate
    (ids.map fun token => ascii "<tok_" ++ decimal token ++ ascii ">"))

/-- A pipeline that answers a call with its index, and cannot answer `broken`. -/
def countingPipeline (broken : ℕ) : Pipeline Unit ℕ where
  call c := fun s =>
    if c.tokenIndex = broken then .error (ascii "connection refused") s else .ok c.tokenIndex s
  nextTokenId i := .ok i

/-- Two tokens from a pipeline that answers both calls. -/
theorem generation_output_two_tokens :
    ∃ promptTokens, tokenizerStub.tokenize (formatPromptForGeneration (ascii "hi") true) =
        .ok promptTokens ∧
      let g : Generation Unit ℕ :=
        ⟨{}, tokenizerStub, countingPipeline 2, promptTokens, 2, ()⟩
      let result := (runStubGeneration {} tokenizerStub (countingPipeline 2) (ascii "r")
        (ascii "hi") 2 ()).result
      let calls := (runStubGeneration {} tokenizerStub (logged (countingPipeline 2)) (ascii "r")
        (ascii "hi") 2 ((), [])).pipeline.2
      g.IsOutput result.generatedTokenIds ∧ calls = g.calls result.generatedTokenIds ∧
        calls.length = max 1 result.generatedTokenIds.length ∧
        (result.terminationReason = ascii "stop_marker" ↔
          g.EndsAtMarker result.generatedTokenIds) :=
  @generation_output Unit ℕ {} tokenizerStub (countingPipeline 2) 2 () (ascii "r") (ascii "hi")
    (by decide) (by decide +kernel)

/-- The same pipeline without an answer to the second call leaves a token that
is not counted. -/
theorem late_failure_uncounted :
    ¬Consistent tokenizerStub (runStubGeneration {} tokenizerStub (countingPipeline 1) (ascii "r")
      (ascii "hi") 2 ()).result := by
  rintro ⟨hcount, -⟩
  revert hcount
  decide +kernel

/-- With answers to both calls no failure is behind the first token. -/
theorem consistent_iff_no_late_failure_two_tokens :
    Consistent tokenizerStub (runStubGeneration {} tokenizerStub (countingPipeline 2) (ascii "r")
        (ascii "hi") 2 ()).result ↔
      ∀ promptTokens, tokenizerStub.tokenize
          (formatPromptForGeneration (ascii "hi") true) = .ok promptTokens →
        ∀ ids, ids ≠ [] →
          ¬(⟨{}, tokenizerStub, countingPipeline 2, promptTokens, 2, ()⟩ :
            Generation Unit ℕ).FailsWith ids :=
  consistent_iff_no_late_failure (ascii "r") (ascii "hi") (by decide) rfl

end Stub

end LayerInference.GenerationLaw
