import LayerInference.GenerationLaw
import LayerInference.TextStreams

/-!
# Where a control marker ends a generation

The stop test of the loop reads the text of one token. A tokenizer whose texts
are the concatenated pieces of the tokens can spread a marker over several
pieces, and the clean-up at the end reads the whole text. A generation stops at
the first token that completes a marker exactly when the piece of that token
holds a whole marker, or the token limit is reached with it.
-/

namespace LayerInference.StopMarkers

open ByteStrings TextStreams TensorAbi GenerationLoop GenerationLaw

variable {σ ρ : Type} {settings : LoopSettings} {tokenizer : Tokenizer} {piece : ℤ → Bytes}

/-- The markers that `contains_generation_control_marker` searches. -/
def controlMarkers : List Bytes :=
  [ascii "</s>", ascii "<s>", ascii "<|user|>", ascii "<|assistant|>", ascii "<|system|>"]

theorem containsGenerationControlMarker_iff {text : Bytes} :
    containsGenerationControlMarker text = true ↔ ∃ marker ∈ controlMarkers, marker <:+: text := by
  simp only [containsGenerationControlMarker, Bool.or_eq_true, find_isSome_iff, controlMarkers,
    List.mem_cons, List.not_mem_nil, or_false, exists_eq_or_imp, exists_eq_left, or_assoc]

/-- The text of a list of tokens is the text of its tokens in a row. -/
def Concatenates (tokenizer : Tokenizer) (piece : ℤ → Bytes) : Prop :=
  ∀ ids, tokenizer.detokenize ids = .ok (ids.flatMap piece)

/-- An occurrence of a marker in the whole text ends in the last piece. -/
def CompletesMarker (piece : ℤ → Bytes) (ids : List ℤ) : Prop :=
  ∃ marker ∈ controlMarkers, ∃ front back, ids.flatMap piece = front ++ marker ++ back ∧
    (ids.dropLast.flatMap piece).length < front.length + marker.length

/-- The `n`-th token is the first one, among those that may end the generation,
whose piece completes a marker. -/
structure FirstCompletion (settings : LoopSettings) (piece : ℤ → Bytes) (ids : List ℤ) (n : ℕ) :
    Prop where
  listed : n ≤ ids.length
  enough : max 1 settings.minNewTokens ≤ n
  completes : CompletesMarker piece (ids.take n)
  first : ∀ m : ℕ, m < n → max 1 settings.minNewTokens ≤ m → ¬CompletesMarker piece (ids.take m)

/-- The generation ends with the first token that completes a marker. -/
def StopsAtMarker (settings : LoopSettings) (piece : ℤ → Bytes) (result : GenerationLoopResult) :
    Prop :=
  ∀ n, FirstCompletion settings piece result.generatedTokenIds n →
    result.generatedTokenIds.length = n

/-- Below the token limit, the first piece of the stream that completes a
marker holds a whole marker itself. -/
def MarkersInOnePiece (settings : LoopSettings) (piece : ℤ → Bytes) (stream : ℕ → ℤ)
    (maxNewTokens : ℤ) : Prop :=
  ∀ n < maxNewTokens.toNat,
    FirstCompletion settings piece ((List.range maxNewTokens.toNat).map stream) n →
      containsGenerationControlMarker (piece (stream (n - 1))) = true

/-- A piece that holds a marker completes it. -/
theorem completesMarker_of_contains {ids : List ℤ} {token : ℤ} (hlast : ids.getLast? = some token)
    (h : containsGenerationControlMarker (piece token) = true) : CompletesMarker piece ids := by
  obtain ⟨marker, hmarker, front, back, heq⟩ := containsGenerationControlMarker_iff.mp h
  have hids : ids.dropLast ++ [token] = ids := List.dropLast_append_getLast? token hlast
  have hpos : 0 < marker.length := by
    simp only [controlMarkers, List.mem_cons, List.not_mem_nil, or_false] at hmarker
    rcases hmarker with rfl | rfl | rfl | rfl | rfl <;> decide
  refine ⟨marker, hmarker, ids.dropLast.flatMap piece ++ front, back, ?_, ?_⟩
  · conv_lhs => rw [← hids]
    rw [List.flatMap_append, List.flatMap_singleton, ← heq]
    simp only [List.append_assoc]
  · rw [List.length_append]
    omega

/-- A text in which a marker is completed holds it. -/
theorem CompletesMarker.contains {ids : List ℤ} (h : CompletesMarker piece ids) :
    containsGenerationControlMarker (ids.flatMap piece) = true := by
  obtain ⟨marker, hmarker, front, back, heq, -⟩ := h
  exact containsGenerationControlMarker_iff.mpr ⟨marker, hmarker, front, back, heq.symm⟩

/-- The completed marker depends on the tokens up to it only. -/
theorem FirstCompletion.of_take {ids other : List ℤ} {n : ℕ} (hlisted : n ≤ other.length)
    (hsame : other.take n = ids.take n) (h : FirstCompletion settings piece ids n) :
    FirstCompletion settings piece other n := by
  refine ⟨hlisted, h.enough, hsame ▸ h.completes, fun m hm henough => ?_⟩
  have htake : other.take m = ids.take m := by
    rw [← Nat.min_eq_left (Nat.le_of_lt hm), ← List.take_take, hsame, List.take_take]
  rw [htake]
  exact h.first m hm henough

section Runs

variable {g : Generation σ ρ} {ids : List ℤ} {stream : ℕ → ℤ}

/-- The calls of the generation are answered with the tokens of a stream. -/
def Answers (g : Generation σ ρ) (stream : ℕ → ℤ) : Prop :=
  ∀ i < g.maxNewTokens.toNat, ∃ s, g.token i = .ok (stream i, s)

/-- A generation ends with a marker when the last piece holds one. -/
theorem endsAtMarker_iff (hpieces : Concatenates g.tokenizer piece) {token : ℤ}
    (hlast : ids.getLast? = some token) :
    g.EndsAtMarker ids ↔ g.settings.minNewTokens ≤ ids.length ∧
      containsGenerationControlMarker (piece token) = true := by
  have htext : g.tokenizer.detokenize [token] = .ok (piece token) := by
    rw [hpieces, List.flatMap_singleton]
  constructor
  · rintro ⟨hmin, other, hother, text, htext', hmarker⟩
    obtain rfl : token = other := Option.some.inj (hlast.symm.trans hother)
    obtain rfl : piece token = text := Except.ok.inj (htext.symm.trans htext')
    exact ⟨hmin, hmarker⟩
  · intro h
    exact ⟨h.1, token, hlast, piece token, htext, h.2⟩

/-- The tokens that a generation reaches are the first ones of the stream. -/
theorem eq_take_of_reaches (hanswers : Answers g stream) (h : g.Reaches ids) :
    ids = ((List.range g.maxNewTokens.toNat).map stream).take ids.length := by
  have hfits := h.fits
  have hlength : (((List.range g.maxNewTokens.toNat).map stream).take ids.length).length =
      ids.length := by
    rw [List.length_take, List.length_map, List.length_range]
    omega
  refine List.ext_getElem hlength.symm fun i hi hi' => ?_
  obtain ⟨s, hs⟩ := h.stream i hi
  obtain ⟨t, ht⟩ := hanswers i (by omega)
  have heq : (ids[i], s) = (stream i, t) := Except.ok.inj (hs.symm.trans ht)
  rw [List.getElem_take, List.getElem_map, List.getElem_range]
  exact congrArg Prod.fst heq

/-- A generation whose calls are all answered collects tokens until it stops. -/
theorem collects_until_stop (hint : g.maxNewTokens < 2 ^ 31) (hanswers : Answers g stream)
    (hpieces : Concatenates g.tokenizer piece) {prompt : Bytes}
    (htokenize : g.tokenizer.tokenize
      (formatPromptForGeneration prompt g.settings.applyChatTemplate) = .ok g.promptTokens)
    (requestId : Bytes) :
    g.Reaches (g.run requestId prompt).result.generatedTokenIds ∧
      g.Stops (g.run requestId prompt).result.generatedTokenIds := by
  rcases run_cases hint htokenize requestId with
    ⟨ids, text, before, hended, -, -, hresult⟩ | ⟨-, ⟨hcollected, hnone⟩ | ⟨ids, -, hfails, -⟩⟩
  · rw [hresult]
    dsimp only
    rw [hended.collected.tokens]
    exact ⟨hended.reaches, hended.stops⟩
  · rw [hcollected.tokens]
    refine ⟨Generation.reaches_nil g, .inl ?_⟩
    by_contra hroom
    rw [List.length_nil] at hroom
    obtain ⟨s, hs⟩ := hanswers 0 (by omega)
    refine hnone [stream 0] (List.cons_ne_nil _ _) ?_
    exact (Generation.reaches_nil g).append (by rw [List.length_nil]; omega)
      (fun h => absurd rfl h) (fun h => absurd rfl h) hs
  · exfalso
    obtain ⟨hreaches, hread | ⟨hgoes, message, herror⟩ | ⟨-, message, herror⟩⟩ := hfails
    · exact hread fun _ token _ => ⟨[token].flatMap piece, hpieces [token]⟩
    · have hfits := hreaches.fits
      have hne : ids.length ≠ g.maxNewTokens.toNat := fun heq => hgoes (.inl heq)
      obtain ⟨s, hs⟩ := hanswers ids.length (by omega)
      cases hs.symm.trans herror
    · cases (hpieces ids).symm.trans herror

/-- Tokens that a generation stops with end at the first completed marker
exactly when no marker of the stream is spread over pieces. -/
theorem stops_iff_of_reaches (hanswers : Answers g stream)
    (hpieces : Concatenates g.tokenizer piece) (hreaches : g.Reaches ids) (hstops : g.Stops ids) :
    (∀ n, FirstCompletion g.settings piece ids n → ids.length = n) ↔
      MarkersInOnePiece g.settings piece stream g.maxNewTokens := by
  have hids := eq_take_of_reaches hanswers hreaches
  have hfits := hreaches.fits
  generalize htokens : (List.range g.maxNewTokens.toNat).map stream = tokens at hids
  have hlength : tokens.length = g.maxNewTokens.toNat := by
    rw [← htokens, List.length_map, List.length_range]
  have hcommon {n : ℕ} (hn : n ≤ ids.length) : ids.take n = tokens.take n := by
    rw [hids, List.take_take, Nat.min_eq_left hn]
  have hlast {n : ℕ} (hpos : 1 ≤ n) (hn : n ≤ tokens.length) :
      (tokens.take n).getLast? = some (stream (n - 1)) := by
    rw [List.getLast?_eq_getElem?, List.length_take, Nat.min_eq_left hn,
      List.getElem?_take_of_lt (by omega), ← htokens, List.getElem?_map, List.getElem?_range
        (by omega)]
    rfl
  unfold MarkersInOnePiece
  rw [htokens]
  constructor
  · intro hstop n hn hfirst
    have henough := hfirst.enough
    by_cases hle : n ≤ ids.length
    · have hat := hstop n (hfirst.of_take hle (hcommon hle))
      have hall : ids = tokens.take n := by rw [← hcommon hle, List.take_of_length_le hat.le]
      rcases hstops with hmax | hmarker
      · omega
      · rw [hall, endsAtMarker_iff hpieces (hlast (by omega) (by omega))] at hmarker
        exact hmarker.2
    · -- a generation that stopped earlier had a marker in its last piece
      rcases hstops with hmax | hmarker
      · omega
      · have hpos : 1 ≤ ids.length := by
          by_contra hzero
          have hnil : ids = [] := List.length_eq_zero_iff.mp (by omega)
          exact not_endsAtMarker_nil g (hnil ▸ hmarker)
        have hend := hlast hpos (by omega)
        rw [← hids] at hend
        obtain ⟨hmin, hcontains⟩ := (endsAtMarker_iff hpieces hend).mp hmarker
        refine absurd ?_ (hfirst.first ids.length (by omega) (by omega))
        rw [← hids]
        exact completesMarker_of_contains hend hcontains
  · intro hpiece n hfirst
    have hle := hfirst.listed
    have henough := hfirst.enough
    by_contra hgoes
    have hcontains := hpiece n (by omega)
      (hfirst.of_take (by omega) (hcommon hle).symm)
    refine hreaches.goesOn n (by omega) (by omega) ?_
    rw [hcommon hle, endsAtMarker_iff hpieces (hlast (by omega) (by omega)), List.length_take]
    exact ⟨by omega, hcontains⟩

end Runs

/-- A generation whose calls are answered with a stream of tokens stops at the
first token that completes a marker exactly when, below the token limit, the
piece of that token holds a whole marker. -/
theorem stops_at_marker_iff {pipeline : Pipeline σ ρ} {promptTokens : List ℤ} {maxNewTokens : ℤ}
    {start : σ} {stream : ℕ → ℤ} (requestId prompt : Bytes) (hint : maxNewTokens < 2 ^ 31)
    (hpieces : Concatenates tokenizer piece)
    (htokenize : tokenizer.tokenize
      (formatPromptForGeneration prompt settings.applyChatTemplate) = .ok promptTokens)
    (hanswers : Answers ⟨settings, tokenizer, pipeline, promptTokens, maxNewTokens, start⟩ stream) :
    StopsAtMarker settings piece (runStubGeneration settings tokenizer pipeline requestId prompt
        maxNewTokens start).result ↔
      MarkersInOnePiece settings piece stream maxNewTokens := by
  have hids := congrArg GenerationLoopResult.generatedTokenIds
    (logged_result settings tokenizer pipeline maxNewTokens start requestId prompt)
  dsimp only at hids
  obtain ⟨hreaches, hstops⟩ := collects_until_stop hint hanswers hpieces htokenize requestId
  unfold StopsAtMarker
  rw [hids]
  exact stops_iff_of_reaches hanswers hpieces hreaches hstops

section Pieces

/-- A vocabulary that has the marker `</s>` in two pieces only. -/
def splitPiece (token : ℤ) : Bytes :=
  if token = 0 then ascii "</" else if token = 1 then ascii "s>" else ascii " on"

/-- Text out of pieces; every prompt is one token. -/
def pieceTokenizer (piece : ℤ → Bytes) : Tokenizer where
  backendName := ascii "llama.cpp"
  tokenize _ := .ok [1]
  detokenize ids := .ok (ids.flatMap piece)

/-- A marker of two pieces does not end the generation: a third token follows. -/
theorem split_marker_not_stopped :
    ¬StopsAtMarker {} splitPiece (runStubGeneration {} (pieceTokenizer splitPiece)
      (countingPipeline 3) (ascii "r") (ascii "hi") 3 ()).result := by
  have hids : (runStubGeneration {} (pieceTokenizer splitPiece) (countingPipeline 3) (ascii "r")
      (ascii "hi") 3 ()).result.generatedTokenIds = [0, 1, 2] := by decide +kernel
  intro hstops
  have hat := hstops 2 ?_
  · rw [hids] at hat
    cases hat
  · rw [hids]
    refine ⟨by decide, by decide, ⟨ascii "</s>", by decide, [], [], by decide, by decide⟩,
      fun m hm henough hcompletes => ?_⟩
    obtain rfl : m = 1 := by omega
    have hcontains := hcompletes.contains
    revert hcontains
    decide +kernel

/-- The same generation, with the condition that it does not meet. -/
theorem stops_at_marker_iff_three_tokens :
    StopsAtMarker {} splitPiece (runStubGeneration {} (pieceTokenizer splitPiece)
        (countingPipeline 3) (ascii "r") (ascii "hi") 3 ()).result ↔
      MarkersInOnePiece {} splitPiece (fun i => i) 3 :=
  stops_at_marker_iff (ascii "r") (ascii "hi") (by decide) (fun _ => rfl) rfl fun i hi => by
    have hcount : i < 3 := hi
    have h : i = 0 ∨ i = 1 ∨ i = 2 := by omega
    rcases h with rfl | rfl | rfl <;> exact ⟨(), rfl⟩

end Pieces

end LayerInference.StopMarkers
