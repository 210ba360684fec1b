import LayerInference.PartitionExecution

/-!
# How caches grow

Storing a row lengthens the cache of its layer to the position of the row and
touches nothing else. A pass over a layer therefore grows this cache to the
end of the frame when it succeeds, and to some position inside the frame
when it fails. Nothing is stored before the first row of the first layer has
its query, key and value.
-/

namespace LayerInference.CacheGrowth

open ByteStrings FallibleRuns FlatVectors FloatArithmetic CpuExecutor PartitionExecution

variable {F D G : Type} [FloatArith F] [FloatArith D] [Numerics F D G]

/-- Every counted position has a key row and a value row. -/
structure Filled (kvDim : ℕ) (cache : LayerKvCache F) : Prop where
  keys : cache.k.length = cache.seqLen * kvDim
  values : cache.v.length = cache.seqLen * kvDim

/-- The cache was lengthened to `n` positions, if it was shorter. -/
structure Grown (kvDim n : ℕ) (before after : LayerKvCache F) : Prop where
  seqLen : after.seqLen = max before.seqLen n
  filled : Filled kvDim before → Filled kvDim after

omit [FloatArith F] in
theorem Grown.refl (kvDim : ℕ) (cache : LayerKvCache F) : Grown kvDim 0 cache cache :=
  ⟨by omega, id⟩

omit [FloatArith F] in
theorem Grown.trans {kvDim a b : ℕ} {c c' c'' : LayerKvCache F} (h : Grown kvDim a c c')
    (h' : Grown kvDim b c' c'') : Grown kvDim (max a b) c c'' :=
  ⟨by rw [h'.seqLen, h.seqLen, max_assoc], fun hc => h'.filled (h.filled hc)⟩

/-- The end of a frame of `rows` rows; an empty frame ends nowhere. -/
def frameEnd (kvSeqBefore rows : ℕ) : ℕ := if rows = 0 then 0 else kvSeqBefore + rows

omit [FloatArith F] in
theorem Grown.frameEnd_succ {kvDim n t : ℕ} {c c' c'' : LayerKvCache F}
    (h : Grown kvDim (frameEnd n t) c c') (h' : Grown kvDim (n + t + 1) c' c'') :
    Grown kvDim (frameEnd n (t + 1)) c c'' := by
  have hmax : max (frameEnd n t) (n + t + 1) = frameEnd n (t + 1) := by
    unfold frameEnd
    split <;> simp only [Nat.add_eq_zero_iff, one_ne_zero, and_false, if_false] <;> omega
  exact hmax ▸ h.trans h'

/-- Storing a row grows the cache to its position. -/
theorem grown_store (cache : LayerKvCache F) {kvDim : ℕ} (position : ℕ) {k v : List F}
    (hk : k.length = kvDim) (hv : v.length = kvDim) :
    Grown kvDim (position + 1) cache (cache.store kvDim position k v) := by
  have hfits {seqLen : ℕ} (h : position + 1 ≤ seqLen) :
      position * kvDim + kvDim ≤ seqLen * kvDim := by
    rw [← Nat.succ_mul]
    exact Nat.mul_le_mul_right kvDim h
  unfold LayerKvCache.store
  split
  · next hlt =>
    refine ⟨by dsimp only; omega, fun _ => ⟨?_, ?_⟩⟩
    · dsimp only
      rw [writeAt_length (by rw [resize_length, hk]; exact hfits le_rfl), resize_length]
    · dsimp only
      rw [writeAt_length (by rw [resize_length, hv]; exact hfits le_rfl), resize_length]
  · next hge =>
    refine ⟨by dsimp only; omega, fun hc => ⟨?_, ?_⟩⟩
    · dsimp only
      rw [writeAt_length (by rw [hc.keys, hk]; exact hfits (by omega)), hc.keys]
    · dsimp only
      rw [writeAt_length (by rw [hc.values, hv]; exact hfits (by omega)), hc.values]

omit [FloatArith F] in
/-- The transposed copy is not counted. -/
theorem grown_of_transpose {kvDim n : ℕ} {before stored after : LayerKvCache F}
    (h : Grown kvDim n before stored) (hlen : after.seqLen = stored.seqLen)
    (hkeys : after.k = stored.k) (hvalues : after.v = stored.v) : Grown kvDim n before after :=
  ⟨by rw [hlen, h.seqLen], fun hc =>
    ⟨by rw [hkeys, hlen, (h.filled hc).keys], by rw [hvalues, hlen, (h.filled hc).values]⟩⟩

theorem transpose_rows (cache : LayerKvCache F) (hp : LlamaExecutorHyperparams F) (position : ℕ)
    (v : List F) : (cache.transpose hp position v).seqLen = cache.seqLen ∧
      (cache.transpose hp position v).k = cache.k ∧
        (cache.transpose hp position v).v = cache.v := by
  unfold LayerKvCache.transpose
  dsimp only
  split <;> exact ⟨rfl, rfl, rfl⟩

@[simp] theorem rotate_length (dim : ℕ) (invFreq : List F) (position heads : ℕ) (x : List F) :
    (rotate dim invFreq position heads x).length = x.length := by
  have hinner (h : ℕ) (js : List ℕ) (x : List F) :
      (js.foldl (fun x j => rotatePair (FloatArith.ofInt position * invFreq.getD (2 * j) 0) x
        (h * dim + 2 * j)) x).length = x.length := by
    induction js generalizing x with
    | nil => rfl
    | cons j js ih => rw [List.foldl_cons, ih, rotatePair, List.length_set, List.length_set]
  unfold rotate
  generalize List.range heads = hs
  induction hs generalizing x with
  | nil => rfl
  | cons h hs ih => rw [List.foldl_cons, ih, hinner]

/-- Sizes of query, key and value that attention accepts. -/
def checkSizes (hp : LlamaExecutorHyperparams F) (q k v : List F) : Except Bytes Unit :=
  if q.length ≠ hp.nHead * hp.headDim then .error (ascii "Q vector has wrong size")
  else if k.length ≠ hp.nHeadKv * hp.headDim ∨ v.length ≠ hp.nHeadKv * hp.headDim then
    .error (ascii "K/V vector has wrong size")
  else .ok ()

/-- What a row needs before it is stored. -/
def appendInputs (context : ExecutorContext F) (layerId : ℤ) (attnNormWeight x : List F) :
    Except Bytes Unit := do
  let tensors := context.tensorContext
  let xn ← rmsNorm context.hp x attnNormWeight
  let q ← matvec tensors (layerPrefix layerId ++ ascii "attn_q.weight") xn
  let k ← matvec tensors (layerPrefix layerId ++ ascii "attn_k.weight") xn
  let v ← matvec tensors (layerPrefix layerId ++ ascii "attn_v.weight") xn
  checkSizes context.hp q k v

/-- Attention stores the row exactly when the sizes are accepted. -/
theorem attentionOnCache_grown (context : ExecutorContext F) (q k v : List F) (position : ℕ)
    (cache : LayerKvCache F) :
    let result := attentionOnCache context q k v position cache
    (∀ message, checkSizes context.hp q k v = .error message → result = .error message cache) ∧
    (checkSizes context.hp q k v = .ok () →
      Grown (context.hp.nHeadKv * context.hp.headDim) (position + 1) cache
        (finalState result)) := by
  unfold attentionOnCache checkSizes
  dsimp only
  split
  · next hq =>
    exact ⟨fun message h => by cases h; rfl, fun h => by cases h⟩
  · next hq =>
    split
    · next hkv => exact ⟨fun message h => by cases h; rfl, fun h => by cases h⟩
    · next hkv =>
      refine ⟨fun message h => (by cases h), fun _ => ?_⟩
      have hstored := grown_store cache position (not_not.mp fun h => hkv (.inl h))
        (not_not.mp fun h => hkv (.inr h))
      split
      · obtain ⟨hlen, hkeys, hvalues⟩ := transpose_rows
          (cache.store (context.hp.nHeadKv * context.hp.headDim) position k v) context.hp position v
        exact grown_of_transpose hstored hlen hkeys hvalues
      · split <;> exact hstored

/-- The caches are those of `caches`, with one layer grown to `n` positions. -/
def Stored (context : ExecutorContext F) (caches : ℤ → LayerKvCache F) (layerId : ℤ) (n : ℕ)
    (s : LlamaCpuExecutor context.hp) : Prop :=
  ∃ cache, s.layerCache = Function.update caches layerId cache ∧
    Grown (context.hp.nHeadKv * context.hp.headDim) n (caches layerId) cache

section Passes

variable {context : ExecutorContext F} {caches : ℤ → LayerKvCache F} {layerId : ℤ}

theorem Stored.refl {s : LlamaCpuExecutor context.hp} (h : s.layerCache = caches) :
    Stored context caches layerId 0 s :=
  ⟨caches layerId, by rw [h, Function.update_eq_self], .refl _ _⟩

/-- Attention fails before storing exactly when a size is refused. -/
theorem satisfies_attention (q k v : List F) (position : ℕ) :
    Satisfies (fun s => s.layerCache = caches) (attention context layerId q k v position)
      (fun _ s => checkSizes context.hp q k v = .ok () ∧
        Stored context caches layerId (position + 1) s)
      (fun _ s => (s.layerCache = caches ∧ ∃ message, checkSizes context.hp q k v = .error message) ∨
        (checkSizes context.hp q k v = .ok () ∧
          Stored context caches layerId (position + 1) s)) := by
  intro s hs
  obtain ⟨herror, hok⟩ := attentionOnCache_grown context q k v position (s.layerCache layerId)
  rw [attention, onPart_apply]
  cases hsizes : checkSizes context.hp q k v with
  | error message =>
    rw [herror message hsizes]
    refine .inl ⟨?_, message, rfl⟩
    simp only [LlamaCpuExecutor.setLayer, hs, Function.update_eq_self]
  | ok u =>
    have hgrown := hok hsizes
    cases hrun : attentionOnCache context q k v position (s.layerCache layerId) with
    | ok out cache =>
      rw [hrun] at hgrown
      exact ⟨rfl, cache, by simp only [LlamaCpuExecutor.setLayer, hs], hs ▸ hgrown⟩
    | error message cache =>
      rw [hrun] at hgrown
      exact .inr ⟨rfl, cache, by simp only [LlamaCpuExecutor.setLayer, hs], hs ▸ hgrown⟩

/-- A row is stored as soon as its inputs are computed, whatever follows. -/
theorem satisfies_runRow (layerId : ℤ) (attnNormWeight ffnNormWeight x : List F) (position : ℕ) :
    Satisfies (fun s => s.layerCache = caches)
      (runRow context layerId attnNormWeight ffnNormWeight x position)
      (fun _ s => appendInputs context layerId attnNormWeight x = .ok () ∧
        Stored context caches layerId (position + 1) s)
      (fun _ s => (s.layerCache = caches ∧
          ∃ message, appendInputs context layerId attnNormWeight x = .error message) ∨
        (appendInputs context layerId attnNormWeight x = .ok () ∧
          Stored context caches layerId (position + 1) s)) := by
  unfold runRow
  dsimp only
  refine satisfies_stateless_bind (fun message s h hs => .inl ⟨hs, message, ?_⟩) fun xn hxn => ?_
  · simp only [appendInputs, h, bind, Except.bind]
  refine satisfies_stateless_bind (fun message s h hs => .inl ⟨hs, message, ?_⟩) fun q hq => ?_
  · simp only [appendInputs, hxn, h, bind, Except.bind]
  refine satisfies_stateless_bind (fun message s h hs => .inl ⟨hs, message, ?_⟩) fun k hk => ?_
  · simp only [appendInputs, hxn, hq, h, bind, Except.bind]
  refine satisfies_stateless_bind (fun message s h hs => .inl ⟨hs, message, ?_⟩) fun v hv => ?_
  · simp only [appendInputs, hxn, hq, hk, h, bind, Except.bind]
  have happend : appendInputs context layerId attnNormWeight x = checkSizes context.hp q k v := by
    simp only [appendInputs, hxn, hq, hk, hv, bind, Except.bind]
  rw [happend]
  -- The rotation fills the table and keeps the sizes.
  have hrope : Satisfies (fun s : LlamaCpuExecutor context.hp => s.layerCache = caches)
      (applyRope q k position) (fun rotated s => s.layerCache = caches ∧
        checkSizes context.hp rotated.1 rotated.2 v = checkSizes context.hp q k v)
      (fun _ _ => False) := by
    intro s hs
    refine ⟨hs, ?_⟩
    simp only [checkSizes, rotate_length]
  refine satisfies_bind (satisfies_weaken hrope (fun _ hs => hs) (fun _ _ hs => hs)
    fun _ _ h => h.elim) fun rotated => ?_
  by_cases hsame : checkSizes context.hp rotated.1 rotated.2 v = checkSizes context.hp q k v
  swap
  · exact fun s hs => absurd hs.2 hsame
  rw [← hsame]
  refine satisfies_bind (satisfies_weaken (satisfies_attention rotated.1 rotated.2 v position)
    (fun s hs => hs.1) (fun _ _ hs => hs) fun _ _ hs => hs) fun ctx => ?_
  -- Nothing after attention writes to the executor.
  have hkeep {α β : Type} {r : Except Bytes α} {f : α → ExecM context.hp β}
      (hf : ∀ a, Satisfies (fun s => checkSizes context.hp rotated.1 rotated.2 v = .ok () ∧
          Stored context caches layerId (position + 1) s) (f a)
        (fun _ s => checkSizes context.hp rotated.1 rotated.2 v = .ok () ∧
          Stored context caches layerId (position + 1) s)
        (fun _ s => (s.layerCache = caches ∧
            ∃ message, checkSizes context.hp rotated.1 rotated.2 v = .error message) ∨
          (checkSizes context.hp rotated.1 rotated.2 v = .ok () ∧
            Stored context caches layerId (position + 1) s))) :=
    satisfies_stateless_bind (f := f) (r := r) (fun _ s _ hs => Or.inr hs) fun a _ => hf a
  refine hkeep fun attnOut => hkeep fun fn => hkeep fun gate => hkeep fun up => hkeep fun inter =>
    hkeep fun down => ?_
  exact satisfies_pure fun _ hs => hs

/-- One more row on top of the rows already stored. -/
theorem Stored.row {n t : ℕ} {cache : LayerKvCache F} {s : LlamaCpuExecutor context.hp}
    (hgrown : Grown (context.hp.nHeadKv * context.hp.headDim) (frameEnd n t) (caches layerId) cache)
    (h : Stored context (Function.update caches layerId cache) layerId (n + t + 1) s) :
    Stored context caches layerId (frameEnd n (t + 1)) s := by
  obtain ⟨cache', hs, hgrown'⟩ := h
  rw [Function.update_self] at hgrown'
  exact ⟨cache', by rw [hs, Function.update_idem], hgrown.frameEnd_succ hgrown'⟩

/-- A pass over a layer grows its cache to the end of the frame, or to some
row of the frame when it fails. -/
theorem satisfies_runLayer (layerId : ℤ) (input : List F) (rows n : ℕ) :
    Satisfies (fun s => s.layerCache = caches) (runLayer context layerId input rows n)
      (fun _ s => Stored context caches layerId (frameEnd n rows) s)
      (fun _ s => ∃ t ≤ rows, Stored context caches layerId (frameEnd n t) s) := by
  unfold runLayer
  dsimp only
  refine satisfies_stateless_bind (fun _ s _ hs => ⟨0, by omega, .refl hs⟩) fun attnNorm _ => ?_
  refine satisfies_stateless_bind (fun _ s _ hs => ⟨0, by omega, .refl hs⟩) fun ffnNorm _ => ?_
  refine satisfies_weaken (satisfies_range (n := rows)
    (I := fun t _ s => Stored context caches layerId (frameEnd n t) s) (fun t output ht => ?_)
    input) (fun s hs => Stored.refl hs) (fun _ _ hs => hs) fun _ _ hs => hs
  refine satisfies_bind (Q := fun _ s => Stored context caches layerId (frameEnd n (t + 1)) s)
    ?_ fun row => satisfies_pure fun _ hs => hs
  rintro s ⟨cache, hs, hgrown⟩
  have hrow := satisfies_runRow layerId attnNorm ffnNorm
    (slice output (t * context.hp.hiddenSize) context.hp.hiddenSize) (n + t) s hs
  cases hrun : runRow context layerId attnNorm ffnNorm
      (slice output (t * context.hp.hiddenSize) context.hp.hiddenSize) (n + t) s with
  | ok row s' =>
    rw [hrun] at hrow
    exact hrow.2.row hgrown
  | error message s' =>
    rw [hrun] at hrow
    rcases hrow with ⟨hkept, -⟩ | ⟨-, hstored⟩
    · exact ⟨t, by omega, cache, hkept, hgrown⟩
    · exact ⟨t + 1, by omega, hstored.row hgrown⟩

end Passes

/-- What a pass over some layers does to the caches: each of these layers is
grown to some row of the frame, and no other layer is touched. -/
structure LayersGrown (context : ExecutorContext F) (layers : List ℤ) (n rows : ℕ)
    (before after : ℤ → LayerKvCache F) : Prop where
  grown : ∀ l, ∃ t ≤ rows,
    Grown (context.hp.nHeadKv * context.hp.headDim) (frameEnd n t) (before l) (after l)
  frame : ∀ l ∉ layers, after l = before l

omit [FloatArith F] in
theorem LayersGrown.refl (context : ExecutorContext F) (layers : List ℤ) (n rows : ℕ)
    (caches : ℤ → LayerKvCache F) : LayersGrown context layers n rows caches caches :=
  ⟨fun _ => ⟨0, by omega, .refl _ _⟩, fun _ _ => rfl⟩

theorem frameEnd_max (n t u : ℕ) : max (frameEnd n t) (frameEnd n u) = frameEnd n (max t u) := by
  unfold frameEnd
  split <;> split <;> split <;> omega

omit [FloatArith F] in
theorem LayersGrown.cons {context : ExecutorContext F} {l : ℤ} {layers : List ℤ} {n rows : ℕ}
    {before after : ℤ → LayerKvCache F} {cache : LayerKvCache F} {t : ℕ} (ht : t ≤ rows)
    (hgrown : Grown (context.hp.nHeadKv * context.hp.headDim) (frameEnd n t) (before l) cache)
    (h : LayersGrown context layers n rows (Function.update before l cache) after) :
    LayersGrown context (l :: layers) n rows before after := by
  refine ⟨fun l' => ?_, fun l' hl' => ?_⟩
  · obtain ⟨u, hu, hafter⟩ := h.grown l'
    by_cases heq : l' = l
    · subst heq
      rw [Function.update_self] at hafter
      exact ⟨max t u, by omega, frameEnd_max n t u ▸ hgrown.trans hafter⟩
    · rw [Function.update_of_ne heq] at hafter
      exact ⟨u, hu, hafter⟩
  · rw [List.mem_cons, not_or] at hl'
    rw [h.frame l' hl'.2, Function.update_of_ne hl'.1]

/-- A pass over the layers of a partition. When it succeeds, every layer is
grown to the end of the frame. -/
theorem satisfies_runLayers (context : ExecutorContext F) (layers : List ℤ)
    (caches : ℤ → LayerKvCache F) (hidden : List F) (rows n : ℕ) :
    Satisfies (fun s => s.layerCache = caches) (runLayers context layers hidden rows n)
      (fun _ s => LayersGrown context layers n rows caches s.layerCache ∧ ∀ l ∈ layers,
        Grown (context.hp.nHeadKv * context.hp.headDim) (frameEnd n rows) (caches l)
          (s.layerCache l))
      (fun _ s => LayersGrown context layers n rows caches s.layerCache) := by
  unfold runLayers
  induction layers generalizing caches hidden with
  | nil =>
    refine satisfies_pure fun s hs => ?_
    rw [hs]
    exact ⟨.refl _ _ _ _ _, fun l hl => absurd hl List.not_mem_nil⟩
  | cons l layers ih =>
    rw [List.foldlM_cons]
    refine satisfies_bind (satisfies_weaken (satisfies_runLayer l hidden rows n)
      (fun _ hs => hs) (fun _ _ hs => hs) ?_) fun hidden' => ?_
    · rintro message s ⟨t, ht, cache, hs, hgrown⟩
      rw [hs]
      exact .cons ht hgrown (.refl _ _ _ _ _)
    · rintro s ⟨cache, hs, hgrown⟩
      have hrest := ih (Function.update caches l cache) hidden' s hs
      cases hrun : layers.foldlM
          (fun hidden layerId => runLayer context layerId hidden rows n) hidden' s with
      | error message s' =>
        rw [hrun] at hrest
        exact .cons le_rfl hgrown hrest
      | ok out s' =>
        rw [hrun] at hrest
        obtain ⟨hall, hdone⟩ := hrest
        refine ⟨.cons le_rfl hgrown hall, fun l' hl' => ?_⟩
        by_cases hmem : l' ∈ layers
        · have hlater := hdone l' hmem
          by_cases heq : l' = l
          · subst heq
            rw [Function.update_self] at hlater
            simpa using hgrown.trans hlater
          · rwa [Function.update_of_ne heq] at hlater
        · obtain rfl : l' = l := by simpa [hmem] using hl'
          rw [hall.frame l' hmem, Function.update_self]
          exact hgrown

end LayerInference.CacheGrowth
