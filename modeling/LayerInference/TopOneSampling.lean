import LayerInference.Sampling
import LayerInference.ExactSampling

/-!
# Sampling with one candidate

With `top_k` one the sampler returns the index that its sort places first. The
greedy choice is the first index of a greatest logit. The two agree for every
sort that the comparator allows exactly when no other scaled logit equals the
one of the greedy choice. The arithmetic may round, as long as scaling keeps
the order of the logits.
-/

namespace LayerInference.TopOneSampling

open FloatArithmetic CpuExecutor PartitionExecution Sampling ExactSampling

variable {F D : Type} [FloatArith F] [FloatArith D] {logits : List F}
  {sampling : LlamaSamplingParams F} {sort : List (ℕ × F) → List (ℕ × F)}

/-- The greatest logit of the greedy choice, over the entries seen so far. -/
theorem greedyFold_max (horder : WeakOrder F) (items : List (F × ℕ)) (seen : List F)
    (best : ℕ × F) (hseen : ∀ x ∈ seen, FloatArith.lt best.2 x = false) :
    let result := items.foldl (fun (best : ℕ × F) item =>
      if FloatArith.lt best.2 item.1 then (item.2, item.1) else best) best
    (∀ x ∈ seen, FloatArith.lt result.2 x = false) ∧
      (∀ item ∈ items, FloatArith.lt result.2 item.1 = false) ∧
      (result = best ∨ (result.2, result.1) ∈ items) := by
  induction items generalizing best seen with
  | nil => exact ⟨hseen, fun item hitem => absurd hitem List.not_mem_nil, .inl rfl⟩
  | cons item items ih =>
    rw [List.foldl_cons]
    by_cases hless : FloatArith.lt best.2 item.1 = true
    · rw [if_pos hless]
      have hgreater := horder.asymm _ _ hless
      obtain ⟨hall, hitems, hresult⟩ := ih (item.1 :: seen) (item.2, item.1) fun x hx => by
        rcases List.mem_cons.mp hx with rfl | hx
        · exact horder.irrefl _
        · exact horder.negTrans _ _ _ hgreater (hseen x hx)
      refine ⟨fun x hx => hall x (List.mem_cons_of_mem _ hx), fun i hi => ?_, .inr ?_⟩
      · rcases List.mem_cons.mp hi with rfl | hi
        · exact hall _ List.mem_cons_self
        · exact hitems i hi
      · rcases hresult with hresult | hresult
        · rw [hresult]
          exact List.mem_cons_self
        · exact List.mem_cons_of_mem _ hresult
    · rw [if_neg hless]
      obtain ⟨hall, hitems, hresult⟩ := ih (item.1 :: seen) best fun x hx => by
        rcases List.mem_cons.mp hx with rfl | hx
        · exact Bool.eq_false_iff.mpr hless
        · exact hseen x hx
      refine ⟨fun x hx => hall x (List.mem_cons_of_mem _ hx), fun i hi => ?_,
        hresult.imp id (List.mem_cons_of_mem _)⟩
      rcases List.mem_cons.mp hi with rfl | hi
      · exact hall _ List.mem_cons_self
      · exact hitems i hi

/-- The greedy choice has a logit that no other one exceeds. -/
theorem greedyToken_max (horder : WeakOrder F) (hne : logits ≠ []) :
    ∃ h : greedyToken logits < logits.length,
      ∀ x ∈ logits, FloatArith.lt logits[greedyToken logits] x = false := by
  obtain ⟨first, rest, rfl⟩ := List.exists_cons_of_ne_nil hne
  have hdrop : (first :: rest).zipIdx.drop 1 = rest.zipIdx 1 := rfl
  obtain ⟨hseen, hitems, hresult⟩ := greedyFold_max horder (rest.zipIdx 1) [first] (0, first)
    fun x hx => by
      rw [List.mem_singleton.mp hx]
      exact horder.irrefl first
  unfold greedyToken
  rw [hdrop, List.headD_cons]
  generalize (rest.zipIdx 1).foldl (fun (best : ℕ × F) item =>
    if FloatArith.lt best.2 item.1 then (item.2, item.1) else best) (0, first) = result
      at hseen hitems hresult ⊢
  have hvalue : (first :: rest)[result.1]? = some result.2 := by
    rcases hresult with rfl | hmem
    · rfl
    · exact List.mk_mem_zipIdx_iff_getElem?.mp
        (List.mem_cons_of_mem (first, 0) hmem : (result.2, result.1) ∈ (first :: rest).zipIdx)
  obtain ⟨hlt, hget⟩ := List.getElem?_eq_some_iff.mp hvalue
  refine ⟨hlt, fun x hx => ?_⟩
  rw [hget]
  rcases List.mem_cons.mp hx with rfl | hx
  · exact hseen _ (List.mem_singleton_self _)
  · obtain ⟨i, hi, rfl⟩ := List.getElem_of_mem hx
    refine hitems (rest[i], 1 + i) ?_
    exact List.mk_add_mem_zipIdx_iff_getElem?.mpr (List.getElem?_eq_getElem hi)

section TopOne

variable {toDouble : F → D}

/-- With one candidate the sampler returns the first sorted one. -/
theorem sampleToken_one (hsort : SortsDescending sort) (hne : logits ≠ [])
    (henabled : sampling.enabled = true) (htemp : FloatArith.le sampling.temperature 0 = false)
    (htopK : sampling.topK = 1) (draw : D) :
    sampleToken ⟨toDouble, sort⟩ logits sampling draw =
      ((sort (scaledCandidates logits sampling.temperature)).headD (0, 0)).1 := by
  have hlength : (sort (scaledCandidates logits sampling.temperature)).length = logits.length :=
    (hsort.perm _).length_eq.trans (scaledCandidates_length logits sampling.temperature)
  have hpos := List.length_pos_iff.mpr hne
  obtain ⟨c, rest, hcons⟩ := List.exists_cons_of_ne_nil
    (List.ne_nil_of_length_pos (by omega) :
      sort (scaledCandidates logits sampling.temperature) ≠ [])
  have htop : topCandidates sort logits sampling = [c] := by
    unfold topCandidates
    dsimp only
    rw [hcons, htopK]
    by_cases hcut : (1 : ℤ) < (c :: rest).length
    · rw [if_pos ⟨by decide, hcut⟩]
      rfl
    · rw [if_neg fun h => hcut h.2]
      cases rest with
      | nil => rfl
      | cons next rest =>
        simp only [List.length_cons] at hcut
        omega
  have hdistribution : ∃ p, keptDistribution ⟨toDouble, sort⟩ logits sampling = [(c.1, p)] := by
    unfold keptDistribution
    dsimp only
    rw [htop]
    generalize hprobs : probabilities toDouble [c] = probs
    obtain ⟨p, rfl⟩ : ∃ p, probs = [p] := ⟨_, hprobs.symm⟩
    by_cases hfilter : (FloatArith.lt sampling.topP 1 && FloatArith.lt 0 sampling.topP) = true
    · rw [if_pos hfilter]
      have hcutoff : (nucleusCutoff (toDouble sampling.topP) [p] 0 0).getD [p].length = 1 := by
        rw [nucleusCutoff, nucleusCutoff]
        by_cases hreach : FloatArith.le (toDouble sampling.topP) (0 + p) = true
        · rw [if_pos hreach]
          rfl
        · rw [if_neg hreach]
          rfl
      rw [hcutoff]
      by_cases hrenorm : FloatArith.lt 0 (([p].take 1).foldl (· + ·) 0) = true
      · exact ⟨_, by rw [if_pos hrenorm]; rfl⟩
      · exact ⟨_, by rw [if_neg hrenorm]; rfl⟩
    · rw [if_neg hfilter]
      exact ⟨p, rfl⟩
  obtain ⟨p, hdistribution⟩ := hdistribution
  have hon : ¬(!sampling.enabled || FloatArith.le sampling.temperature 0) = true := by
    rw [henabled, htemp]
    exact Bool.false_ne_true
  rw [sampleToken, if_neg hon, selectToken, hdistribution, hcons, pickCandidate, pickCandidate]
  -- the fallback returns the same candidate as the loop
  by_cases hreach : FloatArith.le draw (0 + p) = true
  · rw [if_pos hreach]
    rfl
  · rw [if_neg hreach]
    rfl

/-- Sampling with `top_k` one is the greedy choice, for every possible sort,
every `top_p` and every draw. -/
def AgreesWithGreedy (toDouble : F → D) (logits : List F) (sampling : LlamaSamplingParams F) :
    Prop :=
  ∀ sort, SortsDescending sort → ∀ (topP : F) (draw : D),
    sampleToken ⟨toDouble, sort⟩ logits { sampling with topK := 1, topP := topP } draw =
      greedyToken logits

/-- Scaling keeps the order of the logits; it may make different ones equal. -/
def ScalesMonotonically (logits : List F) (temperature : F) : Prop :=
  ∀ x ∈ logits, ∀ y ∈ logits, FloatArith.lt x y = false →
    FloatArith.lt (x * (1 / temperature)) (y * (1 / temperature)) = false

/-- In exact arithmetic scaling keeps the order. -/
theorem scalesMonotonically_exact [Exponential] (logits : List ℝ) {temperature : ℝ}
    (htemp : 0 < temperature) : ScalesMonotonically logits temperature := by
  intro x _ y _ hxy
  have hle : y ≤ x := not_lt.mp (of_decide_eq_false hxy)
  exact decide_eq_false (not_lt.mpr (mul_le_mul_of_nonneg_right hle (one_div_pos.mpr htemp).le))

/-- Every other scaled logit is less than the one of the greedy choice. -/
def GreedyAlone (logits : List F) (temperature : F) : Prop :=
  ∀ i < logits.length, i ≠ greedyToken logits →
    FloatArith.lt (logits.getD i 0 * (1 / temperature))
      (logits.getD (greedyToken logits) 0 * (1 / temperature)) = true

/-- A possible sort that places a candidate first that no other one exceeds. -/
theorem exists_sort_first (horder : WeakOrder F) {candidates : List (ℕ × F)} {c : ℕ × F}
    (hc : c ∈ candidates) (hmax : ∀ other ∈ candidates, FloatArith.lt c.2 other.2 = false) :
    ∃ sort, SortsDescending sort ∧ ∃ rest, sort candidates = c :: rest := by
  classical
  have hmerge := sortsDescending_mergeSort horder
  generalize hname : (fun candidates : List (ℕ × F) =>
    candidates.mergeSort fun a b => !FloatArith.lt a.2 b.2) = merge at hmerge
  refine ⟨fun input => if input = candidates then c :: merge (candidates.erase c) else merge input,
    ⟨fun input => ?_, fun input => ?_⟩, merge (candidates.erase c), if_pos rfl⟩
  · by_cases hinput : input = candidates
    · rw [if_pos hinput, hinput]
      exact ((hmerge.perm _).cons c).trans (List.perm_cons_erase hc).symm
    · rw [if_neg hinput]
      exact hmerge.perm input
  · by_cases hinput : input = candidates
    · rw [if_pos hinput]
      refine List.pairwise_cons.mpr ⟨fun other hother => hmax other ?_, hmerge.ordered _⟩
      exact List.mem_of_mem_erase ((hmerge.perm _).mem_iff.mp hother)
    · rw [if_neg hinput]
      exact hmerge.ordered input

/-- Sampling with one candidate is the greedy choice for every possible sort
exactly when no other scaled logit equals the one of the greedy choice. -/
theorem top_one_iff_greedy_alone (toDouble : F → D) (horder : WeakOrder F) (hne : logits ≠ [])
    (henabled : sampling.enabled = true) (htemp : FloatArith.le sampling.temperature 0 = false)
    (hscale : ScalesMonotonically logits sampling.temperature) :
    AgreesWithGreedy toDouble logits sampling ↔ GreedyAlone logits sampling.temperature := by
  obtain ⟨hgreedy, hmax⟩ := greedyToken_max horder hne
  have hcandidate {i : ℕ} (hi : i < logits.length) :
      (i, logits.getD i 0 * (1 / sampling.temperature)) ∈
        scaledCandidates logits sampling.temperature :=
    mem_scaledCandidates.mpr ⟨hi, by rw [List.getD_eq_getElem _ _ hi]⟩
  have hone {sort : List (ℕ × F) → List (ℕ × F)} (hsort : SortsDescending sort) (topP : F)
      (draw : D) :
      sampleToken ⟨toDouble, sort⟩ logits { sampling with topK := 1, topP := topP } draw =
        ((sort (scaledCandidates logits sampling.temperature)).headD (0, 0)).1 := by
    refine sampleToken_one hsort hne ?_ ?_ rfl draw
    · exact henabled
    · exact htemp
  constructor
  · intro hagrees i hi hne'
    by_contra htie
    rw [Bool.not_eq_true] at htie
    -- a tie: some sort places the other candidate first
    obtain ⟨sort, hsort, rest, hfirst⟩ := exists_sort_first horder (hcandidate hi) <| by
      intro other hother
      obtain ⟨hlt, hvalue⟩ := mem_scaledCandidates.mp hother
      have hbelow := hscale _ (List.getElem_mem hgreedy) _ (List.getElem_mem hlt)
        (hmax _ (List.getElem_mem hlt))
      rw [hvalue]
      rw [List.getD_eq_getElem _ _ hgreedy] at htie
      exact horder.negTrans _ _ _ htie hbelow
    have hresult := hagrees sort hsort sampling.topP (toDouble 0)
    rw [hone hsort, hfirst] at hresult
    exact hne' hresult
  · intro halone sort hsort topP draw
    rw [hone hsort]
    have hgreedyMem := (hsort.perm _).mem_iff.mpr (hcandidate hgreedy)
    obtain ⟨c, rest, hcons⟩ := List.exists_cons_of_ne_nil (List.ne_nil_of_mem hgreedyMem)
    have hc := (hsort.perm _).mem_iff.mp (hcons ▸ List.mem_cons_self)
    obtain ⟨hlt, hvalue⟩ := mem_scaledCandidates.mp hc
    rw [hcons, List.headD_cons]
    by_contra hother
    have hless := halone c.1 hlt hother
    rw [List.getD_eq_getElem _ _ hlt, ← hvalue] at hless
    have hordered := hsort.ordered (scaledCandidates logits sampling.temperature)
    rw [hcons] at hgreedyMem hordered
    rcases List.mem_cons.mp hgreedyMem with heq | hrest
    · exact hother (congrArg Prod.fst heq).symm
    · have hnot := (List.pairwise_cons.mp hordered).1 _ hrest
      rw [hless] at hnot
      cases hnot

end TopOne

section Ties

/-- The comparison of the codes of finite numbers. -/
theorem weakOrder_softFloat (p e : ℕ) : WeakOrder (SoftFloat p e) where
  asymm x y h := by
    have hless : x.units < y.units := of_decide_eq_true h
    exact decide_eq_false (by omega)
  negTrans x y z hxy hyz := by
    have hle : ¬x.units < y.units := of_decide_eq_false hxy
    have hle' : ¬y.units < z.units := of_decide_eq_false hyz
    exact decide_eq_false (by omega)

/-- Sampling over the whole vocabulary at temperature one. -/
def unitSampling : LlamaSamplingParams Binary32 where
  enabled := true
  temperature := 1
  topK := 0
  topP := 1
  hasSeed := false
  seed := 0

/-- Of two equal logits the greedy choice is the first one, and a possible sort
makes the sampler return the second one. -/
theorem equal_logits_disagree :
    ¬AgreesWithGreedy (Numerics.toDouble : Binary32 → Binary64) [1, 1] unitSampling := by
  intro hagrees
  have hcandidates : scaledCandidates [1, 1] unitSampling.temperature =
      [(0, (1 : Binary32)), (1, (1 : Binary32))] := by decide +kernel
  have hmax : ∀ other ∈ scaledCandidates [1, 1] unitSampling.temperature,
      FloatArith.lt (1 : Binary32) other.2 = false := by
    rw [hcandidates]
    decide +kernel
  obtain ⟨sort, hsort, rest, hfirst⟩ := exists_sort_first (weakOrder_softFloat 24 8)
    (hcandidates ▸ List.mem_cons_of_mem _ List.mem_cons_self) hmax
  have hsecond := hagrees sort hsort 1 0
  rw [sampleToken_one hsort (List.cons_ne_nil _ _) rfl (by decide +kernel) rfl,
    show sort (scaledCandidates [1, 1] _) = (1, 1) :: rest from hfirst] at hsecond
  have hgreedy : greedyToken [(1 : Binary32), 1] = 0 := by decide +kernel
  rw [hgreedy] at hsecond
  cases hsecond

/-- Two different logits, the second one greater. -/
theorem top_one_iff_greedy_alone_two_logits :
    AgreesWithGreedy (Numerics.toDouble : Binary32 → Binary64) [0, 1] unitSampling ↔
      GreedyAlone ([0, 1] : List Binary32) unitSampling.temperature :=
  top_one_iff_greedy_alone _ (weakOrder_softFloat 24 8) (List.cons_ne_nil _ _) rfl
    (by decide +kernel) (by
      unfold ScalesMonotonically
      decide +kernel)

end Ties

end LayerInference.TopOneSampling
