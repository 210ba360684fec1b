import LayerInference.RunningSums
import LayerInference.Sampling
import Mathlib.Algebra.BigOperators.Ring.List
import Mathlib.Analysis.Complex.Exponential

/-!
# The law of the sampler

In exact arithmetic the sampler keeps the first candidates by logit, cut to
the shortest prefix whose probability reaches the bound, and returns each of
them for the draws of one interval. The lengths of the intervals are the
probabilities, renormalized over the kept candidates, and the intervals fill
the unit interval, so that the fallback is never taken. Of the exponential only
its sign and its growth are used.
-/

namespace LayerInference.ExactSampling

open FloatArithmetic CpuExecutor PartitionExecution Sampling RunningSums

/-- An exponential: positive and strictly increasing. -/
class Exponential where
  exp : ℝ → ℝ
  exp_pos : ∀ x, 0 < exp x
  exp_strictMono : StrictMono exp

section Exact

variable [Exponential]

/-- Exact arithmetic over an exponential. -/
noncomputable scoped instance exactArith : FloatArith ℝ where
  lt x y := decide (x < y)
  le x y := decide (x ≤ y)
  exp := Exponential.exp
  ofInt n := n

/-- The platform in exact arithmetic: doubles are the same numbers. -/
def exactPlatform (sort : List (ℕ × ℝ) → List (ℕ × ℝ)) : SamplerPlatform ℝ ℝ where
  toDouble := id
  sort := sort

/-- The indices in descending order of their logits. -/
structure ByLogit (logits : List ℝ) (order : List ℕ) : Prop where
  perm : order.Perm (List.range logits.length)
  ordered : order.Pairwise fun i j => logits.getD j 0 ≤ logits.getD i 0

/-- How many candidates the cut to the first `top_k` keeps. -/
def topCount (topK : ℤ) (vocab : ℕ) : ℕ := if topK ≤ 0 then vocab else min topK.toNat vocab

/-- The softmax weight of a candidate relative to the first one. -/
noncomputable def weight (logits : List ℝ) (temperature : ℝ) (top : List ℕ) (i : ℕ) : ℝ :=
  Exponential.exp ((logits.getD i 0 - logits.getD (top.headD 0) 0) / temperature)

/-- The softmax probability of a candidate among the first ones. -/
noncomputable def probability (logits : List ℝ) (temperature : ℝ) (top : List ℕ) (i : ℕ) : ℝ :=
  weight logits temperature top i / (top.map (weight logits temperature top)).sum

/-- The kept candidates: the shortest prefix whose mass reaches the bound, or
all of them when the bound is not inside the unit interval. -/
structure Nucleus (topP : ℝ) (mass : ℕ → ℝ) (top kept : List ℕ) : Prop where
  front : kept <+: top
  all : ¬(0 < topP ∧ topP < 1) → kept = top
  reaches : 0 < topP → topP < 1 → topP ≤ (kept.map mass).sum
  shortest : 0 < topP → topP < 1 → ∀ n < kept.length, ((top.take n).map mass).sum < topP

/-- The part of the unit interval that the first kept candidates take. -/
noncomputable def share (mass : ℕ → ℝ) (kept : List ℕ) (n : ℕ) : ℝ :=
  ((kept.take n).map mass).sum / (kept.map mass).sum

section Loops

/-- The nucleus loop in exact arithmetic. -/
theorem nucleusCutoff_eq (topP : ℝ) (probs : List ℝ) (cumulative : ℝ) (i : ℕ) :
    nucleusCutoff topP probs cumulative i =
      (firstReach topP probs cumulative).map fun n => i + n + 1 := by
  induction probs generalizing cumulative i with
  | nil => rfl
  | cons p probs ih =>
    rw [nucleusCutoff, firstReach]
    by_cases hreach : topP ≤ cumulative + p
    · rw [if_pos hreach, if_pos (show FloatArith.le topP (cumulative + p) = true from
        decide_eq_true hreach)]
      rfl
    · rw [if_neg hreach, if_neg (show ¬FloatArith.le topP (cumulative + p) = true by
        rw [show FloatArith.le topP (cumulative + p) = decide (topP ≤ cumulative + p) from rfl,
          decide_eq_true_eq]
        exact hreach), ih, Option.map_map]
      refine congrArg (Option.map · _) (funext fun n => ?_)
      simp only [Function.comp_apply]
      omega

/-- The selection loop in exact arithmetic. -/
theorem pickCandidate_eq (draw : ℝ) (candidates : List (ℕ × ℝ)) (cumulative : ℝ) :
    pickCandidate draw candidates cumulative =
      (firstReach draw (candidates.map Prod.snd) cumulative).bind fun n =>
        (candidates.map Prod.fst)[n]? := by
  induction candidates generalizing cumulative with
  | nil => rfl
  | cons c candidates ih =>
    obtain ⟨token, p⟩ := c
    rw [pickCandidate, List.map_cons, List.map_cons, firstReach]
    by_cases hreach : draw ≤ cumulative + p
    · rw [if_pos hreach, if_pos (show FloatArith.le draw (cumulative + p) = true from
        decide_eq_true hreach)]
      rfl
    · rw [if_neg hreach, if_neg (show ¬FloatArith.le draw (cumulative + p) = true by
        rw [show FloatArith.le draw (cumulative + p) = decide (draw ≤ cumulative + p) from rfl,
          decide_eq_true_eq]
        exact hreach), ih, Option.bind_map]
      rfl

end Loops

section Candidates

variable {logits : List ℝ} {sampling : LlamaSamplingParams ℝ}
  {sort : List (ℕ × ℝ) → List (ℕ × ℝ)}

/-- The sorted candidates, by their indices. -/
noncomputable def sortedOrder (sort : List (ℕ × ℝ) → List (ℕ × ℝ)) (logits : List ℝ)
    (temperature : ℝ) : List ℕ :=
  (sort (scaledCandidates logits temperature)).map Prod.fst

theorem sorted_value (hsort : SortsDescending sort) {temperature : ℝ} {c : ℕ × ℝ}
    (hc : c ∈ sort (scaledCandidates logits temperature)) :
    c.2 = logits.getD c.1 0 * (1 / temperature) := by
  obtain ⟨hlt, hvalue⟩ := mem_scaledCandidates.mp ((hsort.perm _).mem_iff.mp hc)
  rw [hvalue, List.getD_eq_getElem _ _ hlt]

/-- Scaling keeps the order of the logits. -/
theorem sortedOrder_byLogit (hsort : SortsDescending sort) {temperature : ℝ}
    (htemp : 0 < temperature) : ByLogit logits (sortedOrder sort logits temperature) where
  perm := by
    rw [← scaledCandidates_ids logits temperature]
    exact (hsort.perm _).map Prod.fst
  ordered := by
    refine List.pairwise_map.mpr ((hsort.ordered _).imp_of_mem fun {a b} ha hb hab => ?_)
    have hle : ¬a.2 < b.2 := of_decide_eq_false hab
    rw [sorted_value hsort ha, sorted_value hsort hb, not_lt] at hle
    exact le_of_mul_le_mul_right hle (one_div_pos.mpr htemp)

theorem sort_length (hsort : SortsDescending sort) (logits : List ℝ) (temperature : ℝ) :
    (sort (scaledCandidates logits temperature)).length = logits.length :=
  (hsort.perm _).length_eq.trans (scaledCandidates_length logits temperature)

/-- The cut to the first `top_k` is a prefix of the sorted candidates. -/
theorem topCandidates_eq (hsort : SortsDescending sort) :
    topCandidates sort logits sampling =
      (sort (scaledCandidates logits sampling.temperature)).take
        (topCount sampling.topK logits.length) := by
  have hlength := sort_length hsort logits sampling.temperature
  unfold topCandidates topCount
  dsimp only
  rw [hlength]
  by_cases hoff : sampling.topK ≤ 0
  · rw [if_neg (by omega), if_pos hoff, List.take_of_length_le (by omega)]
  · rw [if_neg hoff]
    by_cases hcut : sampling.topK < logits.length
    · rw [if_pos ⟨by omega, hcut⟩, Nat.min_eq_left (by omega)]
    · rw [if_neg (by omega), List.take_of_length_le (by omega)]

theorem topCandidates_ids (hsort : SortsDescending sort) :
    (topCandidates sort logits sampling).map Prod.fst =
      (sortedOrder sort logits sampling.temperature).take
        (topCount sampling.topK logits.length) := by
  rw [topCandidates_eq hsort, List.map_take]
  rfl

theorem topCandidates_ne_nil (hsort : SortsDescending sort) (hne : logits ≠ []) :
    topCandidates sort logits sampling ≠ [] := by
  have hlength := sort_length hsort logits sampling.temperature
  have hpos := List.length_pos_iff.mpr hne
  refine List.ne_nil_of_length_pos ?_
  rw [topCandidates_eq hsort, List.length_take, hlength, topCount]
  split <;> omega

/-- The probabilities of the sampler are the softmax of the first logits. -/
theorem probabilities_eq (hsort : SortsDescending sort) (hne : logits ≠ []) :
    let top := (topCandidates sort logits sampling).map Prod.fst
    probabilities id (topCandidates sort logits sampling) =
      top.map (probability logits sampling.temperature top) := by
  intro top
  have hmem : ∀ c ∈ topCandidates sort logits sampling,
      c.2 = logits.getD c.1 0 * (1 / sampling.temperature) := fun c hc => by
    rw [topCandidates_eq hsort] at hc
    exact sorted_value hsort (List.mem_of_mem_take hc)
  obtain ⟨first, rest, hcons⟩ :=
    List.exists_cons_of_ne_nil (@topCandidates_ne_nil _ logits sampling sort hsort hne)
  have hhead : top.headD 0 = first.1 := by
    simp only [top, hcons, List.map_cons, List.headD_cons]
  have hweights : softmaxWeights id (topCandidates sort logits sampling) =
      top.map (weight logits sampling.temperature top) := by
    rw [List.map_map]
    refine List.map_congr_left fun c hc => ?_
    have hfirst := hmem first (hcons ▸ List.mem_cons_self)
    change Exponential.exp (c.2 - ((topCandidates sort logits sampling).headD (0, 0)).2) =
      Exponential.exp ((logits.getD c.1 0 - logits.getD (top.headD 0) 0) / sampling.temperature)
    rw [hhead, hcons, List.headD_cons, hmem c hc, hfirst]
    refine congrArg _ ?_
    ring
  have hsum : (softmaxWeights id (topCandidates sort logits sampling)).foldl (· + ·) 0 =
      (top.map (weight logits sampling.temperature top)).sum := by
    rw [hweights, List.sum_eq_foldl]
  change (softmaxWeights id (topCandidates sort logits sampling)).map
    (· / (softmaxWeights id (topCandidates sort logits sampling)).foldl (· + ·) 0) = _
  rw [hsum, hweights, List.map_map]
  rfl

end Candidates

section Distribution

variable {logits : List ℝ} {temperature topP : ℝ} {top kept : List ℕ}

theorem weight_pos (i : ℕ) : 0 < weight logits temperature top i := Exponential.exp_pos _

theorem sum_weights_pos (hne : top ≠ []) :
    0 < (top.map (weight logits temperature top)).sum :=
  sum_map_pos weight_pos hne

theorem probability_pos (hne : top ≠ []) (i : ℕ) : 0 < probability logits temperature top i :=
  div_pos (weight_pos i) (sum_weights_pos hne)

/-- The probabilities of all first candidates add up to one. -/
theorem sum_probability (hne : top ≠ []) :
    (top.map (probability logits temperature top)).sum = 1 := by
  have hscale : top.map (probability logits temperature top) =
      top.map fun i => weight logits temperature top i *
        ((top.map (weight logits temperature top)).sum)⁻¹ :=
    List.map_congr_left fun i _ => div_eq_mul_inv _ _
  rw [hscale, List.sum_map_mul_right, mul_inv_cancel₀ (sum_weights_pos hne).ne']

/-- The candidates behind the nucleus cut, renormalized. -/
theorem nucleus_distribution {mass : ℕ → ℝ} (hne : top ≠ [])
    (hsum : (top.map mass).sum = 1) (hlow : 0 < topP) (hhigh : topP < 1) :
    let cutoff := (nucleusCutoff topP (top.map mass) 0 0).getD (top.map mass).length
    Nucleus topP mass top (top.take cutoff) ∧ top.take cutoff ≠ [] := by
  intro cutoff
  have hne' : top.map mass ≠ [] := fun h => hne (List.map_eq_nil_iff.mp h)
  have hbound : topP ≤ 0 + (top.map mass).sum := by
    rw [zero_add, hsum]
    exact hhigh.le
  obtain ⟨n, hn⟩ := firstReach_exists hne' hbound
  have hcutoff : cutoff = n + 1 := by
    simp only [cutoff, nucleusCutoff_eq, hn, Option.map_some, Option.getD_some, zero_add]
  obtain ⟨hlt, hreach, hbefore⟩ := firstReach_eq_some.mp hn
  rw [List.length_map] at hlt
  have hsum_take (m : ℕ) : partialSum (top.map mass) m = ((top.take m).map mass).sum := by
    rw [partialSum, List.map_take]
  rw [hcutoff]
  refine ⟨⟨List.take_prefix _ _, fun hoff => absurd ⟨hlow, hhigh⟩ hoff, fun _ _ => ?_,
    fun _ _ m hm => ?_⟩, fun hnil => ?_⟩
  · rwa [zero_add, hsum_take] at hreach
  · rw [List.length_take, Nat.min_eq_left (by omega)] at hm
    cases m with
    | zero => simpa using hlow
    | succ m =>
      have hlt' := hbefore m (by omega)
      rwa [zero_add, hsum_take] at hlt'
  · rcases List.take_eq_nil_iff.mp hnil with h | h
    · cases h
    · exact hne h

omit [Exponential] in
/-- Candidates paired with what belongs to them. -/
theorem zip_map_self (top : List ℕ) (f : ℕ → ℝ) :
    top.zip (top.map f) = top.map fun i => (i, f i) := by
  induction top with
  | nil => rfl
  | cons i top ih => rw [List.map_cons, List.zip_cons_cons, ih, List.map_cons]

/-- The distribution of the sampler: the nucleus of the first candidates. -/
theorem keptDistribution_eq {sampling : LlamaSamplingParams ℝ}
    {sort : List (ℕ × ℝ) → List (ℕ × ℝ)} (hsort : SortsDescending sort) (hne : logits ≠ []) :
    let top := (topCandidates sort logits sampling).map Prod.fst
    let mass := probability logits sampling.temperature top
    ∃ kept, Nucleus sampling.topP mass top kept ∧ kept ≠ [] ∧
      keptDistribution (exactPlatform sort) logits sampling =
        kept.map fun i => (i, mass i / (kept.map mass).sum) := by
  intro top mass
  have hprobs := @probabilities_eq _ logits sampling sort hsort hne
  have hne' : top ≠ [] := fun h =>
    @topCandidates_ne_nil _ logits sampling sort hsort hne (List.map_eq_nil_iff.mp h)
  have hmass : ∀ i, 0 < mass i := probability_pos hne'
  have hsum : (top.map mass).sum = 1 := sum_probability hne'
  have hplatform : probabilities (exactPlatform sort).toDouble
      (topCandidates (exactPlatform sort).sort logits sampling) = top.map mass := hprobs
  unfold keptDistribution
  dsimp only
  rw [hplatform]
  by_cases hfilter : 0 < sampling.topP ∧ sampling.topP < 1
  · obtain ⟨hlow, hhigh⟩ := hfilter
    obtain ⟨hnucleus, hkept⟩ := nucleus_distribution hne' hsum hlow hhigh
    refine ⟨_, hnucleus, hkept, ?_⟩
    have hon : (FloatArith.lt sampling.topP 1 && FloatArith.lt 0 sampling.topP) = true :=
      Bool.and_eq_true_iff.mpr ⟨decide_eq_true hhigh, decide_eq_true hlow⟩
    have hdouble : (exactPlatform sort).toDouble sampling.topP = sampling.topP := rfl
    rw [if_pos hon, hdouble]
    generalize (nucleusCutoff sampling.topP (top.map mass) 0 0).getD (top.map mass).length = cutoff
      at hkept ⊢
    have hrenorm : ((top.map mass).take cutoff).foldl (· + ·) 0 =
        ((top.take cutoff).map mass).sum := by
      rw [← List.map_take, List.sum_eq_foldl]
    have hpos : 0 < ((top.map mass).take cutoff).foldl (· + ·) 0 :=
      hrenorm ▸ sum_map_pos hmass hkept
    have hscaled : (if FloatArith.lt 0 (((top.map mass).take cutoff).foldl (· + ·) 0) = true then
        (top.map mass).map (· / ((top.map mass).take cutoff).foldl (· + ·) 0) else top.map mass) =
          top.map fun i => mass i / ((top.take cutoff).map mass).sum := by
      have hon' : FloatArith.lt 0 (((top.map mass).take cutoff).foldl (· + ·) 0) = true :=
        decide_eq_true hpos
      rw [if_pos hon', hrenorm, List.map_map]
      rfl
    refine (congrArg (fun probs => (top.zip probs).take cutoff) hscaled).trans ?_
    rw [zip_map_self]
    exact List.map_take.symm
  · have hoff : ¬(FloatArith.lt sampling.topP 1 && FloatArith.lt 0 sampling.topP) = true := by
      intro hon
      obtain ⟨hhigh, hlow⟩ := Bool.and_eq_true_iff.mp hon
      exact hfilter ⟨of_decide_eq_true hlow, of_decide_eq_true hhigh⟩
    refine ⟨top, ⟨List.prefix_refl _, fun _ => rfl, fun hlow hhigh => absurd ⟨hlow, hhigh⟩ hfilter,
      fun hlow hhigh => absurd ⟨hlow, hhigh⟩ hfilter⟩, hne', ?_⟩
    rw [if_neg hoff, hsum]
    simp only [div_one]
    exact zip_map_self top mass

end Distribution

section Law

variable {logits : List ℝ} {sampling : LlamaSamplingParams ℝ}
  {sort : List (ℕ × ℝ) → List (ℕ × ℝ)} {kept : List ℕ} {mass : ℕ → ℝ}

/-- The selection among kept candidates: each one for the draws of its part of
the unit interval. -/
theorem select_kept (hmass : ∀ i, 0 < mass i) (hne : kept ≠ []) {draw : ℝ} :
    let distribution := kept.map fun i => (i, mass i / (kept.map mass).sum)
    (draw < 1 → ∃ token ∈ kept, pickCandidate draw distribution 0 = some token) ∧
      (kept.Nodup → ∀ n (hn : n < kept.length), pickCandidate draw distribution 0 = some kept[n] ↔
        (n = 0 ∨ share mass kept n < draw) ∧ draw ≤ share mass kept (n + 1)) := by
  intro distribution
  have hsum := sum_map_pos hmass hne
  have hids : distribution.map Prod.fst = kept := by
    rw [List.map_map]
    exact List.map_id kept
  have hterms : distribution.map Prod.snd = kept.map fun i => mass i / (kept.map mass).sum := by
    rw [List.map_map]
    rfl
  have hscale (items : List ℕ) : (items.map fun i => mass i / (kept.map mass).sum).sum =
      (items.map mass).sum / (kept.map mass).sum := by
    simp only [div_eq_mul_inv, List.sum_map_mul_right]
  have hsum_take (n : ℕ) : (0 : ℝ) + partialSum (distribution.map Prod.snd) n =
      share mass kept n := by
    rw [zero_add, hterms, partialSum, ← List.map_take, hscale, share]
  have hnonneg : ∀ term ∈ distribution.map Prod.snd, 0 ≤ term := by
    rw [hterms]
    intro term hterm
    obtain ⟨i, -, rfl⟩ := List.mem_map.mp hterm
    exact (div_pos (hmass i) hsum).le
  have hlength : (distribution.map Prod.snd).length = kept.length := by
    rw [hterms, List.length_map]
  constructor
  · intro hdraw
    have htotal : (0 : ℝ) + (distribution.map Prod.snd).sum = 1 := by
      rw [zero_add, hterms, hscale, div_self hsum.ne']
    have hne' : distribution.map Prod.snd ≠ [] :=
      List.ne_nil_of_length_pos (hlength ▸ List.length_pos_iff.mpr hne)
    obtain ⟨n, hn⟩ := firstReach_exists hne' (htotal.symm ▸ hdraw.le)
    have hlt : n < kept.length := hlength ▸ (firstReach_eq_some.mp hn).1
    refine ⟨kept[n], List.getElem_mem hlt, ?_⟩
    rw [pickCandidate_eq, hn, hids]
    exact List.getElem?_eq_getElem hlt
  · intro hnodup n hn
    rw [← hsum_take n, ← hsum_take (n + 1),
      ← firstReach_eq_some_iff hnonneg (hlength.symm ▸ hn : n < (distribution.map Prod.snd).length),
      pickCandidate_eq, hids]
    constructor
    · intro hpick
      obtain ⟨m, hm, hget⟩ := Option.bind_eq_some_iff.mp hpick
      obtain ⟨hlt, hvalue⟩ := List.getElem?_eq_some_iff.mp hget
      rw [hm, (List.Nodup.getElem_inj_iff hnodup).mp hvalue]
    · intro hreach
      rw [hreach]
      exact List.getElem?_eq_getElem hn

/-- The parts of the unit interval lie side by side, each as long as the
renormalized probability of its candidate. -/
theorem share_interval (hmass : ∀ i, 0 < mass i) {n : ℕ} (hn : n < kept.length) :
    share mass kept (n + 1) - share mass kept n = mass kept[n] / (kept.map mass).sum ∧
      0 ≤ share mass kept n ∧ share mass kept (n + 1) ≤ 1 := by
  have hne : kept ≠ [] := List.ne_nil_of_length_pos (Nat.zero_lt_of_lt hn)
  have hsum := sum_map_pos hmass hne
  have hnonneg : ∀ term ∈ kept.map mass, 0 ≤ term := by
    intro term hterm
    obtain ⟨i, -, rfl⟩ := List.mem_map.mp hterm
    exact (hmass i).le
  have hsum_take (m : ℕ) : share mass kept m =
      partialSum (kept.map mass) m / (kept.map mass).sum := by
    rw [share, partialSum, List.map_take]
  have hlength : (kept.map mass).length = kept.length := List.length_map _
  rw [hsum_take, hsum_take]
  refine ⟨?_, ?_, ?_⟩
  · rw [partialSum_succ (hlength.symm ▸ hn), List.getElem_map, ← sub_div, add_sub_cancel_left]
  · exact div_nonneg (partialSum_mono hnonneg (Nat.zero_le n)) hsum.le
  · rw [div_le_one hsum, ← partialSum_length (kept.map mass)]
    exact partialSum_mono hnonneg (hlength.symm ▸ hn)

/-- The sampler keeps the nucleus of the first candidates by logit. It returns
one of them, without the fallback, and each of them for the draws of one
interval, whose length is the renormalized probability. -/
theorem sampling_law (hsort : SortsDescending sort) (hne : logits ≠ [])
    (henabled : sampling.enabled = true) (htemp : 0 < sampling.temperature) :
    ∃ order kept, ByLogit logits order ∧
      let top := order.take (topCount sampling.topK logits.length)
      let mass := probability logits sampling.temperature top
      Nucleus sampling.topP mass top kept ∧
        (∀ draw, 0 ≤ draw → draw < 1 → ∃ token ∈ kept, token < logits.length ∧
          selectToken (exactPlatform sort) logits sampling draw = some token ∧
          sampleToken (exactPlatform sort) logits sampling draw = token) ∧
        ∀ n (hn : n < kept.length),
          share mass kept (n + 1) - share mass kept n = mass kept[n] / (kept.map mass).sum ∧
            0 ≤ share mass kept n ∧ share mass kept (n + 1) ≤ 1 ∧
            ∀ draw, 0 ≤ draw → draw < 1 →
              (sampleToken (exactPlatform sort) logits sampling draw = kept[n] ↔
                (n = 0 ∨ share mass kept n < draw) ∧ draw ≤ share mass kept (n + 1)) := by
  have hbyLogit := @sortedOrder_byLogit _ logits sort hsort _ htemp
  obtain ⟨kept, hnucleus, hkept, hdistribution⟩ :=
    @keptDistribution_eq _ logits sampling sort hsort hne
  rw [topCandidates_ids hsort] at hnucleus hdistribution
  refine ⟨sortedOrder sort logits sampling.temperature, kept, hbyLogit, hnucleus, ?_⟩
  generalize htop : (sortedOrder sort logits sampling.temperature).take
    (topCount sampling.topK logits.length) = top at hnucleus hdistribution ⊢
  have hsub : kept.Sublist (sortedOrder sort logits sampling.temperature) :=
    hnucleus.front.sublist.trans (htop ▸ List.take_sublist _ _)
  have hnodup : kept.Nodup := hsub.nodup (hbyLogit.perm.nodup_iff.mpr List.nodup_range)
  have hbelow : ∀ token ∈ kept, token < logits.length := fun token htoken =>
    List.mem_range.mp (hbyLogit.perm.mem_iff.mp (hsub.subset htoken))
  have hne' : top ≠ [] := fun h => hkept (List.prefix_nil.mp (h ▸ hnucleus.front))
  have hmass : ∀ i, 0 < probability logits sampling.temperature top i := probability_pos hne'
  have hsampled (draw : ℝ) (hdraw : draw < 1) : ∃ token ∈ kept,
      selectToken (exactPlatform sort) logits sampling draw = some token ∧
        sampleToken (exactPlatform sort) logits sampling draw = token := by
    obtain ⟨token, htoken, hpick⟩ := (select_kept hmass hkept).1 hdraw
    have hselect : selectToken (exactPlatform sort) logits sampling draw = some token := by
      rw [selectToken, hdistribution]
      exact hpick
    have hon : ¬(!sampling.enabled || FloatArith.le sampling.temperature 0) = true := by
      rw [henabled, Bool.not_true, Bool.false_or]
      exact fun hle => absurd (of_decide_eq_true hle) (not_le.mpr htemp)
    refine ⟨token, htoken, hselect, ?_⟩
    rw [sampleToken, if_neg hon, hselect]
    rfl
  refine ⟨fun draw _ hdraw => ?_, fun n hn => ?_⟩
  · obtain ⟨token, htoken, hboth⟩ := hsampled draw hdraw
    exact ⟨token, htoken, hbelow token htoken, hboth⟩
  · obtain ⟨hlength, hlow, hhigh⟩ := share_interval hmass hn
    refine ⟨hlength, hlow, hhigh, fun draw _ hdraw => ?_⟩
    obtain ⟨token, -, hselect, hsample⟩ := hsampled draw hdraw
    rw [← (select_kept hmass hkept).2 hnodup n hn, hsample]
    rw [selectToken, hdistribution] at hselect
    rw [show pickCandidate draw _ 0 = some token from hselect, Option.some.injEq]

end Law

end Exact

section RealExponential

/-- The exponential of the reals. -/
noncomputable scoped instance realExponential : Exponential where
  exp := Real.exp
  exp_pos := Real.exp_pos
  exp_strictMono := Real.exp_strictMono

/-- The comparison of real numbers. -/
theorem weakOrder_real : WeakOrder ℝ where
  asymm _ _ h := decide_eq_false (not_lt.mpr (of_decide_eq_true h).le)
  negTrans _ _ _ hxy hyz := decide_eq_false
    (not_lt.mpr ((not_lt.mp (of_decide_eq_false hyz)).trans (not_lt.mp (of_decide_eq_false hxy))))

/-- A merge sort of real candidates. -/
noncomputable def mergeByLogit (candidates : List (ℕ × ℝ)) : List (ℕ × ℝ) :=
  candidates.mergeSort fun a b => !FloatArith.lt a.2 b.2

/-- Two candidates at temperature one half, cut to the greater half. -/
noncomputable def halfSampling : LlamaSamplingParams ℝ where
  enabled := true
  temperature := 1 / 2
  topK := 2
  topP := 1 / 2
  hasSeed := false
  seed := 0

/-- Three logits, two of them equal. -/
theorem sampling_law_three_logits :
    ∃ order kept, ByLogit [0, 1, 1] order ∧
      let top := order.take (topCount 2 3)
      let mass := probability [0, 1, 1] (1 / 2) top
      Nucleus (1 / 2) mass top kept ∧
        (∀ draw, 0 ≤ draw → draw < 1 → ∃ token ∈ kept, token < 3 ∧
          selectToken (exactPlatform mergeByLogit) [0, 1, 1] halfSampling draw = some token ∧
          sampleToken (exactPlatform mergeByLogit) [0, 1, 1] halfSampling draw = token) ∧
        ∀ n (hn : n < kept.length),
          share mass kept (n + 1) - share mass kept n = mass kept[n] / (kept.map mass).sum ∧
            0 ≤ share mass kept n ∧ share mass kept (n + 1) ≤ 1 ∧
            ∀ draw, 0 ≤ draw → draw < 1 →
              (sampleToken (exactPlatform mergeByLogit) [0, 1, 1] halfSampling draw = kept[n] ↔
                (n = 0 ∨ share mass kept n < draw) ∧ draw ≤ share mass kept (n + 1)) := by
  have htemp : 0 < halfSampling.temperature := by
    norm_num [halfSampling]
  exact sampling_law (sortsDescending_mergeSort weakOrder_real) (List.cons_ne_nil _ _) rfl htemp

end RealExponential

end LayerInference.ExactSampling
