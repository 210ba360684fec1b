import LayerInference.PartitionExecution

/-!
# Sampling a token

The sampler takes two things from the platform: the conversion to double
precision and the sort. What it computes is stated here for any arithmetic,
step by step: the scaled candidates, the cut to the first ones, the softmax
weights, the cut to the nucleus, and the token for one draw. The sampler of a
terminal partition is this function at the draw of its engine.
-/

namespace LayerInference.Sampling

open FallibleRuns FloatArithmetic CpuExecutor PartitionExecution

variable {F D G : Type} [FloatArith F] [FloatArith D]

/-- What the sampler takes from the platform. -/
structure SamplerPlatform (F D : Type) where
  toDouble : F → D
  /-- Candidates in descending order of their second component. -/
  sort : List (ℕ × F) → List (ℕ × F)

/-- The candidates with their scaled logits, in the order of their index. -/
def scaledCandidates (logits : List F) (temperature : F) : List (ℕ × F) :=
  let invTemperature := 1 / temperature
  logits.zipIdx.map fun item => (item.2, item.1 * invTemperature)

/-- The candidates that the cut to the first `top_k` keeps. -/
def topCandidates (sort : List (ℕ × F) → List (ℕ × F)) (logits : List F)
    (sampling : LlamaSamplingParams F) : List (ℕ × F) :=
  let candidates := sort (scaledCandidates logits sampling.temperature)
  if 0 < sampling.topK ∧ sampling.topK < candidates.length then
    candidates.take sampling.topK.toNat
  else candidates

/-- The softmax weights, relative to the greatest logit. -/
def softmaxWeights (toDouble : F → D) (candidates : List (ℕ × F)) : List D :=
  let maxLogit := (candidates.headD (0, 0)).2
  candidates.map fun c => FloatArith.exp (toDouble (c.2 - maxLogit))

def probabilities (toDouble : F → D) (candidates : List (ℕ × F)) : List D :=
  let weights := softmaxWeights toDouble candidates
  let sumExp := weights.foldl (· + ·) 0
  weights.map (· / sumExp)

/-- The kept candidates with their renormalized probabilities. -/
def keptDistribution (platform : SamplerPlatform F D) (logits : List F)
    (sampling : LlamaSamplingParams F) : List (ℕ × D) :=
  let candidates := topCandidates platform.sort logits sampling
  let probs := probabilities platform.toDouble candidates
  if FloatArith.lt sampling.topP 1 && FloatArith.lt 0 sampling.topP then
    let cutoff := (nucleusCutoff (platform.toDouble sampling.topP) probs 0 0).getD probs.length
    let renorm := (probs.take cutoff).foldl (· + ·) 0
    let probs := if FloatArith.lt 0 renorm then probs.map (· / renorm) else probs
    ((candidates.map Prod.fst).zip probs).take cutoff
  else (candidates.map Prod.fst).zip probs

/-- The token that the selection loop returns, if it returns one. -/
def selectToken (platform : SamplerPlatform F D) (logits : List F)
    (sampling : LlamaSamplingParams F) (draw : D) : Option ℕ :=
  pickCandidate draw (keptDistribution platform logits sampling) 0

/-- The token for one draw, with the fallback behind the loop. -/
def sampleToken (platform : SamplerPlatform F D) (logits : List F)
    (sampling : LlamaSamplingParams F) (draw : D) : ℕ :=
  if !sampling.enabled || FloatArith.le sampling.temperature 0 then greedyToken logits
  else
    (selectToken platform logits sampling draw).getD
      ((keptDistribution platform logits sampling).headD (0, 0)).1

/-- The platform of an executor. -/
def executorPlatform [Numerics F D G] : SamplerPlatform F D where
  toDouble := Numerics.toDouble
  sort := Numerics.sortByLogit

/-- The sampler of the executor is the token at the draw of its engine. -/
theorem sampleFromLogits_eq [Numerics F D G] {hp : LlamaExecutorHyperparams F} (logits : List F)
    (sampling : LlamaSamplingParams F) (s : LlamaCpuExecutor hp) :
    ∃ s', (sampleFromLogits logits sampling : ExecM hp ℕ) s =
      .ok (sampleToken executorPlatform logits sampling (Numerics.uniform F s.rng).1) s' := by
  unfold sampleFromLogits sampleToken
  split
  · exact ⟨s, rfl⟩
  · exact ⟨_, rfl⟩

/-- The sort returns its input in an order that the comparator allows. -/
structure SortsDescending (sort : List (ℕ × F) → List (ℕ × F)) : Prop where
  perm : ∀ candidates, (sort candidates).Perm candidates
  ordered : ∀ candidates, (sort candidates).Pairwise fun a b => FloatArith.lt a.2 b.2 = false

/-- The comparison of the numbers that occur: no two of them are each less than
the other, and not being less is transitive. -/
structure WeakOrder (F : Type) [FloatArith F] : Prop where
  asymm : ∀ x y : F, FloatArith.lt x y = true → FloatArith.lt y x = false
  negTrans : ∀ x y z : F, FloatArith.lt x y = false → FloatArith.lt y z = false →
    FloatArith.lt x z = false

theorem WeakOrder.irrefl (h : WeakOrder F) (x : F) : FloatArith.lt x x = false := by
  cases hxx : FloatArith.lt x x with
  | false => rfl
  | true => exact hxx.symm.trans (h.asymm x x hxx)

/-- A merge sort is a possible sort. -/
theorem sortsDescending_mergeSort (h : WeakOrder F) : SortsDescending fun candidates =>
    (candidates : List (ℕ × F)).mergeSort fun a b => !FloatArith.lt a.2 b.2 where
  perm candidates := List.mergeSort_perm candidates _
  ordered candidates := by
    refine (List.pairwise_mergeSort (fun a b c hab hbc => ?_) (fun a b => ?_) candidates).imp
      fun hab => by simpa using hab
    · simp only [Bool.not_eq_true'] at hab hbc ⊢
      exact h.negTrans a.2 b.2 c.2 hab hbc
    · cases hab : FloatArith.lt a.2 b.2 with
      | false => rfl
      | true => simpa using h.asymm a.2 b.2 hab

theorem scaledCandidates_length (logits : List F) (temperature : F) :
    (scaledCandidates logits temperature).length = logits.length := by
  rw [scaledCandidates, List.length_map, List.length_zipIdx]

/-- The candidates are the indices with their scaled logits. -/
theorem mem_scaledCandidates {logits : List F} {temperature : F} {c : ℕ × F} :
    c ∈ scaledCandidates logits temperature ↔
      ∃ h : c.1 < logits.length, c.2 = logits[c.1] * (1 / temperature) := by
  rw [scaledCandidates, List.mem_map]
  constructor
  · rintro ⟨item, hitem, rfl⟩
    obtain ⟨hlt, hvalue⟩ := List.mem_zipIdx' hitem
    exact ⟨hlt, by rw [hvalue]⟩
  · rintro ⟨h, hvalue⟩
    refine ⟨(logits[c.1], c.1), ?_, Prod.ext rfl hvalue.symm⟩
    rw [List.mk_mem_zipIdx_iff_getElem?, List.getElem?_eq_getElem h]

theorem scaledCandidates_ids (logits : List F) (temperature : F) :
    (scaledCandidates logits temperature).map Prod.fst = List.range logits.length := by
  rw [scaledCandidates, List.map_map, List.range_eq_range']
  exact List.zipIdx_map_snd 0 logits

end LayerInference.Sampling
