import LayerInference.StridedViews
import LayerInference.TransposedCache
import Mathlib.Analysis.Real.Sqrt
import Mathlib.Analysis.SpecialFunctions.Exp

/-!
# Two ways to compute attention

The scalar path sums over the cached rows; the kernel path is one graph of
products over views of the cache. Over the real numbers, with kernels that do
what they are defined to do, both give the average of the values weighted by
the exponentials of the scores, for every query head with the key-value head
of its group. The kernel path reads the transposed copy, which agrees with the
values after every call.
-/

namespace LayerInference.AttentionViews

open ByteStrings FallibleRuns FlatVectors FloatArithmetic CpuExecutor CacheGrowth StridedViews
  TransposedCache

section Graph

variable {R : Type} [FloatArith R] [Kernels R]

/-- The tensors of the kernel path, with the extents and strides of the source. -/
def attentionGraph (hp : LlamaExecutorHyperparams R) (q kSrc vTSrc : List R)
    (vCapacity requiredSeq : ℕ) : View R :=
  let kvDim := hp.nHeadKv * hp.headDim
  let groups := hp.nHead / hp.nHeadKv
  let qT := View.contiguous q hp.headDim groups hp.nHeadKv
  let kT : View R :=
    { data := kSrc, ne0 := hp.headDim, ne1 := requiredSeq, ne2 := hp.nHeadKv
      nb0 := 1, nb1 := kvDim, nb2 := hp.headDim }
  let vT : View R :=
    { data := vTSrc, ne0 := requiredSeq, ne1 := hp.headDim, ne2 := hp.nHeadKv
      nb0 := 1, nb1 := vCapacity, nb2 := vCapacity * hp.headDim }
  let scores := (kT.mulMat qT).scale (1 / Kernels.sqrt (FloatArith.ofInt hp.headDim))
  vT.mulMat scores.softMax

variable {hp : LlamaExecutorHyperparams R}

/-- The graph computes what the sections of the buffers say. -/
theorem attentionGraph_data (hsoft : ∀ xs : List R, (Kernels.softMax xs).length = xs.length)
    {q kSrc vTSrc : List R} {vCapacity requiredSeq : ℕ}
    (hq : q.length = hp.headDim * (hp.nHead / hp.nHeadKv) * hp.nHeadKv)
    (hk : requiredSeq * (hp.nHeadKv * hp.headDim) ≤ kSrc.length)
    (hv : vTSrc.length = vCapacity * (hp.nHeadKv * hp.headDim)) (hcap : requiredSeq ≤ vCapacity) :
    (attentionGraph hp q kSrc vTSrc vCapacity requiredSeq).data =
      computeAttentionGgmlViews hp q kSrc vTSrc vCapacity requiredSeq := by
  have hkT (pos kvh : ℕ) (hpos : pos < requiredSeq) (hkvh : kvh < hp.nHeadKv) :
      (⟨kSrc, hp.headDim, requiredSeq, hp.nHeadKv, 1, hp.nHeadKv * hp.headDim, hp.headDim⟩ :
        View R).row pos kvh =
        slice kSrc (pos * (hp.nHeadKv * hp.headDim) + kvh * hp.headDim) hp.headDim := by
    have hfits : pos * (hp.nHeadKv * hp.headDim) + kvh * hp.headDim + hp.headDim ≤
        kSrc.length := by
      have hrow := Nat.mul_le_mul_right (hp.nHeadKv * hp.headDim) (Nat.succ_le_of_lt hpos)
      have hhead := Nat.mul_le_mul_right hp.headDim (Nat.succ_le_of_lt hkvh)
      rw [Nat.succ_mul] at hrow hhead
      omega
    rw [slice_eq_map hfits 0]
    refine List.map_congr_left fun d _ => ?_
    simp only [View.get, Nat.mul_one]
    rw [Nat.add_comm d, Nat.add_right_comm]
  have hvT (d kvh : ℕ) (hd : d < hp.headDim) (hkvh : kvh < hp.nHeadKv) :
      (⟨vTSrc, requiredSeq, hp.headDim, hp.nHeadKv, 1, vCapacity, vCapacity * hp.headDim⟩ :
        View R).row d kvh =
        slice vTSrc (vCapacity * d + vCapacity * hp.headDim * kvh) requiredSeq := by
    have hfits : vCapacity * d + vCapacity * hp.headDim * kvh + requiredSeq ≤ vTSrc.length := by
      have hcolumn := column_le vCapacity hkvh hd
      omega
    rw [slice_eq_map hfits 0]
    refine List.map_congr_left fun pos _ => ?_
    simp only [View.get, Nat.mul_one]
    rw [Nat.mul_comm d, Nat.mul_comm kvh, Nat.add_assoc, Nat.add_comm pos]
  unfold attentionGraph computeAttentionGgmlViews
  refine List.flatMap_congr fun kvh hkvh => List.flatMap_congr fun g hg => ?_
  have hkvh' : kvh < hp.nHeadKv := List.mem_range.mp hkvh
  have hg' : g < hp.nHead / hp.nHeadKv := List.mem_range.mp hg
  refine List.map_congr_left fun d hd => ?_
  rw [hvT d kvh (List.mem_range.mp hd) hkvh', View.softMax_row hsoft _ hg' hkvh',
    View.scale_row _ _ hg' hkvh', View.mulMat_row _ _ hg' hkvh', List.map_map]
  refine congrArg (fun scores : List R => Kernels.vecDot
    (slice vTSrc (vCapacity * d + vCapacity * hp.headDim * kvh) requiredSeq)
    (Kernels.softMax scores)) ?_
  refine List.map_congr_left fun pos hpos => ?_
  rw [Function.comp_apply, hkT pos kvh (List.mem_range.mp hpos) hkvh',
    View.contiguous_row hq hg' hkvh']

end Graph

section Reals

/-- Exact arithmetic. -/
noncomputable instance : FloatArith ℝ where
  lt x y := decide (x < y)
  le x y := decide (x ≤ y)
  exp := Real.exp
  ofInt n := n

/-- The kernels do what they are defined to do. The root and the start value
of a maximum may be any numbers. -/
structure ExactKernels [Kernels ℝ] : Prop where
  vecDot_eq : ∀ xs ys : List ℝ, Kernels.vecDot xs ys = (List.zipWith (· * ·) xs ys).sum
  softMax_eq : ∀ xs : List ℝ,
    Kernels.softMax xs = xs.map fun x => Real.exp x / (xs.map Real.exp).sum

variable {hp : LlamaExecutorHyperparams ℝ}

/-- A running sum is the sum. -/
theorem foldl_add_eq_sum {ι : Type} (xs : List ι) (f : ι → ℝ) (start : ℝ) :
    xs.foldl (fun sum x => sum + f x) start = start + (xs.map f).sum := by
  induction xs generalizing start with
  | nil => simp only [List.foldl_nil, List.map_nil, List.sum_nil, add_zero]
  | cons x xs ih => rw [List.foldl_cons, ih, List.map_cons, List.sum_cons, add_assoc]

/-- Shifting all scores leaves the softmax weights as they are. -/
theorem softmax_shift (scores : List ℝ) (shift score : ℝ) :
    Real.exp (score - shift) / (scores.map fun s => Real.exp (s - shift)).sum =
      Real.exp score / (scores.map Real.exp).sum := by
  have hsum : (scores.map fun s => Real.exp (s - shift)).sum =
      (scores.map Real.exp).sum * (Real.exp shift)⁻¹ := by
    simp only [Real.exp_sub, div_eq_mul_inv]
    rw [List.sum_map_mul_right]
  rw [hsum, Real.exp_sub, div_eq_mul_inv (Real.exp score),
    mul_div_mul_right _ _ (inv_ne_zero (Real.exp_ne_zero _))]

theorem sum_exp_pos {scores : List ℝ} (hne : scores ≠ []) : 0 < (scores.map Real.exp).sum := by
  refine List.sum_pos _ (fun x hx => ?_) (fun h => hne (List.map_eq_nil_iff.mp h))
  obtain ⟨score, -, rfl⟩ := List.mem_map.mp hx
  exact Real.exp_pos score

variable [Kernels ℝ]

/-- The score of a position for a query head. -/
noncomputable def headScore (hp : LlamaExecutorHyperparams ℝ) (q kCache : List ℝ) (qh pos : ℕ) :
    ℝ :=
  ((List.range hp.headDim).map fun d =>
    q.getD (qh * hp.headDim + d) 0 *
      kCache.getD (cell hp pos (qh / (hp.nHead / hp.nHeadKv)) d) 0).sum *
    (1 / Kernels.sqrt (FloatArith.ofInt hp.headDim))

/-- A component of the output of a query head: the values of its key-value
head, weighted by the softmax of the scores. -/
noncomputable def headValue (hp : LlamaExecutorHyperparams ℝ) (q kCache vCache : List ℝ)
    (requiredSeq qh d : ℕ) : ℝ :=
  ((List.range requiredSeq).map fun pos =>
    Real.exp (headScore hp q kCache qh pos) /
        (((List.range requiredSeq).map fun pos => headScore hp q kCache qh pos).map Real.exp).sum *
      vCache.getD (cell hp pos (qh / (hp.nHead / hp.nHeadKv)) d) 0).sum

/-- The scalar path computes the weighted values. -/
theorem headContext_eq (q kCache vCache : List ℝ) {requiredSeq : ℕ} (hseq : 0 < requiredSeq)
    (qh : ℕ) : headContext hp q kCache vCache requiredSeq qh =
      .ok ((List.range hp.headDim).map (headValue hp q kCache vCache requiredSeq qh)) := by
  have hscores : ((List.range requiredSeq).map fun pos =>
      (List.range hp.headDim).foldl (fun dot d =>
        dot + q.getD (qh * hp.headDim + d) 0 *
          kCache.getD (pos * (hp.nHeadKv * hp.headDim) +
            qh / (hp.nHead / hp.nHeadKv) * hp.headDim + d) 0) 0 *
        (1 / Kernels.sqrt (FloatArith.ofInt hp.headDim))) =
      (List.range requiredSeq).map (headScore hp q kCache qh) := by
    refine List.map_congr_left fun pos _ => ?_
    rw [foldl_add_eq_sum, zero_add]
    rfl
  unfold headContext
  dsimp only
  rw [hscores]
  generalize ((List.range requiredSeq).map (headScore hp q kCache qh)).foldl (fun best score =>
    if FloatArith.lt best score then score else best) Kernels.negInf = shift
  have hne : (List.range requiredSeq).map (headScore hp q kCache qh) ≠ [] := by
    intro h
    have hzero := congrArg List.length h
    rw [List.length_map, List.length_range, List.length_nil] at hzero
    omega
  have hdenom : (((List.range requiredSeq).map (headScore hp q kCache qh)).map fun score =>
      FloatArith.exp (score - shift)).foldl (· + ·) 0 =
      (((List.range requiredSeq).map (headScore hp q kCache qh)).map fun score =>
        Real.exp (score - shift)).sum := by
    have hfold := foldl_add_eq_sum (((List.range requiredSeq).map (headScore hp q kCache qh)).map
      fun score => Real.exp (score - shift)) id 0
    rw [List.map_id, zero_add] at hfold
    exact hfold
  have hpos : 0 < (((List.range requiredSeq).map (headScore hp q kCache qh)).map fun score =>
      Real.exp (score - shift)).sum := by
    have hshifted : ((List.range requiredSeq).map (headScore hp q kCache qh)).map
        (· - shift) ≠ [] := fun h => hne (List.map_eq_nil_iff.mp h)
    have h := sum_exp_pos hshifted
    rwa [List.map_map] at h
  rw [hdenom]
  have hle : FloatArith.le (((List.range requiredSeq).map (headScore hp q kCache qh)).map
      fun score => Real.exp (score - shift)).sum 0 = false := decide_eq_false (not_le.mpr hpos)
  rw [hle]
  refine congrArg Except.ok (List.map_congr_left fun d _ => ?_)
  rw [foldl_add_eq_sum, zero_add]
  refine congrArg List.sum (List.map_congr_left fun pos hpos => ?_)
  have hlt := List.mem_range.mp hpos
  have hbound : pos < (((List.range requiredSeq).map (headScore hp q kCache qh)).map fun score =>
      FloatArith.exp (score - shift)).length := by
    rw [List.length_map, List.length_map, List.length_range]
    exact hlt
  rw [← softmax_shift _ shift, List.getD_eq_getElem _ _ hbound]
  simp only [List.getElem_map, List.getElem_range]
  rfl

/-- All heads of the scalar path. -/
theorem computeAttentionScalar_eq (q kCache vCache : List ℝ) {requiredSeq : ℕ}
    (hseq : 0 < requiredSeq) : computeAttentionScalar hp q kCache vCache requiredSeq =
      .ok ((List.range hp.nHead).flatMap fun qh =>
        (List.range hp.headDim).map (headValue hp q kCache vCache requiredSeq qh)) := by
  have hheads := mapM_ok (l := List.range hp.nHead)
    (f := headContext hp q kCache vCache requiredSeq)
    (g := fun qh => (List.range hp.headDim).map (headValue hp q kCache vCache requiredSeq qh))
    fun qh _ => headContext_eq q kCache vCache hseq qh
  rw [computeAttentionScalar, hheads]
  rfl

omit [Kernels ℝ] in
/-- The query heads, group by group. -/
theorem range_mul_flatMap {α : Type} (n groups : ℕ) (f : ℕ → List α) :
    (List.range (n * groups)).flatMap f =
      (List.range n).flatMap fun kvh => (List.range groups).flatMap fun g => f (kvh * groups + g) := by
  induction n with
  | zero => rw [Nat.zero_mul, List.range_zero, List.flatMap_nil, List.flatMap_nil]
  | succ n ih =>
    rw [Nat.succ_mul, List.range_add, List.flatMap_append, ih, List.range_succ,
      List.flatMap_append, List.flatMap_map, List.flatMap_singleton]

/-- The inner product of two sections. -/
theorem vecDot_slices (hexact : ExactKernels) {xs ys : List ℝ} {i j width : ℕ}
    (hx : i + width ≤ xs.length) (hy : j + width ≤ ys.length) :
    Kernels.vecDot (slice xs i width) (slice ys j width) =
      ((List.range width).map fun d => ys.getD (j + d) 0 * xs.getD (i + d) 0).sum := by
  rw [hexact.vecDot_eq, slice_eq_map hx 0, slice_eq_map hy 0, List.zipWith_map, List.zipWith_self]
  refine congrArg List.sum (List.map_congr_left fun d _ => ?_)
  exact mul_comm _ _

/-- The kernel path computes the weighted values, on a copy that agrees with
the values. -/
theorem computeAttentionGgmlViews_eq (hexact : ExactKernels) {cache : LayerKvCache ℝ}
    (hcache : Transposed hp cache) (hheads : hp.nHead % hp.nHeadKv = 0) {q : List ℝ}
    (hq : q.length = hp.nHead * hp.headDim) {requiredSeq : ℕ}
    (hseq : requiredSeq ≤ cache.seqLen) :
    computeAttentionGgmlViews hp q cache.k cache.vT cache.vTCapacity requiredSeq =
      (List.range hp.nHead).flatMap fun qh =>
        (List.range hp.headDim).map (headValue hp q cache.k cache.v requiredSeq qh) := by
  have hgroups : hp.nHead = hp.nHeadKv * (hp.nHead / hp.nHeadKv) :=
    (Nat.mul_div_cancel' (Nat.dvd_of_mod_eq_zero hheads)).symm
  conv_rhs => rw [hgroups]
  rw [range_mul_flatMap]
  unfold computeAttentionGgmlViews
  dsimp only
  refine List.flatMap_congr fun kvh hkvh => List.flatMap_congr fun g hg => ?_
  have hkvh' : kvh < hp.nHeadKv := List.mem_range.mp hkvh
  have hg' : g < hp.nHead / hp.nHeadKv := List.mem_range.mp hg
  have hhead : (kvh * (hp.nHead / hp.nHeadKv) + g) / (hp.nHead / hp.nHeadKv) = kvh := by
    rw [Nat.mul_comm, Nat.mul_add_div (by omega), Nat.div_eq_of_lt hg', Nat.add_zero]
  refine List.map_congr_left fun d hd => ?_
  have hd' : d < hp.headDim := List.mem_range.mp hd
  have hscores : ((List.range requiredSeq).map fun pos =>
      Kernels.vecDot (slice cache.k (pos * (hp.nHeadKv * hp.headDim) + kvh * hp.headDim) hp.headDim)
        (slice q ((kvh * (hp.nHead / hp.nHeadKv) + g) * hp.headDim) hp.headDim) *
          (1 / Kernels.sqrt (FloatArith.ofInt hp.headDim))) =
      (List.range requiredSeq).map
        (headScore hp q cache.k (kvh * (hp.nHead / hp.nHeadKv) + g)) := by
    refine List.map_congr_left fun pos hpos => ?_
    have hpos' : pos < cache.seqLen := lt_of_lt_of_le (List.mem_range.mp hpos) hseq
    have hkeys : pos * (hp.nHeadKv * hp.headDim) + kvh * hp.headDim + hp.headDim ≤
        cache.k.length := by
      have hrow := Nat.mul_le_mul_right (hp.nHeadKv * hp.headDim) (Nat.succ_le_of_lt hpos')
      have hcolumn := Nat.mul_le_mul_right hp.headDim (Nat.succ_le_of_lt hkvh')
      rw [Nat.succ_mul] at hrow hcolumn
      rw [hcache.filled.keys]
      omega
    have hquery : (kvh * (hp.nHead / hp.nHeadKv) + g) * hp.headDim + hp.headDim ≤ q.length := by
      have hlast : kvh * (hp.nHead / hp.nHeadKv) + g + 1 ≤ hp.nHead := by
        have hgroup := Nat.mul_le_mul_right (hp.nHead / hp.nHeadKv) (Nat.succ_le_of_lt hkvh')
        rw [Nat.succ_mul, ← hgroups] at hgroup
        omega
      rw [hq, ← Nat.succ_mul]
      exact Nat.mul_le_mul_right _ hlast
    rw [vecDot_slices hexact hkeys hquery]
    simp only [headScore, hhead, cell]
  have hvalues : cache.vTCapacity * d + cache.vTCapacity * hp.headDim * kvh + requiredSeq ≤ cache.vT.length := by
    have hcolumn := column_le cache.vTCapacity hkvh' hd'
    have hcapacity := hcache.capacity
    rw [hcache.length]
    omega
  rw [hscores, hexact.softMax_eq, hexact.vecDot_eq, slice_eq_map hvalues 0, List.map_map,
    List.zipWith_map, List.zipWith_self]
  refine congrArg List.sum (List.map_congr_left fun pos hpos => ?_)
  have hlt := List.mem_range.mp hpos
  have hcopy := hcache.layout pos (by omega) kvh hkvh' d hd'
  rw [slot, Nat.add_assoc, Nat.add_comm] at hcopy
  rw [hcopy, hhead, mul_comm]
  rfl

/-- A call of attention on the cache of one layer. -/
structure AttentionCall (R : Type) where
  q : List R
  k : List R
  v : List R
  position : ℕ

/-- The cache that a call leaves; a refused call leaves it as it was. -/
noncomputable def cacheAfter (context : ExecutorContext ℝ) (cache : LayerKvCache ℝ)
    (call : AttentionCall ℝ) : LayerKvCache ℝ :=
  finalState (attentionOnCache context call.q call.k call.v call.position cache)

/-- A call with a query, a key and a value of the right size. -/
structure Sized (hp : LlamaExecutorHyperparams ℝ) (call : AttentionCall ℝ) : Prop where
  query : call.q.length = hp.nHead * hp.headDim
  key : call.k.length = hp.nHeadKv * hp.headDim
  value : call.v.length = hp.nHeadKv * hp.headDim

variable {context : ExecutorContext ℝ}

/-- One call on the kernel path. -/
theorem attentionOnCache_views (hggml : context.attentionBackendIsGgml = true)
    {call : AttentionCall ℝ} (hsized : Sized context.hp call) (cache : LayerKvCache ℝ) :
    let after := (cache.store (context.hp.nHeadKv * context.hp.headDim) call.position call.k
      call.v).transpose context.hp call.position call.v
    attentionOnCache context call.q call.k call.v call.position cache =
      .ok (computeAttentionGgmlViews context.hp call.q after.k after.vT after.vTCapacity
        (call.position + 1)) after := by
  unfold attentionOnCache
  dsimp only
  rw [if_neg (not_not.mpr hsized.query),
    if_neg (not_or.mpr ⟨not_not.mpr hsized.key, not_not.mpr hsized.value⟩), if_pos hggml]

/-- Every call keeps the copy in agreement with the values. -/
theorem transposed_cacheAfter (hggml : context.attentionBackendIsGgml = true)
    {cache : LayerKvCache ℝ} (hcache : Transposed context.hp cache) (call : AttentionCall ℝ) :
    Transposed context.hp (cacheAfter context cache call) := by
  by_cases hsized : Sized context.hp call
  · rw [cacheAfter, attentionOnCache_views hggml hsized]
    exact transposed_step hcache call.position hsized.key hsized.value
  · have hrefused : cacheAfter context cache call = cache := by
      unfold cacheAfter attentionOnCache
      dsimp only
      by_cases hq : call.q.length ≠ context.hp.nHead * context.hp.headDim
      · rw [if_pos hq]
        rfl
      · rw [if_neg hq]
        by_cases hkv : call.k.length ≠ context.hp.nHeadKv * context.hp.headDim ∨
            call.v.length ≠ context.hp.nHeadKv * context.hp.headDim
        · rw [if_pos hkv]
          rfl
        · rw [not_or] at hkv
          exact absurd ⟨not_not.mp hq, not_not.mp hkv.1, not_not.mp hkv.2⟩ hsized
    rwa [hrefused]

theorem transposed_afterCalls (hggml : context.attentionBackendIsGgml = true)
    (calls : List (AttentionCall ℝ)) {cache : LayerKvCache ℝ}
    (hcache : Transposed context.hp cache) :
    Transposed context.hp (calls.foldl (cacheAfter context) cache) := by
  induction calls generalizing cache with
  | nil => exact hcache
  | cons call calls ih => exact ih (transposed_cacheAfter hggml hcache call)

/-- After any calls the copy agrees with the values, and the next call returns
on the kernel path what the scalar path returns on the same cache. -/
theorem views_equal_scalar (hexact : ExactKernels) (hggml : context.attentionBackendIsGgml = true)
    (hheads : context.hp.nHead % context.hp.nHeadKv = 0) (calls : List (AttentionCall ℝ))
    (call : AttentionCall ℝ) (hsized : Sized context.hp call) :
    ∃ out after, attentionOnCache context call.q call.k call.v call.position
        (calls.foldl (cacheAfter context) {}) = .ok out after ∧
      Transposed context.hp after ∧
      computeAttentionScalar context.hp call.q after.k after.v (call.position + 1) = .ok out := by
  have hbefore := transposed_afterCalls hggml calls (transposed_empty context.hp)
  have hafter := transposed_step hbefore call.position hsized.key hsized.value
  refine ⟨_, _, attentionOnCache_views hggml hsized _, hafter, ?_⟩
  have hseq : call.position + 1 ≤ (((calls.foldl (cacheAfter context) {}).store
      (context.hp.nHeadKv * context.hp.headDim) call.position call.k call.v).transpose context.hp
      call.position call.v).seqLen := by
    rw [(transpose_rows _ _ _ _).1,
      (grown_store _ call.position hsized.key hsized.value).seqLen]
    exact le_max_right _ _
  rw [computeAttentionScalar_eq _ _ _ (Nat.succ_pos _),
    computeAttentionGgmlViews_eq hexact hafter hheads hsized.query hseq]

end Reals

section Exact

/-- The kernels over the reals. No number is below all others; the maximum
starts at zero instead. -/
noncomputable instance : Kernels ℝ where
  sqrt := Real.sqrt
  negInf := 0
  vecDot xs ys := (List.zipWith (· * ·) xs ys).sum
  softMax xs := xs.map fun x => Real.exp x / (xs.map Real.exp).sum

theorem exactKernels : ExactKernels where
  vecDot_eq _ _ := rfl
  softMax_eq _ := rfl

/-- Two query heads on one key-value head. -/
def groupedContext : ExecutorContext ℝ where
  tensorContext _ := none
  hp :=
    { hiddenSize := 2, ffnSize := 1, nHead := 2, nHeadKv := 1, headDim := 1, vocabSize := 2
      rmsEps := 0, ropeTheta := 1 }
  attentionBackendIsGgml := true

/-- A jump to position twenty, then a call back at position three. -/
theorem views_equal_scalar_after_jump :
    ∃ out after, attentionOnCache groupedContext [1, 2] [3] [4] 3
        ([⟨[1, 1], [1], [1], 20⟩].foldl (cacheAfter groupedContext) {}) = .ok out after ∧
      Transposed groupedContext.hp after ∧
      computeAttentionScalar groupedContext.hp [1, 2] after.k after.v 4 = .ok out :=
  views_equal_scalar exactKernels rfl rfl [⟨[1, 1], [1], [1], 20⟩] ⟨[1, 2], [3], [4], 3⟩
    ⟨rfl, rfl, rfl⟩

end Exact

end LayerInference.AttentionViews
