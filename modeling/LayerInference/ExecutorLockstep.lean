import LayerInference.PartitionExecution

/-!
# What running layers depends on

Running a list of layers reads and writes the caches of exactly these layers.
The random engine is not touched, and the rotation table is the same whether
it was filled before or not. So two executors that agree on the caches of the
layers run in lockstep, also over different shards, as long as both shards hold
the same tensors for these layers.
-/

namespace LayerInference.ExecutorLockstep

open ByteStrings FallibleRuns FlatVectors FloatArithmetic CpuExecutor PartitionExecution

variable {F D G : Type} [FloatArith F] [FloatArith D] [Numerics F D G]

/-- Agreement on the caches of the layers `P`, and on the engine if asked for. -/
structure AgreeOn (P : ℤ → Prop) (engine : Prop) {hp : LlamaExecutorHyperparams F}
    (s t : LlamaCpuExecutor hp) : Prop where
  layers : ∀ layerId, P layerId → s.layerCache layerId = t.layerCache layerId
  rng : engine → s.rng = t.rng

/-- The tensors that running one layer asks for. -/
def layerTensors : List Bytes :=
  [ascii "attn_norm.weight", ascii "ffn_norm.weight", ascii "attn_q.weight",
    ascii "attn_k.weight", ascii "attn_v.weight", ascii "attn_output.weight",
    ascii "ffn_gate.weight", ascii "ffn_up.weight", ascii "ffn_down.weight"]

/-- Two shards hold the same tensors for the layers `P`. -/
def SameLayerTensors (P : ℤ → Prop) (tensors tensors' : TensorContext F) : Prop :=
  ∀ layerId, P layerId → ∀ suffix ∈ layerTensors,
    tensors (layerPrefix layerId ++ suffix) = tensors' (layerPrefix layerId ++ suffix)

omit [FloatArith F] in
theorem matvec_congr {tensors tensors' : TensorContext F} {name : Bytes}
    (h : tensors name = tensors' name) (x : List F) :
    matvec tensors name x = matvec tensors' name x := by
  simp only [matvec, requireTensor, h]

omit [FloatArith F] in
theorem tensorVectorToFloat_congr {tensors tensors' : TensorContext F} {name : Bytes}
    (h : tensors name = tensors' name) (expectedSize : ℕ) :
    tensorVectorToFloat tensors name expectedSize =
      tensorVectorToFloat tensors' name expectedSize := by
  simp only [tensorVectorToFloat, requireTensor, h]

section Lockstep

variable {P : ℤ → Prop} {engine : Prop}

/-- The table is filled with the same frequencies on both sides. -/
theorem lockstep_applyRope {hp : LlamaExecutorHyperparams F} (q k : List F) (position : ℕ) :
    Lockstep (AgreeOn P engine) (applyRope q k position : ExecM hp _) (applyRope q k position)
      (AgreeOn P engine) := by
  intro s t hst
  simp only [applyRope, RopeTable.ensure_invFreq]
  exact ⟨rfl, hst.layers, hst.rng⟩

theorem lockstep_attention (context : ExecutorContext F) (tensors : TensorContext F)
    {layerId : ℤ} (hP : P layerId) (q k v : List F) (position : ℕ) :
    Lockstep (AgreeOn P engine) (attention context layerId q k v position)
      (attention { context with tensorContext := tensors } layerId q k v position)
      (AgreeOn P engine) := by
  refine lockstep_onPart (fun s t hst => hst.layers layerId hP) fun s t cache hst => ⟨?_, hst.rng⟩
  intro l hl
  by_cases hlayer : l = layerId
  · simp only [LlamaCpuExecutor.setLayer, hlayer, Function.update_self]
  · simp only [LlamaCpuExecutor.setLayer, Function.update_of_ne hlayer]
    exact hst.layers l hl

theorem lockstep_runRow (context : ExecutorContext F) {tensors : TensorContext F}
    (htensors : SameLayerTensors P context.tensorContext tensors) {layerId : ℤ} (hP : P layerId)
    (attnNormWeight ffnNormWeight x : List F) (position : ℕ) :
    Lockstep (AgreeOn P engine) (runRow context layerId attnNormWeight ffnNormWeight x position)
      (runRow { context with tensorContext := tensors } layerId attnNormWeight ffnNormWeight x
        position) (AgreeOn P engine) := by
  have hmatvec (suffix : Bytes) (hs : suffix ∈ layerTensors) (x : List F) :=
    matvec_congr (htensors layerId hP suffix hs) x
  unfold runRow
  dsimp only
  refine lockstep_bind lockstep_stateless fun xn => ?_
  rw [hmatvec _ (by decide)]
  refine lockstep_bind lockstep_stateless fun q => ?_
  rw [hmatvec _ (by decide)]
  refine lockstep_bind lockstep_stateless fun k => ?_
  rw [hmatvec _ (by decide)]
  refine lockstep_bind lockstep_stateless fun v => ?_
  refine lockstep_bind (lockstep_applyRope q k position) fun rotated => ?_
  refine lockstep_bind (lockstep_attention context tensors hP _ _ v position) fun ctx => ?_
  rw [hmatvec _ (by decide)]
  refine lockstep_bind lockstep_stateless fun attnOut => ?_
  refine lockstep_bind lockstep_stateless fun fn => ?_
  rw [hmatvec _ (by decide)]
  refine lockstep_bind lockstep_stateless fun gate => ?_
  rw [hmatvec _ (by decide)]
  refine lockstep_bind lockstep_stateless fun up => ?_
  refine lockstep_bind lockstep_stateless fun ffnIntermediate => ?_
  rw [hmatvec _ (by decide)]
  refine lockstep_bind lockstep_stateless fun down => ?_
  exact lockstep_pure fun _ _ hst => hst

theorem lockstep_runLayer (context : ExecutorContext F) {tensors : TensorContext F}
    (htensors : SameLayerTensors P context.tensorContext tensors) {layerId : ℤ} (hP : P layerId)
    (input : List F) (seqLen kvSeqBefore : ℕ) :
    Lockstep (AgreeOn P engine) (runLayer context layerId input seqLen kvSeqBefore)
      (runLayer { context with tensorContext := tensors } layerId input seqLen kvSeqBefore)
      (AgreeOn P engine) := by
  have hvector (suffix : Bytes) (hs : suffix ∈ layerTensors) (n : ℕ) :=
    tensorVectorToFloat_congr (htensors layerId hP suffix hs) n
  unfold runLayer
  dsimp only
  rw [hvector _ (by decide)]
  refine lockstep_bind lockstep_stateless fun attnNormWeight => ?_
  rw [hvector _ (by decide)]
  refine lockstep_bind lockstep_stateless fun ffnNormWeight => ?_
  refine lockstep_foldlM (fun output t _ => ?_) input
  refine lockstep_bind (lockstep_runRow context htensors hP _ _ _ _) fun row => ?_
  exact lockstep_pure fun _ _ hst => hst

/-- Running layers depends on their caches and their tensors only. -/
theorem lockstep_runLayers (context : ExecutorContext F) {tensors : TensorContext F}
    (htensors : SameLayerTensors P context.tensorContext tensors) {layers : List ℤ}
    (hP : ∀ layerId ∈ layers, P layerId) (hidden : List F) (seqLen kvSeqBefore : ℕ) :
    Lockstep (AgreeOn P engine) (runLayers context layers hidden seqLen kvSeqBefore)
      (runLayers { context with tensorContext := tensors } layers hidden seqLen kvSeqBefore)
      (AgreeOn P engine) :=
  lockstep_foldlM (fun hidden layerId hl =>
    lockstep_runLayer context htensors (hP layerId hl) hidden seqLen kvSeqBefore) hidden

end Lockstep

end LayerInference.ExecutorLockstep
