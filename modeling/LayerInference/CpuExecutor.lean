import LayerInference.FallibleRuns
import LayerInference.FlatVectors
import LayerInference.FloatArithmetic
import LayerInference.FrameProtocol
import LayerInference.TensorAbi
import Mathlib.Logic.Function.Basic

/-!
# The layer executor of one session

An executor owns one key-value cache for each layer, the table of rotation
frequencies and a random engine. A layer is run row by row; each row appends
one position to the cache of its layer and attends over the positions up to
it. Tensors come from a shard by name. Index arithmetic is exact, conversions
to a narrower integer are not.
-/

namespace LayerInference.CpuExecutor

open ByteStrings FallibleRuns FlatVectors FloatArithmetic FrameProtocol TensorAbi

variable {F D G : Type} [FloatArith F] [FloatArith D] [Numerics F D G]

/-- A weight tensor as the kernel library answers for it. -/
structure GgmlTensor (F : Type) where
  /-- The row width. -/
  ne0 : ℕ
  /-- The number of rows. -/
  ne1 : ℕ
  hasData : Bool := true
  /-- One row gathered as floats. -/
  getRow : ℕ → Except Bytes (List F)
  getRow_length : ∀ row xs, getRow row = .ok xs → xs.length = ne0
  /-- The product with one vector. -/
  mulMat : List F → Except Bytes (List F)
  mulMat_length : ∀ x y, mulMat x = .ok y → y.length = ne1

/-- The tensors of one shard by name. -/
abbrev TensorContext (F : Type) := Bytes → Option (GgmlTensor F)

/-- Model dimensions; a negative dimension is refused like zero. -/
structure LlamaExecutorHyperparams (F : Type) where
  architecture : Bytes := ascii "llama"
  hiddenSize : ℕ
  ffnSize : ℕ
  nHead : ℕ
  nHeadKv : ℕ
  headDim : ℕ
  vocabSize : ℕ
  rmsEps : F
  ropeTheta : F

/-- What an executor reads and never changes. -/
structure ExecutorContext (F : Type) where
  tensorContext : TensorContext F
  hp : LlamaExecutorHyperparams F
  /-- The kernel path of attention is switched on. -/
  attentionBackendIsGgml : Bool := false

/-- Sampling configuration of the terminal partition. -/
structure LlamaSamplingParams (F : Type) where
  enabled : Bool
  temperature : F
  topK : ℤ
  topP : F
  hasSeed : Bool
  seed : ℤ

/-- Keys and values of one layer, a row for each position. -/
structure LayerKvCache (F : Type) where
  seqLen : ℕ := 0
  k : List F := []
  v : List F := []
  /-- The values with positions contiguous, for the kernel path. -/
  vT : List F := []
  vTCapacity : ℕ := 0

/-- The rotation frequencies, which depend on the dimensions only. -/
def ropeInvFreqTable (hp : LlamaExecutorHyperparams F) : List F :=
  (List.range hp.headDim).map fun i =>
    if i % 2 = 0 then
      Numerics.pow hp.ropeTheta (-(FloatArith.ofInt i) / FloatArith.ofInt hp.headDim)
    else 0

/-- The cached table: a table of full size holds the frequencies. -/
structure RopeTable (hp : LlamaExecutorHyperparams F) where
  invFreq : List F
  filled : invFreq.length = hp.headDim → invFreq = ropeInvFreqTable hp

/-- The mutable part of an executor. -/
structure LlamaCpuExecutor (hp : LlamaExecutorHyperparams F) where
  layerCache : ℤ → LayerKvCache F
  rng : G
  ropeInvFreq : RopeTable hp

/-- A step of the executor; its writes survive an exception. -/
abbrev ExecM (hp : LlamaExecutorHyperparams F) := EStateM Bytes (LlamaCpuExecutor hp)

/-- The empty table of a new executor. -/
def RopeTable.unfilled (hp : LlamaExecutorHyperparams F) : RopeTable hp where
  invFreq := []
  filled h := by
    have hdim : hp.headDim = 0 := h.symm
    simp [ropeInvFreqTable, hdim]

/-- Fill the table unless it has full size. -/
def RopeTable.ensure {hp : LlamaExecutorHyperparams F} (table : RopeTable hp) : RopeTable hp :=
  if table.invFreq.length ≠ hp.headDim then ⟨ropeInvFreqTable hp, fun _ => rfl⟩ else table

@[simp] theorem RopeTable.ensure_invFreq {hp : LlamaExecutorHyperparams F} (table : RopeTable hp) :
    table.ensure.invFreq = ropeInvFreqTable hp := by
  unfold RopeTable.ensure
  split
  · rfl
  · exact table.filled (not_not.mp ‹_›)

/-- The checks of the constructor. -/
def checkHyperparams (hp : LlamaExecutorHyperparams F) : Except Bytes Unit :=
  if hp.architecture ≠ ascii "llama" then
    .error (ascii "LlamaCpuExecutor currently supports only GGUF architecture=llama, got: " ++
      hp.architecture)
  else if hp.hiddenSize = 0 ∨ hp.ffnSize = 0 ∨ hp.nHead = 0 ∨ hp.nHeadKv = 0 ∨
      hp.headDim = 0 ∨ hp.vocabSize = 0 then
    .error (ascii "LlamaCpuExecutor received incomplete hyperparameters")
  else if hp.nHead % hp.nHeadKv ≠ 0 then
    .error (ascii "n_head must be divisible by n_head_kv")
  else if hp.nHead * hp.headDim ≠ hp.hiddenSize then
    .error (ascii "n_head * head_dim must equal hidden_size")
  else
    .ok ()

/-- An executor whose engine is seeded from the random device. -/
def LlamaCpuExecutor.fresh (hp : LlamaExecutorHyperparams F) (entropy : UInt32) :
    LlamaCpuExecutor hp where
  layerCache := fun _ => {}
  rng := Numerics.seedRng F entropy
  ropeInvFreq := .unfilled hp

def requireTensor (context : TensorContext F) (name : Bytes) : Except Bytes (GgmlTensor F) :=
  match context name with
  | none => .error (ascii "required tensor not found in shard: " ++ name)
  | some tensor =>
    if tensor.hasData then .ok tensor
    else .error (ascii "required tensor has null data pointer: " ++ name)

def tensorRowToFloat (tensor : GgmlTensor F) (row : ℤ) : Except Bytes (List F) :=
  let rowCount := if tensor.ne1 > 0 then tensor.ne1 else 1
  if tensor.ne0 = 0 then .error (ascii "tensor has invalid row dimensions")
  else if row < 0 ∨ row ≥ rowCount then .error (ascii "tensor row index out of range")
  else tensor.getRow row.toNat

def tensorVectorToFloat (context : TensorContext F) (name : Bytes) (expectedSize : ℕ) :
    Except Bytes (List F) := do
  let tensor ← requireTensor context name
  if tensor.ne0 ≠ expectedSize then
    .error (ascii "tensor " ++ name ++ ascii " has wrong vector size: expected " ++
      decimalNat expectedSize ++ ascii ", got " ++ decimalNat tensor.ne0)
  else
    tensorRowToFloat tensor 0

def matvec (context : TensorContext F) (tensorName : Bytes) (x : List F) :
    Except Bytes (List F) := do
  let weight ← requireTensor context tensorName
  if weight.ne0 = 0 ∨ weight.ne1 = 0 then
    .error (ascii "linear tensor has invalid shape: " ++ tensorName)
  else if x.length ≠ weight.ne0 then
    .error (ascii "matvec input size mismatch for " ++ tensorName ++ ascii ": expected " ++
      decimalNat weight.ne0 ++ ascii ", got " ++ decimalNat x.length)
  else
    weight.mulMat x

def silu (x : F) : F := x / (1 + FloatArith.exp (-x))

def layerPrefix (layerId : ℤ) : Bytes := ascii "blk." ++ decimal layerId ++ ascii "."

/-- Root-mean-square normalization; the sum of squares is in double precision. -/
def rmsNorm (hp : LlamaExecutorHyperparams F) (x weight : List F) : Except Bytes (List F) :=
  if x.length ≠ weight.length then .error (ascii "rms_norm input and weight sizes differ")
  else
    let sumSq : D := x.foldl (fun sum v => sum + Numerics.toDouble v * Numerics.toDouble v) 0
    let mean : F := Numerics.toFloat (sumSq / FloatArith.ofInt x.length)
    let scale := 1 / Kernels.sqrt (mean + hp.rmsEps)
    .ok (List.zipWith (fun xi wi => xi * scale * wi) x weight)

/-- Rotate the pair at `i0` and `i0 + 1` by an angle. -/
def rotatePair (angle : F) (x : List F) (i0 : ℕ) : List F :=
  let c := Numerics.cos angle
  let s := Numerics.sin angle
  let x0 := x.getD i0 0
  let x1 := x.getD (i0 + 1) 0
  (x.set i0 (x0 * c - x1 * s)).set (i0 + 1) (x0 * s + x1 * c)

/-- Rotate every even pair of every head. -/
def rotate (dim : ℕ) (invFreq : List F) (position : ℕ) (heads : ℕ) (x : List F) : List F :=
  (List.range heads).foldl (fun x h =>
    (List.range ((dim + 1) / 2)).foldl (fun x j =>
      rotatePair (FloatArith.ofInt position * invFreq.getD (2 * j) 0) x (h * dim + 2 * j)) x) x

/-- Rotary position embedding of the query and the key. -/
def applyRope {hp : LlamaExecutorHyperparams F} (q k : List F) (position : ℕ) :
    ExecM hp (List F × List F) := fun s =>
  let table := s.ropeInvFreq.ensure
  .ok (rotate hp.headDim table.invFreq position hp.nHead q,
    rotate hp.headDim table.invFreq position hp.nHeadKv k) { s with ropeInvFreq := table }

section Attention

variable {F : Type} [FloatArith F] [Kernels F]

/-- The output of one query head over the first `requiredSeq` positions. -/
def headContext (hp : LlamaExecutorHyperparams F) (q kCache vCache : List F)
    (requiredSeq qh : ℕ) : Except Bytes (List F) :=
  let kvDim := hp.nHeadKv * hp.headDim
  let kvh := qh / (hp.nHead / hp.nHeadKv)
  let scale := 1 / Kernels.sqrt (FloatArith.ofInt hp.headDim)
  let scores := (List.range requiredSeq).map fun pos =>
    (List.range hp.headDim).foldl (fun dot d =>
      dot + q.getD (qh * hp.headDim + d) 0 *
        kCache.getD (pos * kvDim + kvh * hp.headDim + d) 0) 0 * scale
  let maxScore := scores.foldl (fun best score =>
    if FloatArith.lt best score then score else best) Kernels.negInf
  let weights := scores.map fun score => FloatArith.exp (score - maxScore)
  let denom := weights.foldl (· + ·) 0
  if FloatArith.le denom 0 then
    .error (ascii "attention softmax denominator is non-positive")
  else
    .ok ((List.range hp.headDim).map fun d =>
      (List.range requiredSeq).foldl (fun sum pos =>
        sum + weights.getD pos 0 / denom *
          vCache.getD (pos * kvDim + kvh * hp.headDim + d) 0) 0)

/-- Attention over the cached rows, head by head. -/
def computeAttentionScalar (hp : LlamaExecutorHyperparams F) (q kCache vCache : List F)
    (requiredSeq : ℕ) : Except Bytes (List F) := do
  let heads ← (List.range hp.nHead).mapM (headContext hp q kCache vCache requiredSeq)
  .ok heads.flatten

/-- Attention by the kernels, on strided views of the cache. -/
def computeAttentionGgmlViews (hp : LlamaExecutorHyperparams F) (q kSrc vTSrc : List F)
    (vCapacity requiredSeq : ℕ) : List F :=
  let kvDim := hp.nHeadKv * hp.headDim
  let groups := hp.nHead / hp.nHeadKv
  let scale := 1 / Kernels.sqrt (FloatArith.ofInt hp.headDim)
  (List.range hp.nHeadKv).flatMap fun kvh => (List.range groups).flatMap fun g =>
    let query := slice q ((kvh * groups + g) * hp.headDim) hp.headDim
    let scores := (List.range requiredSeq).map fun pos =>
      Kernels.vecDot (slice kSrc (pos * kvDim + kvh * hp.headDim) hp.headDim) query * scale
    let probs := Kernels.softMax scores
    (List.range hp.headDim).map fun d =>
      Kernels.vecDot (slice vTSrc (vCapacity * d + vCapacity * hp.headDim * kvh) requiredSeq) probs

/-- Grow the cache to hold the position, then store its key and value rows. -/
def LayerKvCache.store (cache : LayerKvCache F) (kvDim position : ℕ) (k v : List F) :
    LayerKvCache F :=
  let grown :=
    if cache.seqLen < position + 1 then
      { cache with
        k := resize cache.k ((position + 1) * kvDim) 0
        v := resize cache.v ((position + 1) * kvDim) 0
        seqLen := position + 1 }
    else cache
  { grown with
    k := writeAt grown.k (position * kvDim) k
    v := writeAt grown.v (position * kvDim) v }

/-- The pairs of head and component, in loop order. -/
def kvComponents (hp : LlamaExecutorHyperparams F) : List (ℕ × ℕ) :=
  (List.range hp.nHeadKv).flatMap fun kvh => (List.range hp.headDim).map fun d => (kvh, d)

/-- Keep the transposed values up to date: grow and refill, or add a column. -/
def LayerKvCache.transpose (cache : LayerKvCache F) (hp : LlamaExecutorHyperparams F)
    (position : ℕ) (v : List F) : LayerKvCache F :=
  let kvDim := hp.nHeadKv * hp.headDim
  let requiredSeq := position + 1
  if cache.vTCapacity < requiredSeq then
    let newCap := max requiredSeq (max (cache.vTCapacity * 2) 16)
    let grown := (kvComponents hp).foldl (fun out component =>
      (List.range requiredSeq).foldl (fun out pos =>
        out.set (pos + newCap * component.2 + newCap * hp.headDim * component.1)
          (cache.v.getD (pos * kvDim + component.1 * hp.headDim + component.2) 0)) out)
      (List.replicate (newCap * kvDim) 0)
    { cache with vT := grown, vTCapacity := newCap }
  else
    let cap := cache.vTCapacity
    let column := (kvComponents hp).foldl (fun out component =>
      out.set (position + cap * component.2 + cap * hp.headDim * component.1)
        (v.getD (component.1 * hp.headDim + component.2) 0)) cache.vT
    { cache with vT := column }

/-- Attention of one row on the cache of its layer. -/
def attentionOnCache (context : ExecutorContext F) (q k v : List F) (position : ℕ) :
    EStateM Bytes (LayerKvCache F) (List F) := fun cache =>
  let hp := context.hp
  let kvDim := hp.nHeadKv * hp.headDim
  if q.length ≠ hp.nHead * hp.headDim then .error (ascii "Q vector has wrong size") cache
  else if k.length ≠ kvDim ∨ v.length ≠ kvDim then
    .error (ascii "K/V vector has wrong size") cache
  else
    let stored := cache.store kvDim position k v
    if context.attentionBackendIsGgml then
      let stored := stored.transpose hp position v
      .ok (computeAttentionGgmlViews hp q stored.k stored.vT stored.vTCapacity (position + 1))
        stored
    else
      match computeAttentionScalar hp q stored.k stored.v (position + 1) with
      | .ok out => .ok out stored
      | .error message => .error message stored

end Attention

/-- Replace the cache of one layer. -/
def LlamaCpuExecutor.setLayer {hp : LlamaExecutorHyperparams F} (layerId : ℤ)
    (s : LlamaCpuExecutor hp) (cache : LayerKvCache F) : LlamaCpuExecutor hp :=
  { s with layerCache := Function.update s.layerCache layerId cache }

/-- Attention of one row in one layer. -/
def attention (context : ExecutorContext F) (layerId : ℤ) (q k v : List F) (position : ℕ) :
    ExecM context.hp (List F) :=
  onPart (fun s => s.layerCache layerId) (fun s => s.setLayer layerId)
    (attentionOnCache context q k v position)

/-- One row through one layer: attention block, then feed-forward block. -/
def runRow (context : ExecutorContext F) (layerId : ℤ) (attnNormWeight ffnNormWeight x : List F)
    (position : ℕ) : ExecM context.hp (List F) := do
  let hp := context.hp
  let tensors := context.tensorContext
  let xn ← stateless (rmsNorm hp x attnNormWeight)
  let q ← stateless (matvec tensors (layerPrefix layerId ++ ascii "attn_q.weight") xn)
  let k ← stateless (matvec tensors (layerPrefix layerId ++ ascii "attn_k.weight") xn)
  let v ← stateless (matvec tensors (layerPrefix layerId ++ ascii "attn_v.weight") xn)
  let rotated ← applyRope q k position
  let ctx ← attention context layerId rotated.1 rotated.2 v position
  let attnOut ← stateless (matvec tensors (layerPrefix layerId ++ ascii "attn_output.weight") ctx)
  let h1 := (List.range hp.hiddenSize).map fun i => x.getD i 0 + attnOut.getD i 0
  let fn ← stateless (rmsNorm hp h1 ffnNormWeight)
  let gate ← stateless (matvec tensors (layerPrefix layerId ++ ascii "ffn_gate.weight") fn)
  let up ← stateless (matvec tensors (layerPrefix layerId ++ ascii "ffn_up.weight") fn)
  let ffnIntermediate ← stateless
    (if gate.length ≠ hp.ffnSize ∨ up.length ≠ hp.ffnSize then
      .error (ascii "FFN gate/up size mismatch")
    else
      .ok ((List.range hp.ffnSize).map fun i => silu (gate.getD i 0) * up.getD i 0))
  let down ← stateless
    (matvec tensors (layerPrefix layerId ++ ascii "ffn_down.weight") ffnIntermediate)
  pure ((List.range hp.hiddenSize).map fun i => h1.getD i 0 + down.getD i 0)

/-- All rows of the input through one layer, in place. -/
def runLayer (context : ExecutorContext F) (layerId : ℤ) (input : List F) (seqLen kvSeqBefore : ℕ) :
    ExecM context.hp (List F) := do
  let hidden := context.hp.hiddenSize
  let attnNormWeight ← stateless (tensorVectorToFloat context.tensorContext
    (layerPrefix layerId ++ ascii "attn_norm.weight") hidden)
  let ffnNormWeight ← stateless (tensorVectorToFloat context.tensorContext
    (layerPrefix layerId ++ ascii "ffn_norm.weight") hidden)
  (List.range seqLen).foldlM (fun output t => do
    let row ← runRow context layerId attnNormWeight ffnNormWeight
      (slice output (t * hidden) hidden) (kvSeqBefore + t)
    pure (writeAt output (t * hidden) row)) input

/-- The layers of a partition, one after the other. -/
def runLayers (context : ExecutorContext F) (layers : List ℤ) (hidden : List F)
    (seqLen kvSeqBefore : ℕ) : ExecM context.hp (List F) :=
  layers.foldlM (fun hidden layerId => runLayer context layerId hidden seqLen kvSeqBefore) hidden

end LayerInference.CpuExecutor
