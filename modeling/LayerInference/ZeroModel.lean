import LayerInference.PartialRuntime

/-!
# The model whose weights are all zero

For any dimensions there is a complete model with zero weights. It is the
shard used wherever a stage has to be evaluated: with one of everything its
frames can be served by computation, on exact single-precision codes.
-/

namespace LayerInference.ZeroModel

open ByteStrings FloatArithmetic TensorAbi CpuExecutor PartialRuntime

variable {F : Type} [Zero F]

/-- A weight of the given dimensions with all entries zero. -/
def zeroTensor (ne0 ne1 : ℕ) : GgmlTensor F where
  ne0 := ne0
  ne1 := ne1
  getRow _ := .ok (List.replicate ne0 0)
  getRow_length _ _ h := by cases h; exact List.length_replicate
  mulMat _ := .ok (List.replicate ne1 0)
  mulMat_length _ _ h := by cases h; exact List.length_replicate

/-- Every tensor a partition can ask for, by the end of its name. -/
def zeroModel (hp : LlamaExecutorHyperparams F) : TensorContext F := fun name =>
  let qDim := hp.nHead * hp.headDim
  if name = ascii "token_embd.weight" ∨ name = ascii "output.weight" then
    some (zeroTensor hp.hiddenSize hp.vocabSize)
  else if (ascii "norm.weight").isSuffixOf name then some (zeroTensor hp.hiddenSize 1)
  else if (ascii "attn_q.weight").isSuffixOf name then some (zeroTensor hp.hiddenSize qDim)
  else if (ascii "attn_output.weight").isSuffixOf name then some (zeroTensor qDim hp.hiddenSize)
  else if (ascii "ffn_down.weight").isSuffixOf name then
    some (zeroTensor hp.ffnSize hp.hiddenSize)
  else if (ascii "ffn_gate.weight").isSuffixOf name ∨ (ascii "ffn_up.weight").isSuffixOf name then
    some (zeroTensor hp.hiddenSize hp.ffnSize)
  else some (zeroTensor hp.hiddenSize (hp.nHeadKv * hp.headDim))

/-- One head, one component, two tokens. -/
def tinyHyperparams : LlamaExecutorHyperparams Binary32 where
  hiddenSize := 1
  ffnSize := 1
  nHead := 1
  nHeadKv := 1
  headDim := 1
  vocabSize := 2
  rmsEps := 1
  ropeTheta := 1

/-- A runtime of the tiny model that owns the given layers and components. -/
def tinyRuntime (layers : List ℤ) (ownsEmbedding terminal : Bool) : LlamaPartialRuntime Binary32 where
  shard :=
    { layers := layers
      ownsEmbedding := ownsEmbedding
      ownsNorm := terminal
      ownsLmHead := terminal
      nextStageUrl := if terminal then [] else ascii "http://next"
      hiddenSize := 1 }
  executor := { tensorContext := zeroModel tinyHyperparams, hp := tinyHyperparams }

/-- Hidden states of some rows, all zero. -/
def zeroHidden (rows : ℕ) : TensorBuffer where
  metadata := { dtype := dtypeHiddenF32, shape := [1, rows, 1] }
  bytes := List.replicate (4 * rows) 0

/-- A greedy frame for a partition behind the source. -/
def hiddenFrame (requestId : Bytes) (tokenIndex : ℤ) (generationMode : Bytes) (rows : ℕ) :
    RuntimeRequest Binary64 where
  requestId := requestId
  tokenIndex := tokenIndex
  generationMode := generationMode
  inputTensor := zeroHidden rows
  kvCacheEnabled := true

end LayerInference.ZeroModel
