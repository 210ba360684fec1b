import LayerInference.SessionPositions
import LayerInference.StageExecution

/-!
# Index arithmetic in `int`

The executor computes the offsets of rows and cache positions as products and
sums of `int` and widens the result. The offsets of a frame are listed here as
the source writes them. They stay below the limit of `int` exactly while the
positions of a generation, times the width of a key row, do. Nothing checks
this: a generation that goes further is served like any other.
-/

namespace LayerInference.IndexArithmetic

open ByteStrings FallibleRuns FloatArithmetic FrameProtocol TensorAbi CpuExecutor
  PartitionExecution PartialRuntime SessionMachine FrameTensors CacheGrowth SessionEffects
  SessionIsolation SessionPositions ExecutionTotality StageExecution ZeroModel Runs

variable {F D G : Type} [FloatArith F] [FloatArith D] [Numerics F D G]

/-- The first value that is no `int`. -/
def intLimit : ℕ := 2 ^ 31

section Bounds

variable {hp : LlamaExecutorHyperparams F}

variable {context : ExecutorContext F}

end Bounds

omit [FloatArith F] in
/-- The transposed copy doubles its capacity only while it is shorter than the
cache, so for a key width of two or more the doubled value is no concern. -/
theorem capacity_doubled_lt {hp : LlamaExecutorHyperparams F} {capacity position : ℕ}
    (hgrow : capacity < position + 1) (hwidth : 2 ≤ kvDim hp)
    (hfits : (position + 1) * kvDim hp < intLimit) : capacity * 2 < intLimit := by
  have hle : (position + 1) * 2 ≤ (position + 1) * kvDim hp := Nat.mul_le_mul_left _ hwidth
  omega

section Generations

variable {rt : LlamaPartialRuntime F} {events : List (StageEvent D)}
  {s : StageState rt.executor.hp} {event : StageEvent D} {promptLen i : ℕ}

end Generations

section Llama

end Llama

end LayerInference.IndexArithmetic
