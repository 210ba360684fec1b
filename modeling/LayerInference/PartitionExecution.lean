import LayerInference.CpuExecutor

/-!
# Executing one frame on a partition

The three roles of a partition share their layers and differ at the ends. A
source reads token ids and gathers embedding rows. Source and intermediate
partitions write the hidden states of all rows to a tensor. A terminal
partition normalizes the last row, multiplies it with the output matrix and
picks the next token, greedily or by sampling.
-/

namespace LayerInference.PartitionExecution

open ByteStrings FallibleRuns FlatVectors FloatArithmetic FrameProtocol TensorAbi CpuExecutor

variable {F D G : Type} [FloatArith F] [FloatArith D] [Numerics F D G]

def readI64Le (bytes : Bytes) (offset : ℕ) : Except Bytes ℤ :=
  if offset + 8 > bytes.length then .error (ascii "cannot read int64 past token tensor")
  else .ok (toInt64 (readU64Le (bytes.drop offset)).toNat)

def readF32Le (bytes : Bytes) (offset : ℕ) : Except Bytes F :=
  if offset + 4 > bytes.length then .error (ascii "cannot read float32 past hidden tensor")
  else .ok (Numerics.ofBits (readU32Le (bytes.drop offset)))

/-- Round a single-precision pattern to half precision, flushing what is too
small and saturating to infinity. -/
def floatToF16Bits (bits : UInt32) : UInt16 :=
  let sign := (bits >>> 16) &&& 0x8000
  let exponent : ℤ := ((bits >>> 23) &&& 0xff).toNat - 127 + 15
  let mantissa := bits &&& 0x007fffff
  if exponent ≤ 0 then
    if exponent < -10 then sign.toUInt16
    else
      let shifted := (mantissa ||| 0x00800000) >>> UInt32.ofNat (1 - exponent).toNat
      (sign ||| ((shifted + 0x00001000) >>> 13)).toUInt16
  else if exponent ≥ 31 then (sign ||| (0x7c00 : UInt32)).toUInt16
  else
    (sign ||| (UInt32.ofNat exponent.toNat <<< 10) ||| ((mantissa + 0x00001000) >>> 13)).toUInt16

/-- Shift a subnormal mantissa up to its leading bit; ten shifts are enough. -/
def normalizeHalf : ℕ → UInt32 → UInt32 → UInt32 × UInt32
  | 0, exponent, mantissa => (exponent, mantissa)
  | fuel + 1, exponent, mantissa =>
    if mantissa &&& 0x0400 = 0 then normalizeHalf fuel (exponent - 1) (mantissa <<< 1)
    else (exponent, mantissa)

/-- Widen a half-precision pattern. -/
def f16BitsToFloat (value : UInt16) : UInt32 :=
  let sign := (value &&& 0x8000).toUInt32 <<< 16
  let exponent := ((value >>> 10) &&& 0x1f).toUInt32
  let mantissa := (value &&& 0x03ff).toUInt32
  if exponent = 0 then
    if mantissa = 0 then sign
    else
      let normalized := normalizeHalf 10 1 mantissa
      sign ||| ((normalized.1 + (127 - 15)) <<< 23) ||| ((normalized.2 &&& 0x03ff) <<< 13)
  else if exponent = 31 then sign ||| (0x7f800000 : UInt32) ||| (mantissa <<< 13)
  else sign ||| ((exponent + (127 - 15)) <<< 23) ||| (mantissa <<< 13)

def readF16Le (bytes : Bytes) (offset : ℕ) : Except Bytes F :=
  if offset + 2 > bytes.length then .error (ascii "cannot read float16 past hidden tensor")
  else
    let raw := (bytes.getD offset 0).toUInt16 ||| ((bytes.getD (offset + 1) 0).toUInt16 <<< 8)
    .ok (Numerics.ofBits (f16BitsToFloat raw))

/-- The four bytes of a float. -/
def writeF32Le (value : F) : Bytes := appendU32Le [] (Numerics.bits value)

/-- The two bytes of a float in half precision. -/
def writeF16Le (value : F) : Bytes :=
  let raw := floatToF16Bits (Numerics.bits value)
  [(raw &&& 0xff).toUInt8, ((raw >>> 8) &&& 0xff).toUInt8]

/-- Decode hidden states of batch one. -/
def tensorToHiddenF32 (hp : LlamaExecutorHyperparams F) (tensor : TensorBuffer) :
    Except Bytes (List F) := do
  validateHiddenStatesTensor tensor hp.hiddenSize true
  let batch := tensor.metadata.shape.getD 0 0
  let seq := tensor.metadata.shape.getD 1 0
  let hidden := tensor.metadata.shape.getD 2 0
  if batch ≠ 1 then .error (ascii "CPU reference executor currently supports batch=1")
  else
    let count := (toInt64 (batch * seq * hidden)).toNat
    if tensor.metadata.dtype = dtypeHiddenF32 then
      (List.range count).mapM fun i => readF32Le tensor.bytes (i * 4)
    else if tensor.metadata.dtype = dtypeHiddenF16 then
      (List.range count).mapM fun i => readF16Le tensor.bytes (i * 2)
    else .error (ascii "unsupported hidden-state dtype: " ++ tensor.metadata.dtype)

/-- Decode token ids of batch one. -/
def tensorToTokenIds (tensor : TensorBuffer) : Except Bytes (List ℤ) := do
  validateTokenIdsTensor tensor
  let batch := tensor.metadata.shape.getD 0 0
  let seq := tensor.metadata.shape.getD 1 0
  if batch ≠ 1 then .error (ascii "CPU reference executor currently supports batch=1")
  else (List.range seq.toNat).mapM fun i => readI64Le tensor.bytes (i * 8)

/-- Encode hidden states at the requested precision. -/
def floatHiddenToTensor (hp : LlamaExecutorHyperparams F) (hidden : List F) (batch seqLen : ℤ)
    (activationPrecision : Bytes) : TensorBuffer :=
  let useF16 := activationPrecision = ascii "fp16" ∨ activationPrecision = ascii "float16"
  { metadata :=
      { dtype := if useF16 then dtypeHiddenF16 else dtypeHiddenF32
        shape := [batch, seqLen, hp.hiddenSize]
        byteOrder := byteOrderLittle }
    bytes := if useF16 then hidden.flatMap writeF16Le else hidden.flatMap writeF32Le }

/-- The embedding row of one token id. -/
def embeddingRow (hp : LlamaExecutorHyperparams F) (embedding : GgmlTensor F) (tokenId : ℤ) :
    Except Bytes (List F) :=
  if tokenId < 0 ∨ tokenId ≥ hp.vocabSize then
    .error (ascii "token id out of range: " ++ decimal tokenId)
  else tensorRowToFloat embedding tokenId

/-- Gather the embedding rows of the tokens. A negative count is refused by
the allocation of the output. -/
def embedTokens (context : ExecutorContext F) (tokens : List ℤ) (seqLen : ℤ) :
    Except Bytes (List F) := do
  let hp := context.hp
  let embedding ← requireTensor context.tensorContext (ascii "token_embd.weight")
  if embedding.ne0 ≠ hp.hiddenSize then .error (ascii "token_embd.weight hidden size mismatch")
  else if embedding.ne1 ≠ hp.vocabSize then .error (ascii "token_embd.weight vocab size mismatch")
  else if seqLen < 0 then .error (ascii "cannot create std::vector larger than max_size()")
  else
    (List.range seqLen.toNat).foldlM (fun hidden t => do
      let row ← embeddingRow hp embedding (tokens.getD t 0)
      .ok (writeAt hidden (t * hp.hiddenSize) row))
      (List.replicate (seqLen.toNat * hp.hiddenSize) 0)

/-- A source partition: token ids in, hidden states out. -/
def executeSource (context : ExecutorContext F) (tokenIds : TensorBuffer) (layers : List ℤ)
    (kvSeqBefore : ℕ) (outputActivationPrecision : Bytes) : ExecM context.hp TensorBuffer := do
  let tokens ← stateless (tensorToTokenIds tokenIds)
  let seqLen := toInt32 tokens.length
  let embedded ← stateless (embedTokens context tokens seqLen)
  let hidden ← runLayers context layers embedded seqLen.toNat kvSeqBefore
  pure (floatHiddenToTensor context.hp hidden 1 seqLen outputActivationPrecision)

/-- An intermediate partition: hidden states in, hidden states out. -/
def executeIntermediate (context : ExecutorContext F) (hiddenStates : TensorBuffer)
    (layers : List ℤ) (kvSeqBefore : ℕ) (outputActivationPrecision : Bytes) :
    ExecM context.hp TensorBuffer := do
  let seqLen := toInt32 (hiddenStates.metadata.shape.getD 1 0)
  let decoded ← stateless (tensorToHiddenF32 context.hp hiddenStates)
  let hidden ← runLayers context layers decoded seqLen.toNat kvSeqBefore
  pure (floatHiddenToTensor context.hp hidden 1 seqLen outputActivationPrecision)

/-- The first index of a greatest logit. -/
def greedyToken (logits : List F) : ℕ :=
  ((logits.zipIdx.drop 1).foldl (fun (best : ℕ × F) item =>
    if FloatArith.lt best.2 item.1 then (item.2, item.1) else best) (0, logits.headD 0)).1

/-- The length of the shortest prefix whose mass reaches `topP`. -/
def nucleusCutoff (topP : D) : List D → D → ℕ → Option ℕ
  | [], _, _ => none
  | p :: probs, cumulative, i =>
    if FloatArith.le topP (cumulative + p) then some (i + 1)
    else nucleusCutoff topP probs (cumulative + p) (i + 1)

/-- The first candidate whose cumulative probability reaches the draw. -/
def pickCandidate (draw : D) : List (ℕ × D) → D → Option ℕ
  | [], _ => none
  | (token, p) :: rest, cumulative =>
    if FloatArith.le draw (cumulative + p) then some token
    else pickCandidate draw rest (cumulative + p)

/-- The kept candidates with their renormalized probabilities. -/
def samplingDistribution (logits : List F) (sampling : LlamaSamplingParams F) : List (ℕ × D) :=
  let invTemperature := 1 / sampling.temperature
  let candidates := Numerics.sortByLogit
    (logits.zipIdx.map fun item => (item.2, item.1 * invTemperature))
  let candidates :=
    if 0 < sampling.topK ∧ sampling.topK < candidates.length then
      candidates.take sampling.topK.toNat
    else candidates
  let maxLogit := (candidates.headD (0, 0)).2
  let weights : List D :=
    candidates.map fun c => FloatArith.exp (Numerics.toDouble (c.2 - maxLogit))
  let sumExp := weights.foldl (· + ·) 0
  let probs := weights.map (· / sumExp)
  if FloatArith.lt sampling.topP 1 && FloatArith.lt 0 sampling.topP then
    let cutoff := (nucleusCutoff (Numerics.toDouble sampling.topP) probs 0 0).getD probs.length
    let renorm := (probs.take cutoff).foldl (· + ·) 0
    let probs := if FloatArith.lt 0 renorm then probs.map (· / renorm) else probs
    ((candidates.map Prod.fst).zip probs).take cutoff
  else (candidates.map Prod.fst).zip probs

/-- Pick the next token from the logits; only sampling draws from the engine. -/
def sampleFromLogits {hp : LlamaExecutorHyperparams F} (logits : List F)
    (sampling : LlamaSamplingParams F) : ExecM hp ℕ := fun s =>
  if !sampling.enabled || FloatArith.le sampling.temperature 0 then
    .ok (greedyToken logits) s
  else
    let distribution : List (ℕ × D) := samplingDistribution logits sampling
    let (draw, rng) := Numerics.uniform F s.rng
    .ok ((pickCandidate draw distribution 0).getD (distribution.headD (0, 0)).1)
      { s with rng := rng }

/-- Reseed at the start of a sequence: from the seed, or from the random
device when the seed is negative. -/
def reseed {hp : LlamaExecutorHyperparams F} (sampling : LlamaSamplingParams F)
    (kvSeqBefore : ℕ) (entropy : UInt32) : ExecM hp Unit := fun s =>
  if sampling.hasSeed && kvSeqBefore == 0 then
    let seed := if sampling.seed ≥ 0 then UInt32.ofInt sampling.seed else entropy
    .ok () { s with rng := Numerics.seedRng F seed }
  else .ok () s

/-- Logits of the last row. -/
def lastRowLogits (context : ExecutorContext F) (hidden : List F) (seqLen : ℤ)
    (ownsNorm ownsLmHead : Bool) : Except Bytes (List F) := do
  let hp := context.hp
  if !ownsNorm then .error (ascii "terminal partition must own output norm")
  else if !ownsLmHead then .error (ascii "terminal partition must own lm_head")
  else
    let outputNormWeight ← tensorVectorToFloat context.tensorContext
      (ascii "output_norm.weight") hp.hiddenSize
    let lastHidden := slice hidden ((seqLen - 1) * hp.hiddenSize).toNat hp.hiddenSize
    let normed ← rmsNorm hp lastHidden outputNormWeight
    let logits ← matvec context.tensorContext (ascii "output.weight") normed
    if logits.isEmpty then .error (ascii "empty logits from lm_head") else .ok logits

/-- A terminal partition: hidden states in, the next token out. -/
def executeTerminal (context : ExecutorContext F) (hiddenStates : TensorBuffer)
    (layers : List ℤ) (kvSeqBefore : ℕ) (ownsNorm ownsLmHead : Bool)
    (sampling : LlamaSamplingParams F) (entropy : UInt32) : ExecM context.hp ℕ := do
  reseed sampling kvSeqBefore entropy
  let seqLen := toInt32 (hiddenStates.metadata.shape.getD 1 0)
  let decoded ← stateless (tensorToHiddenF32 context.hp hiddenStates)
  let hidden ← runLayers context layers decoded seqLen.toNat kvSeqBefore
  let logits ← stateless (lastRowLogits context hidden seqLen ownsNorm ownsLmHead)
  sampleFromLogits logits sampling

end LayerInference.PartitionExecution
