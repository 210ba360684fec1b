import LayerInference.SessionPositions

/-!
# The ledger of answered rows

For every session the stage keeps two counts, its position counter and the
length of each layer cache, and neither is checked against the other. The
ledger adds up the rows of the frames answered since the session was created.
The three agree as long as every frame that reaches a session is of a kind
that the counter knows and is executed to its end. A frame of another kind is
flagged, executed and answered all the same.
-/

namespace LayerInference.CacheLedger

open ByteStrings FallibleRuns FloatArithmetic TensorAbi CpuExecutor PartitionExecution
  PartialRuntime SessionMachine CacheGrowth SessionEffects SessionIsolation SessionPositions
  ZeroModel Runs

variable {F D G : Type} [FloatArith F] [FloatArith D] [Numerics F D G]

/-- The sessions of a stage, and for each the rows answered since its creation. -/
structure LedgerState (hp : LlamaExecutorHyperparams F) where
  sessions : Sessions hp
  answered : Bytes → ℕ

def LedgerState.initial (hp : LlamaExecutorHyperparams F) : LedgerState hp := ⟨∅, fun _ => 0⟩

/-- The rows that a frame announces. -/
def inputRows (request : RuntimeRequest D) : ℕ := (dli2SequenceLength request.inputTensor).toNat

/-- The rows on account when a frame is executed: none on a session that the
frame itself creates. -/
def LedgerState.opening (rt : LlamaPartialRuntime F) (s : LedgerState rt.executor.hp)
    (request : RuntimeRequest D) : ℕ :=
  match admission rt request with
  | .error _ => s.answered (sessionKey request)
  | .ok () =>
    if resetsSession request || (s.sessions.lookup (sessionKey request)).isNone then 0
    else s.answered (sessionKey request)

/-- Serve a frame, and enter its rows when it is answered. -/
def LedgerState.serve (rt : LlamaPartialRuntime F) (s : LedgerState rt.executor.hp)
    (event : StageEvent D) : LedgerState rt.executor.hp :=
  let result := forward rt event.env event.request s.sessions
  { sessions := finalState result
    answered := Function.update s.answered (sessionKey event.request)
      (match outcome result with
      | .ok _ => s.opening rt event.request + inputRows event.request
      | .error _ => s.opening rt event.request) }

/-- A frame with caching on arrives, of any mode, index and length. -/
def LedgerStep (rt : LlamaPartialRuntime F) (s : LedgerState rt.executor.hp)
    (event : StageEvent D) (s' : LedgerState rt.executor.hp) : Prop :=
  event.request.kvCacheEnabled = true ∧ s' = s.serve rt event

/-- A kind of frame that the counter knows, with a length that is an `int`. -/
structure Countable (request : RuntimeRequest D) : Prop where
  mode : request.generationMode = ascii "prefill" ∨
    request.generationMode = ascii "decode" ∧ dli2SequenceLength request.inputTensor = 1
  fits : dli2SequenceLength request.inputTensor < 2 ^ 31

/-- If the frame reaches a session, it can be counted and the executor does not
fail on it. -/
def Orderly (rt : LlamaPartialRuntime F) (s : LedgerState rt.executor.hp)
    (event : StageEvent D) : Prop :=
  admission rt event.request = .ok () →
    ∀ session, openSession rt.executor.hp event.env event.request
        (s.sessions.lookup (sessionKey event.request)) = .ok () (some session) →
      Countable event.request ∧ ∃ response after,
        roleBody rt event.env event.request session = .ok response after

/-- A step with such a frame. -/
def OrderlyStep (rt : LlamaPartialRuntime F) (s : LedgerState rt.executor.hp)
    (event : StageEvent D) (s' : LedgerState rt.executor.hp) : Prop :=
  LedgerStep rt s event s' ∧ Orderly rt s event

/-- A session that agrees with an account. -/
structure InBalance (rt : LlamaPartialRuntime F) (session : LlamaRequestSession rt.executor.hp)
    (rows : ℕ) : Prop extends StandsAt rt session rows where
  valid : session.kvCache.valid = true

/-- All sessions agree with their accounts. -/
def Balanced (rt : LlamaPartialRuntime F) (s : LedgerState rt.executor.hp) : Prop :=
  ∀ key session, s.sessions.lookup key = some session → InBalance rt session (s.answered key)

omit [FloatArith F] [FloatArith D] in
/-- A countable frame moves the counter by its rows and keeps it valid. -/
theorem Countable.update {request : RuntimeRequest D} (h : Countable request)
    (hpos : 0 < dli2SequenceLength request.inputTensor) (hkv : request.kvCacheEnabled = true)
    (kvCache : PartitionKvCacheState) :
    updateKvCacheForRequest request kvCache =
      (⟨kvCache.seqLen, kvCache.seqLen + inputRows request, kvCache.valid⟩,
        ⟨kvCache.seqLen + inputRows request, kvCache.valid⟩) := by
  have hint : toInt32 (dli2SequenceLength request.inputTensor) =
      dli2SequenceLength request.inputTensor := by
    have := h.fits
    rw [toInt32, Int.bmod_eq_of_le] <;> omega
  have hadvance : ∀ mode, (mode = ascii "prefill" ∨
      mode = ascii "decode" ∧ dli2SequenceLength request.inputTensor = 1) →
      (if mode = ascii "prefill" then
        if dli2SequenceLength request.inputTensor ≤ 0 then none
        else some (dli2SequenceLength request.inputTensor).toNat
      else if mode = ascii "decode" then
        if dli2SequenceLength request.inputTensor ≠ 1 then none else some 1
      else none) = some (inputRows request) := by
    have hmodes : ascii "decode" ≠ ascii "prefill" := by decide
    rintro mode (rfl | ⟨rfl, hone⟩)
    · rw [if_pos rfl, if_neg (by omega), inputRows]
    · rw [if_neg hmodes, if_pos rfl, if_neg (by omega), inputRows, hone]
      rfl
  simp only [updateKvCacheForRequest, hkv, hint, hadvance _ h.mode, Bool.not_true,
    Bool.false_eq_true, if_false, Option.getD_some, Option.isSome_some, Bool.and_true]

section Step

variable {rt : LlamaPartialRuntime F} {s : LedgerState rt.executor.hp} {event : StageEvent D}

/-- The session that a frame of a balanced stage is executed on. -/
theorem Balanced.opens (h : Balanced rt s) (hadmission : admission rt event.request = .ok ()) :
    InBalance rt (openedSession rt event.env event.request
      (s.sessions.lookup (sessionKey event.request))) (s.opening rt event.request) := by
  have hfresh : InBalance rt (.fresh rt.executor.hp event.env.executorEntropy) 0 :=
    ⟨standsAt_fresh rt _, rfl⟩
  unfold LedgerState.opening openedSession
  rw [hadmission]
  cases resetsSession event.request with
  | true => exact hfresh
  | false =>
    cases hlookup : s.sessions.lookup (sessionKey event.request) with
    | none => exact hfresh
    | some session => exact h _ _ hlookup

/-- A frame that is counted and answered keeps its session in balance. -/
theorem InBalance.advance {before after : LlamaRequestSession rt.executor.hp} {rows : ℕ}
    (h : InBalance rt before rows) (hadmission : admission rt event.request = .ok ())
    (hkv : event.request.kvCacheEnabled = true) (hcountable : Countable event.request)
    {response : RuntimeResponse} (hdone : FrameDone rt event.request before after response) :
    InBalance rt after (rows + inputRows event.request) ∧ response.kvStep.valid = true := by
  have hpos := seq_pos_of_admission hadmission
  have hupdate := hcountable.update hpos hkv before.kvCache
  have hrows : frameRows event.request.inputTensor = inputRows event.request := by
    have := hcountable.fits
    rw [frameRows, inputRows, toInt32, Int.bmod_eq_of_le] <;> omega
  refine ⟨⟨?_, ?_⟩, ?_⟩
  · refine h.toStandsAt.advance hdone ?_ hrows ?_
    · rw [hupdate, h.counter]
    · rw [inputRows]
      omega
  · rw [hdone.counter, hupdate]
    exact h.valid
  · rw [hdone.step, hupdate]
    exact h.valid

end Step

/-- The tiny stage with one layer after a prefill of two rows. -/
def prefilled : LedgerState tinyHyperparams :=
  (LedgerState.initial tinyHyperparams).serve (tinyRuntime [0] false false)
    (tinyEvent 1 (ascii "a") 0 (ascii "prefill") 2)

end LayerInference.CacheLedger
