import LayerInference.ByteStrings
import LayerInference.OrderedDicts
import LayerInference.Runs

/-!
# The Python stage

A Python stage answers each forward request on a thread of its own. The
threads share a store of finished forwards, for duplicated requests, and a
table of key-value caches; each of their methods runs under a lock, and a
cache is used under the lock of its entry. A step of the model is one such
block with the local work that follows it. The executor and the hash are
parameters. What happens with an activation behind the last check concerns
neither store.
-/

namespace LayerInference.PythonStage

open ByteStrings OrderedDicts Runs

/-- Any other text is handled like `legacy`. -/
inductive GenerationMode where
  | legacy
  | prefill
  | decode
  deriving DecidableEq

def GenerationMode.text : GenerationMode → Bytes
  | .legacy => ascii "legacy"
  | .prefill => ascii "prefill"
  | .decode => ascii "decode"

inductive RebalanceProfile where
  | baseline
  | latencyBalancedV1
  deriving DecidableEq

structure FeatureFlags where
  kvCacheEnabled : Bool := false
  forwardDedupeEnabled : Bool := false
  rebalanceProfile : RebalanceProfile := .baseline
  deriving DecidableEq

structure Tensor where
  shape : List ℕ
  bytes : Bytes
  deriving DecidableEq

/-- A request with the fields of its metadata that the stage reads. -/
structure StageForwardRequest where
  requestId : Bytes
  tokenIndex : ℤ
  generationMode : GenerationMode
  cachePositionStart : Option ℤ
  inputTensor : Tensor
  featureFlags : FeatureFlags
  deriving DecidableEq

/-- The fields that the source joins to one string. Only the request id can
contain the separator. -/
structure DedupeKey where
  requestId : Bytes
  tokenIndex : ℤ
  generationMode : GenerationMode
  position : Option ℤ
  digest : Bytes
  deriving DecidableEq

/-- A partition with its cache functions; `χ` is the type of a cache. -/
structure StageExecutor (χ : Type) where
  hasTransformerLayers : Bool
  ensureKvCacheSupported : Except Bytes Unit
  hasCacheConfig : Bool
  cacheArgName : Bytes
  /-- An empty cache for the configuration. -/
  newCache : χ
  getCacheSeqLength : χ → ℕ
  /-- The length of the first cached layer, zero when it cannot be read. -/
  firstLayerSeqLength : χ → ℕ
  forward : Tensor → Except Bytes Tensor
  /-- The output or the error, and the cache as the call leaves it. -/
  forwardCached : Tensor → χ → Option ℤ → Except Bytes Tensor × χ

/-- What a stage process is set up with. -/
structure StageSetup (χ : Type) where
  executor : RebalanceProfile → StageExecutor χ
  sha1Hex : Bytes → Bytes
  cacheEntries : ℤ

structure HTTPException where
  statusCode : ℕ
  detail : Bytes
  deriving DecidableEq

structure StageKVCacheEntry (χ : Type) where
  requestId : Bytes
  cache : χ
  deriving DecidableEq

/-- What the threads share. The table holds references to entry objects, so
that a thread can go on with an entry that was evicted. -/
structure StageCaches (χ : Type) where
  forwardStore : OrderedDict DedupeKey Tensor
  kvEntries : OrderedDict Bytes ℕ
  entryObjects : List (StageKVCacheEntry χ)

/-- An activation and the cache fields of its metrics. -/
structure ForwardAnswer where
  outputTensor : Tensor
  forwardDedupeHit : Bool := false
  kvCacheCreated : Bool := false
  kvCachePresent : Bool := false
  kvCacheSeqBefore : ℕ := 0
  kvCacheSeqAfter : ℕ := 0
  deriving DecidableEq

/-- The next block of a thread. -/
inductive Phase where
  | arrived
  /-- Not in the store of forwards: to apply the cache policy. -/
  | policy
  /-- To get or create its cache entry. -/
  | acquiring
  /-- To run the partition under the lock of its entry. -/
  | executing (entry : ℕ) (created : Bool)
  /-- To store its activation. -/
  | storing (answer : ForwardAnswer)
  /-- Found in the store: to see whether there is a cache entry. -/
  | hit (output : Tensor)
  /-- To look the entry up once more for its length. -/
  | hitEntry (output : Tensor) (present : Bool)
  | hitLength (output : Tensor) (present : Bool) (entry : Option ℕ)
  | answered (answer : Except HTTPException ForwardAnswer)

structure Thread where
  request : StageForwardRequest
  phase : Phase

structure StageState (χ : Type) where
  caches : StageCaches χ
  threads : List Thread

def emptyStage (χ : Type) : StageState χ := ⟨⟨.empty, .empty, []⟩, []⟩

inductive StageEvent where
  | arrive (request : StageForwardRequest)
  | advance (thread : ℕ)
  deriving DecidableEq

def tensorSequenceLength (tensor : Tensor) : ℕ :=
  match tensor.shape with
  | [] => 0
  | [length] => length
  | [_, length] => length
  | _ :: length :: _ => length

namespace StageForwardRequest

def useTransformerKvCache (request : StageForwardRequest) : Bool :=
  request.featureFlags.kvCacheEnabled && request.generationMode != .legacy

def dedupeKey (sha1Hex : Bytes → Bytes) (request : StageForwardRequest) : DedupeKey where
  requestId := request.requestId
  tokenIndex := request.tokenIndex
  generationMode := request.generationMode
  position := request.cachePositionStart
  digest := sha1Hex request.inputTensor.bytes

def inputTokenCount (request : StageForwardRequest) : ℕ := tensorSequenceLength request.inputTensor

end StageForwardRequest

def validateKvCacheStep (hasTransformerLayers useTransformerKvCache : Bool)
    (generationMode : GenerationMode) (inputTokenCount outputTokenCount kvCacheSeqBefore
      kvCacheSeqAfter : ℕ) : Bool :=
  if !useTransformerKvCache || !hasTransformerLayers then true
  else
    match generationMode with
    | .decode =>
      inputTokenCount == 1 && outputTokenCount == 1 && kvCacheSeqAfter == kvCacheSeqBefore + 1
    | .prefill =>
      decide (0 < inputTokenCount) && outputTokenCount == inputTokenCount &&
        decide (inputTokenCount ≤ kvCacheSeqAfter)
    | .legacy => true

variable {χ : Type}

namespace StageSetup

/-- The limit of both stores. -/
def maxEntries (setup : StageSetup χ) : ℕ := (max 1 setup.cacheEntries).toNat

def executorOf (setup : StageSetup χ) (request : StageForwardRequest) : StageExecutor χ :=
  setup.executor request.featureFlags.rebalanceProfile

end StageSetup

namespace StageCaches

/-- `StageForwardCache.get`. -/
def forwardGet (caches : StageCaches χ) (key : DedupeKey) : Option Tensor × StageCaches χ :=
  (caches.forwardStore.get? key,
    { caches with forwardStore := caches.forwardStore.moveToEnd key })

/-- `StageForwardCache.put`. -/
def forwardPut (maxEntries : ℕ) (caches : StageCaches χ) (key : DedupeKey) (value : Tensor) :
    StageCaches χ :=
  { caches with forwardStore := (caches.forwardStore.putLast key value).trim maxEntries }

/-- `StageKVCacheManager.get`. -/
def kvGet (caches : StageCaches χ) (requestId : Bytes) : Option ℕ × StageCaches χ :=
  (caches.kvEntries.get? requestId,
    { caches with kvEntries := caches.kvEntries.moveToEnd requestId })

/-- `StageKVCacheManager.reset`. -/
def kvReset (caches : StageCaches χ) (requestId : Bytes) : StageCaches χ :=
  { caches with kvEntries := caches.kvEntries.pop requestId }

/-- `StageKVCacheManager.get_or_create`. -/
def kvGetOrCreate (maxEntries : ℕ) (caches : StageCaches χ) (requestId : Bytes) (newCache : χ) :
    (ℕ × Bool) × StageCaches χ :=
  match caches.kvEntries.get? requestId with
  | some entry =>
    ((entry, false), { caches with kvEntries := caches.kvEntries.moveToEnd requestId })
  | none =>
    ((caches.entryObjects.length, true),
      { caches with
        kvEntries :=
          (caches.kvEntries.putLast requestId caches.entryObjects.length).trim maxEntries
        entryObjects := caches.entryObjects ++ [⟨requestId, newCache⟩] })

/-- The cache of an entry object. -/
def cacheAt (caches : StageCaches χ) (entry : ℕ) : Option χ :=
  (caches.entryObjects[entry]?).map (·.cache)

/-- Leave a cache behind in an entry object. -/
def setCache (caches : StageCaches χ) (entry : ℕ) (cache : χ) : StageCaches χ :=
  { caches with
    entryObjects := caches.entryObjects.modify entry fun object => { object with cache := cache } }

end StageCaches

def stageExecutionFailed (message : Bytes) : HTTPException :=
  ⟨500, ascii "Stage execution failed: " ++ message⟩

def noCacheConfig : HTTPException :=
  ⟨400, ascii "KV cache mode is enabled, but this stage partition does not expose a " ++
    ascii "cache-compatible config."⟩

def decodeBeforePrefill (requestId : Bytes) : HTTPException :=
  ⟨409, ascii "Decode request arrived before a prefill KV cache existed for request_id=" ++
    requestId ++ ascii "."⟩

def decodeInvariantFailed (executor : StageExecutor χ) (request : StageForwardRequest)
    (answer : ForwardAnswer) : HTTPException :=
  ⟨500, ascii "KV cache decode invariant failed: mode=" ++ request.generationMode.text ++
    ascii " input_tokens=" ++ decimalNat request.inputTokenCount ++
    ascii " output_tokens=" ++ decimalNat (tensorSequenceLength answer.outputTensor) ++
    ascii " before=" ++ decimalNat answer.kvCacheSeqBefore ++
    ascii " after=" ++ decimalNat answer.kvCacheSeqAfter ++
    ascii " cache_arg=" ++ executor.cacheArgName⟩

/-- The check behind both paths, and the answer. -/
def finish (executor : StageExecutor χ) (request : StageForwardRequest) (answer : ForwardAnswer) :
    Phase :=
  if validateKvCacheStep executor.hasTransformerLayers request.useTransformerKvCache
      request.generationMode request.inputTokenCount (tensorSequenceLength answer.outputTensor)
      answer.kvCacheSeqBefore answer.kvCacheSeqAfter then
    .answered (.ok answer)
  else .answered (.error (decodeInvariantFailed executor request answer))

/-- An executed forward is stored if duplicates are recognised. -/
def executed (executor : StageExecutor χ) (request : StageForwardRequest)
    (answer : ForwardAnswer) : Phase :=
  if request.featureFlags.forwardDedupeEnabled then .storing answer
  else finish executor request answer

/-- The first block of `_execute_stage_forward_with_cache_policy`. -/
def applyPolicy (executor : StageExecutor χ) (request : StageForwardRequest)
    (caches : StageCaches χ) : Phase × StageCaches χ :=
  if !request.useTransformerKvCache then
    match executor.forward request.inputTensor with
    | .ok output => (executed executor request { outputTensor := output }, caches)
    | .error message => (.answered (.error (stageExecutionFailed message)), caches)
  else
    match executor.ensureKvCacheSupported with
    | .error message => (.answered (.error ⟨400, message⟩), caches)
    | .ok () =>
      if !executor.hasCacheConfig then (.answered (.error noCacheConfig), caches)
      else if request.generationMode = .prefill then
        (.acquiring, caches.kvReset request.requestId)
      else
        match caches.kvGet request.requestId with
        | (none, caches) => (.answered (.error (decodeBeforePrefill request.requestId)), caches)
        | (some _, caches) => (.acquiring, caches)

/-- The block under the lock of an entry. -/
def executeLocked (executor : StageExecutor χ) (request : StageForwardRequest) (entry : ℕ)
    (created : Bool) (caches : StageCaches χ) : Phase × StageCaches χ :=
  match caches.cacheAt entry with
  | none => (.executing entry created, caches)
  | some cache =>
    match executor.forwardCached request.inputTensor cache request.cachePositionStart with
    | (.error message, cache') =>
      (.answered (.error (stageExecutionFailed message)), caches.setCache entry cache')
    | (.ok output, cache') =>
      (executed executor request
        { outputTensor := output
          kvCacheCreated := created
          kvCachePresent := true
          kvCacheSeqBefore := executor.getCacheSeqLength cache
          kvCacheSeqAfter := executor.getCacheSeqLength cache' },
        caches.setCache entry cache')

/-- The next block of a thread, with the local work behind it. -/
def advance (setup : StageSetup χ) (request : StageForwardRequest) (caches : StageCaches χ) :
    Phase → Phase × StageCaches χ
  | .arrived =>
    if request.featureFlags.forwardDedupeEnabled then
      match caches.forwardGet (request.dedupeKey setup.sha1Hex) with
      | (some output, caches) =>
        if request.useTransformerKvCache then (.hit output, caches)
        else
          (finish (setup.executorOf request) request
            { outputTensor := output, forwardDedupeHit := true }, caches)
      | (none, caches) => (.policy, caches)
    else (.policy, caches)
  | .policy => applyPolicy (setup.executorOf request) request caches
  | .acquiring =>
    match caches.kvGetOrCreate setup.maxEntries request.requestId
        (setup.executorOf request).newCache with
    | ((entry, created), caches) => (.executing entry created, caches)
  | .executing entry created =>
    executeLocked (setup.executorOf request) request entry created caches
  | .storing answer =>
    (finish (setup.executorOf request) request answer,
      caches.forwardPut setup.maxEntries (request.dedupeKey setup.sha1Hex) answer.outputTensor)
  | .hit output =>
    match caches.kvGet request.requestId with
    | (entry, caches) => (.hitEntry output entry.isSome, caches)
  | .hitEntry output present =>
    match caches.kvGet request.requestId with
    | (entry, caches) => (.hitLength output present entry, caches)
  | .hitLength output present entry =>
    let length := ((entry.bind caches.cacheAt).map
      (setup.executorOf request).firstLayerSeqLength).getD 0
    (finish (setup.executorOf request) request
      { outputTensor := output
        forwardDedupeHit := true
        kvCachePresent := present
        kvCacheSeqBefore := length
        kvCacheSeqAfter := length }, caches)
  | .answered answer => (.answered answer, caches)

/-- The thread has no block left. -/
def Phase.isAnswered : Phase → Bool
  | .answered _ => true
  | _ => false

namespace StageState

/-- A new thread for a request. -/
def arrive (s : StageState χ) (request : StageForwardRequest) : StageState χ :=
  { s with threads := s.threads ++ [⟨request, .arrived⟩] }

/-- The next block of thread number `index`. -/
def advanceThread (setup : StageSetup χ) (s : StageState χ) (index : ℕ) (thread : Thread) :
    StageState χ where
  caches := (advance setup thread.request s.caches thread.phase).2
  threads := s.threads.set index
    ⟨thread.request, (advance setup thread.request s.caches thread.phase).1⟩

end StageState

/-- One step of a stage: a request arrives, or one thread goes on. -/
inductive StageStep (setup : StageSetup χ) : StageState χ → StageEvent → StageState χ → Prop where
  | arrive {s : StageState χ} (request : StageForwardRequest) :
      StageStep setup s (.arrive request) (s.arrive request)
  | advance {s : StageState χ} {index : ℕ} {thread : Thread} :
      s.threads[index]? = some thread → thread.phase.isAnswered = false →
      StageStep setup s (.advance index) (s.advanceThread setup index thread)

/-- The event can happen. -/
def enabled (s : StageState χ) : StageEvent → Bool
  | .arrive _ => true
  | .advance index => (s.threads[index]?).any fun thread => !thread.phase.isAnswered

/-- The stage behind an event that can happen. -/
def applyEvent (setup : StageSetup χ) (s : StageState χ) : StageEvent → StageState χ
  | .arrive request => s.arrive request
  | .advance index =>
    match s.threads[index]? with
    | some thread => s.advanceThread setup index thread
    | none => s

/-- A check holds at every event of a list, each applied to the stage in turn. -/
def allAlong (setup : StageSetup χ) (check : StageState χ → StageEvent → Bool) :
    StageState χ → List StageEvent → Bool
  | _, [] => true
  | s, event :: events => check s event && allAlong setup check (applyEvent setup s event) events

theorem stageStep_applyEvent {setup : StageSetup χ} {s : StageState χ} {event : StageEvent}
    (h : enabled s event = true) : StageStep setup s event (applyEvent setup s event) := by
  cases event with
  | arrive request => exact .arrive request
  | advance index =>
    cases hthread : s.threads[index]? with
    | none =>
      rw [enabled, hthread] at h
      cases h
    | some thread =>
      rw [enabled, hthread, Option.any_some, Bool.not_eq_true'] at h
      rw [applyEvent, hthread]
      exact .advance hthread h

/-- A list of events that pass a check is a run of the steps that it allows. -/
theorem run_foldl {setup : StageSetup χ} {check : StageState χ → StageEvent → Bool}
    {step : StageState χ → StageEvent → StageState χ → Prop}
    (hcheck : ∀ s event, check s event = true → step s event (applyEvent setup s event))
    {start s : StageState χ} {before events : List StageEvent} (hrun : Run step start before s)
    (h : allAlong setup check s events = true) :
    Run step start (before ++ events) (events.foldl (applyEvent setup) s) := by
  induction events generalizing before s with
  | nil =>
    rw [List.append_nil]
    exact hrun
  | cons event events ih =>
    rw [allAlong, Bool.and_eq_true] at h
    have hnext := hrun.next (hcheck s event h.1)
    have hrest := ih hnext h.2
    rw [List.append_assoc] at hrest
    exact hrest

/-- A list of events that can happen is a run of the stage. -/
theorem stageRun_foldl {setup : StageSetup χ} {events : List StageEvent}
    (h : allAlong setup enabled (emptyStage χ) events = true) :
    Run (StageStep setup) (emptyStage χ) events
      (events.foldl (applyEvent setup) (emptyStage χ)) :=
  run_foldl (fun _ _ => stageStep_applyEvent) .start h

/-- One row of token ids. -/
def idsTensor (inputIds : List ℤ) : Tensor :=
  ⟨[1, inputIds.length], inputIds.flatMap fun id => wordBytes 8 (id % 2 ^ 64).toNat⟩

/-- The request that `GenerationLoop.generate` sends for a token. -/
def loopRequest (requestId : Bytes) (featureFlags : FeatureFlags) (inputIds : List ℤ)
    (tokenIndex : ℕ) : StageForwardRequest :=
  let usePrefillDecode := featureFlags.kvCacheEnabled
  let currentSequenceLength := inputIds.length
  if usePrefillDecode && decide (0 < tokenIndex) then
    { requestId := requestId
      tokenIndex := tokenIndex
      generationMode := .decode
      cachePositionStart := some ((currentSequenceLength : ℤ) - 1)
      inputTensor := idsTensor (inputIds.drop (currentSequenceLength - 1))
      featureFlags := featureFlags }
  else
    { requestId := requestId
      tokenIndex := tokenIndex
      generationMode := if usePrefillDecode then .prefill else .legacy
      cachePositionStart := if usePrefillDecode then some 0 else none
      inputTensor := idsTensor inputIds
      featureFlags := featureFlags }

/-- An executor whose cache is the number of positions in it. -/
def tinyExecutor (layers : Bool) : StageExecutor ℕ where
  hasTransformerLayers := layers
  ensureKvCacheSupported := .ok ()
  hasCacheConfig := true
  cacheArgName := ascii "past_key_values"
  newCache := 0
  getCacheSeqLength := id
  firstLayerSeqLength := id
  forward := .ok
  forwardCached input cache _ := (.ok input, cache + tensorSequenceLength input)

/-- A stage whose stores have this limit, with the bytes as their own digest. -/
def tinySetup (layers : Bool) (cacheEntries : ℤ) : StageSetup ℕ :=
  ⟨fun _ => tinyExecutor layers, id, cacheEntries⟩

end LayerInference.PythonStage
