import LayerInference.CausalMaps
import LayerInference.PythonPipeline

/-!
# One frame at one Python stage

A partition sends the row of every position to a row that depends on the
positions up to it. An executor with a cache may then work on the new positions
only. A prefill frame starts a new cache, a decode frame finds the cache of the
frames before, and a legacy frame has none; in each case the stage answers with
the rows that a run over all positions would add. Its caches may hold anything
else beforehand.
-/

namespace LayerInference.PartitionServing

open ByteStrings CausalMaps OrderedDicts PythonPipeline PythonStage

variable {ρ χ : Type}

section Partitions

/-- What a partition computes: how tensors hold rows, what the wire does to a row
on its way in, the rows themselves, and the cache that some rows leave behind. -/
structure StageModel (ρ χ : Type) where
  inFormat : List ρ → Tensor
  outFormat : List ρ → Tensor
  carry : ρ → ρ
  compute : List ρ → List ρ
  cacheOf : List ρ → χ

/-- An executor runs a partition, with a cache and without one. -/
structure Implements (executor : StageExecutor χ) (model : StageModel ρ χ) : Prop where
  causal : Causal model.compute
  supported : executor.ensureKvCacheSupported = .ok ()
  configured : executor.hasCacheConfig = true
  newCache : executor.newCache = model.cacheOf []
  forward : ∀ rows, rows ≠ [] →
    executor.forward (model.inFormat rows) = .ok (model.outFormat (model.compute rows))
  forwardCached : ∀ past new, new ≠ [] →
    executor.forwardCached (model.inFormat new) (model.cacheOf past) (some (past.length : ℤ)) =
      (.ok (model.outFormat (answer model.compute past new)), model.cacheOf (past ++ new))
  cacheLength : ∀ rows, executor.hasTransformerLayers = true →
    executor.getCacheSeqLength (model.cacheOf rows) = rows.length
  inLength : ∀ rows, tensorSequenceLength (model.inFormat rows) = rows.length
  outLength : ∀ rows, tensorSequenceLength (model.outFormat rows) = rows.length

end Partitions

section Frames

/-- The frames of a generation behind `past` positions, with `new` of them. -/
inductive Frame (request : StageForwardRequest) : ℕ → ℕ → Prop where
  | legacy (new : ℕ) : request.useTransformerKvCache = false → Frame request 0 new
  | prefill (new : ℕ) : request.useTransformerKvCache = true → request.generationMode = .prefill →
      request.cachePositionStart = some 0 → Frame request 0 new
  | decode (past : ℕ) : request.useTransformerKvCache = true → request.generationMode = .decode →
      request.cachePositionStart = some (past : ℤ) → Frame request past 1

/-- A frame keeps its kind with another activation. -/
theorem Frame.withTensor {request : StageForwardRequest} {past new : ℕ} (h : Frame request past new)
    (tensor : Tensor) : Frame { request with inputTensor := tensor } past new := by
  cases h with
  | legacy _ hlegacy => exact .legacy _ hlegacy
  | prefill _ huse hmode hposition => exact .prefill _ huse hmode hposition
  | decode _ huse hmode hposition => exact .decode _ huse hmode hposition

/-- No forward of a request is stored from a token on. -/
def Fresh (caches : StageCaches χ) (requestId : Bytes) (tokenIndex : ℤ) : Prop :=
  ∀ key : DedupeKey, key.requestId = requestId → tokenIndex ≤ key.tokenIndex →
    caches.forwardStore.get? key = none

/-- The entry of a request holds a cache. -/
def HoldsCache (caches : StageCaches χ) (requestId : Bytes) (cache : χ) : Prop :=
  ∃ entry, caches.kvEntries.get? requestId = some entry ∧ caches.cacheAt entry = some cache

/-- The caches agree on every entry. -/
structure SameEntries (caches caches' : StageCaches χ) : Prop where
  entries : ∀ requestId, caches'.kvEntries.get? requestId = caches.kvEntries.get? requestId
  objects : caches'.entryObjects = caches.entryObjects

theorem SameEntries.refl (caches : StageCaches χ) : SameEntries caches caches :=
  ⟨fun _ => rfl, rfl⟩

theorem Fresh.mono {caches : StageCaches χ} {requestId : Bytes} {tokenIndex later : ℤ}
    (h : Fresh caches requestId tokenIndex) (hle : tokenIndex ≤ later) :
    Fresh caches requestId later :=
  fun key hkey hlater => h key hkey (hle.trans hlater)

/-- Storing the forward of a token leaves the later ones fresh. -/
theorem Fresh.forwardPut {caches : StageCaches χ} {requestId : Bytes} {tokenIndex : ℤ}
    (h : Fresh caches requestId tokenIndex) (key : DedupeKey) (hkey : key.tokenIndex = tokenIndex)
    (maxEntries : ℕ) (value : Tensor) :
    Fresh (caches.forwardPut maxEntries key value) requestId (tokenIndex + 1) := by
  intro other hother hlater
  cases hget : (caches.forwardPut maxEntries key value).forwardStore.get? other with
  | none => rfl
  | some stored =>
    rcases StageCaches.forwardPut_stored hget with ⟨rfl, -⟩ | hbefore
    · rw [hkey] at hlater
      omega
    · rw [h other hother (by omega)] at hbefore
      cases hbefore

end Frames

section Blocks

variable {setup : StageSetup χ} {request : StageForwardRequest} {caches : StageCaches χ}

theorem maxEntries_pos (setup : StageSetup χ) : 0 < setup.maxEntries := by
  have hmax : (1 : ℤ) ≤ max 1 setup.cacheEntries := le_max_left _ _
  unfold StageSetup.maxEntries
  omega

end Blocks

section Serving

variable {setup : StageSetup χ} {request : StageForwardRequest} {caches : StageCaches χ}
  {model : StageModel ρ χ}

/-- What a served frame leaves behind: the answer with the added rows, later
tokens fresh, and with a cache all positions so far. -/
def Served (model : StageModel ρ χ) (request : StageForwardRequest) (past new : List ρ)
    (result : Except HTTPException ForwardAnswer × StageCaches χ) : Prop :=
  ∃ answered, result.1 = .ok answered ∧
    answered.outputTensor = model.outFormat (answer model.compute past new) ∧
    Fresh result.2 request.requestId (request.tokenIndex + 1) ∧
    (request.useTransformerKvCache = true →
      HoldsCache result.2 request.requestId (model.cacheOf (past ++ new)))

/-- A cache that is there, or made now, is used under its entry. -/
theorem advance_acquiring (setup : StageSetup χ) {past : List ρ}
    (hcache : HoldsCache caches request.requestId (model.cacheOf past) ∨
      (caches.kvEntries.get? request.requestId = none ∧ past = [] ∧
        (setup.executorOf request).newCache = model.cacheOf [])) :
    ∃ entry created caches', PythonStage.advance setup request caches .acquiring =
        (.executing entry created, caches') ∧
      caches'.kvEntries.get? request.requestId = some entry ∧
      caches'.cacheAt entry = some (model.cacheOf past) ∧
      caches'.forwardStore = caches.forwardStore := by
  rcases hcache with ⟨entry, hentry, hcache⟩ | ⟨hnone, rfl, hnewCache⟩
  · refine ⟨entry, false, (caches.kvGet request.requestId).2, ?_, ?_, hcache, rfl⟩
    · rw [PythonStage.advance, StageCaches.kvGetOrCreate_present hentry]
    · rw [StageCaches.kvGet_entries, hentry]
  · refine ⟨caches.entryObjects.length, true,
      { caches with
        kvEntries := (caches.kvEntries.putLast request.requestId
          caches.entryObjects.length).trim setup.maxEntries
        entryObjects := caches.entryObjects ++
          [⟨request.requestId, (setup.executorOf request).newCache⟩] }, ?_, ?_, ?_, rfl⟩
    · rw [PythonStage.advance, StageCaches.kvGetOrCreate_absent hnone]
    · exact OrderedDict.get?_trim_putLast (maxEntries_pos setup) _ _ _
    · rw [StageCaches.cacheAt, List.getElem?_concat_length, Option.map_some, hnewCache]

end Serving

end LayerInference.PartitionServing
