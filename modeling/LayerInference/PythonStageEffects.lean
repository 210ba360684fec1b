import LayerInference.PythonStage

/-!
# What a thread of a Python stage can change

Entry objects belong to one request id, and a thread works on entries of its
own id only. A block therefore leaves the caches of other ids as they are,
except that it may evict their entries. The ownership is an invariant of the
stage, for any requests in any order.
-/

namespace LayerInference.PythonStage

open ByteStrings OrderedDicts Runs

variable {χ : Type}

namespace StageCaches

/-- An entry object exists and was made for this request id. -/
def Owns (caches : StageCaches χ) (requestId : Bytes) (entry : ℕ) : Prop :=
  ∃ object, caches.entryObjects[entry]? = some object ∧ object.requestId = requestId

/-- The table lists every entry under its own request id. -/
def WellFormed (caches : StageCaches χ) : Prop :=
  ∀ requestId entry, caches.kvEntries.get? requestId = some entry → caches.Owns requestId entry

/-- What a block of a request does to the caches of the others. -/
structure Effect (requestId : Bytes) (before after : StageCaches χ) : Prop where
  grows : ∀ (entry : ℕ) (object : StageKVCacheEntry χ), before.entryObjects[entry]? = some object →
    ∃ object', after.entryObjects[entry]? = some object' ∧
      object'.requestId = object.requestId ∧ (object.requestId ≠ requestId → object' = object)
  listed : ∀ other entry, after.kvEntries.get? other = some entry →
    before.kvEntries.get? other = some entry ∨ (other = requestId ∧ after.Owns requestId entry)
  stored : ∀ key : DedupeKey, key.requestId ≠ requestId →
    after.forwardStore.get? key = none ∨
      after.forwardStore.get? key = before.forwardStore.get? key

variable {caches caches' : StageCaches χ} {requestId : Bytes}

theorem Effect.refl (requestId : Bytes) (caches : StageCaches χ) :
    Effect requestId caches caches where
  grows _ object hobject := ⟨object, hobject, rfl, fun _ => rfl⟩
  listed _ _ := Or.inl
  stored _ _ := Or.inr rfl

/-- An entry keeps its owner. -/
theorem Effect.owns (h : Effect requestId caches caches') {owner : Bytes} {entry : ℕ}
    (howns : caches.Owns owner entry) : caches'.Owns owner entry := by
  obtain ⟨object, hobject, howner⟩ := howns
  obtain ⟨object', hobject', howner', -⟩ := h.grows entry object hobject
  exact ⟨object', hobject', howner'.trans howner⟩

/-- The cache of another owner stays. -/
theorem Effect.cacheAt (h : Effect requestId caches caches') {owner : Bytes} {entry : ℕ}
    (howns : caches.Owns owner entry) (hne : owner ≠ requestId) :
    caches'.cacheAt entry = caches.cacheAt entry := by
  obtain ⟨object, hobject, howner⟩ := howns
  obtain ⟨object', hobject', -, hsame⟩ := h.grows entry object hobject
  have heq : object' = object := hsame (howner ▸ hne)
  simp only [StageCaches.cacheAt, hobject, hobject', heq]

/-- The table of the others keeps or loses their entries. -/
theorem Effect.entry (h : Effect requestId caches caches') {other : Bytes} {entry : ℕ}
    (hne : other ≠ requestId) (hlisted : caches'.kvEntries.get? other = some entry) :
    caches.kvEntries.get? other = some entry := by
  rcases h.listed other entry hlisted with hbefore | ⟨heq, -⟩
  · exact hbefore
  · exact absurd heq hne

theorem Effect.wellFormed (h : Effect requestId caches caches') (hwf : caches.WellFormed) :
    caches'.WellFormed := by
  intro other entry hlisted
  rcases h.listed other entry hlisted with hbefore | ⟨heq, howns⟩
  · exact h.owns (hwf other entry hbefore)
  · exact heq ▸ howns

theorem Owns.cacheAt {entry : ℕ} (h : caches.Owns requestId entry) :
    ∃ cache, caches.cacheAt entry = some cache := by
  obtain ⟨object, hobject, -⟩ := h
  exact ⟨object.cache, by simp only [StageCaches.cacheAt, hobject, Option.map_some]⟩

/-- Looking at one table changes no entry object. -/
theorem effect_of_objects (hobjects : caches'.entryObjects = caches.entryObjects)
    (hlisted : ∀ other entry, caches'.kvEntries.get? other = some entry →
      caches.kvEntries.get? other = some entry)
    (hstored : ∀ key : DedupeKey, key.requestId ≠ requestId →
      caches'.forwardStore.get? key = none ∨
        caches'.forwardStore.get? key = caches.forwardStore.get? key) :
    Effect requestId caches caches' where
  grows entry object hobject := ⟨object, by rw [hobjects, hobject], rfl, fun _ => rfl⟩
  listed other entry h := Or.inl (hlisted other entry h)
  stored := hstored

section Methods

@[simp] theorem forwardGet_fst (key : DedupeKey) :
    (caches.forwardGet key).1 = caches.forwardStore.get? key := rfl

theorem effect_forwardGet (requestId : Bytes) (key : DedupeKey) :
    Effect requestId caches (caches.forwardGet key).2 :=
  effect_of_objects rfl (fun _ _ => id) fun other _ =>
    Or.inr (OrderedDict.get?_moveToEnd _ key other)

@[simp] theorem forwardGet_stored (key other : DedupeKey) :
    (caches.forwardGet key).2.forwardStore.get? other = caches.forwardStore.get? other :=
  OrderedDict.get?_moveToEnd _ key other

@[simp] theorem forwardGet_kvEntries (key : DedupeKey) :
    (caches.forwardGet key).2.kvEntries = caches.kvEntries := rfl

@[simp] theorem forwardGet_entryObjects (key : DedupeKey) :
    (caches.forwardGet key).2.entryObjects = caches.entryObjects := rfl

theorem effect_forwardPut (maxEntries : ℕ) (key : DedupeKey) (value : Tensor) :
    Effect key.requestId caches (caches.forwardPut maxEntries key value) := by
  refine effect_of_objects rfl (fun _ _ => id) fun other hother => ?_
  have hne : other ≠ key := fun heq => hother (congrArg DedupeKey.requestId heq)
  rw [← OrderedDict.get?_putLast_other caches.forwardStore value hne]
  exact OrderedDict.get?_trim maxEntries _ other

@[simp] theorem forwardPut_kvEntries (maxEntries : ℕ) (key : DedupeKey) (value : Tensor) :
    (caches.forwardPut maxEntries key value).kvEntries = caches.kvEntries := rfl

@[simp] theorem forwardPut_entryObjects (maxEntries : ℕ) (key : DedupeKey) (value : Tensor) :
    (caches.forwardPut maxEntries key value).entryObjects = caches.entryObjects := rfl

/-- What is in the store after a `put` was there, or is the new value. -/
theorem forwardPut_stored {maxEntries : ℕ} {key other : DedupeKey} {value stored : Tensor}
    (h : (caches.forwardPut maxEntries key value).forwardStore.get? other = some stored) :
    (other = key ∧ stored = value) ∨ caches.forwardStore.get? other = some stored := by
  have hput : (caches.forwardStore.putLast key value).get? other = some stored :=
    OrderedDict.get?_of_trim h
  by_cases heq : other = key
  · rw [heq, OrderedDict.get?_putLast_self] at hput
    exact Or.inl ⟨heq, (Option.some.inj hput).symm⟩
  · rw [OrderedDict.get?_putLast_other _ value heq] at hput
    exact Or.inr hput

@[simp] theorem kvGet_fst (requestId : Bytes) :
    (caches.kvGet requestId).1 = caches.kvEntries.get? requestId := rfl

@[simp] theorem kvGet_entries (requestId other : Bytes) :
    (caches.kvGet requestId).2.kvEntries.get? other = caches.kvEntries.get? other :=
  OrderedDict.get?_moveToEnd _ requestId other

@[simp] theorem kvGet_forwardStore (requestId : Bytes) :
    (caches.kvGet requestId).2.forwardStore = caches.forwardStore := rfl

@[simp] theorem kvGet_entryObjects (requestId : Bytes) :
    (caches.kvGet requestId).2.entryObjects = caches.entryObjects := rfl

theorem effect_kvGet (requestId : Bytes) :
    Effect requestId caches (caches.kvGet requestId).2 :=
  effect_of_objects rfl (fun other _ h => (kvGet_entries requestId other).symm.trans h)
    fun _ _ => Or.inr rfl

@[simp] theorem kvReset_self (requestId : Bytes) :
    (caches.kvReset requestId).kvEntries.get? requestId = none :=
  OrderedDict.get?_pop_self _ requestId

theorem effect_kvReset (requestId : Bytes) :
    Effect requestId caches (caches.kvReset requestId) := by
  refine effect_of_objects rfl (fun other entry hlisted => ?_) fun _ _ => Or.inr rfl
  by_cases heq : other = requestId
  · subst heq
    rw [kvReset_self] at hlisted
    cases hlisted
  · exact (OrderedDict.get?_pop_other _ heq).symm.trans hlisted

/-- An entry that is there is used. -/
theorem kvGetOrCreate_present {maxEntries entry : ℕ} {newCache : χ}
    (h : caches.kvEntries.get? requestId = some entry) :
    caches.kvGetOrCreate maxEntries requestId newCache =
      ((entry, false), (caches.kvGet requestId).2) := by
  unfold kvGetOrCreate kvGet
  rw [h]

/-- Without an entry a new one is made and listed last. -/
theorem kvGetOrCreate_absent {maxEntries : ℕ} {newCache : χ}
    (h : caches.kvEntries.get? requestId = none) :
    caches.kvGetOrCreate maxEntries requestId newCache =
      ((caches.entryObjects.length, true),
        { caches with
          kvEntries :=
            (caches.kvEntries.putLast requestId caches.entryObjects.length).trim maxEntries
          entryObjects := caches.entryObjects ++ [⟨requestId, newCache⟩] }) := by
  unfold kvGetOrCreate
  rw [h]

theorem effect_kvGetOrCreate (maxEntries : ℕ) (newCache : χ) (requestId : Bytes) :
    Effect requestId caches (caches.kvGetOrCreate maxEntries requestId newCache).2 := by
  cases hget : caches.kvEntries.get? requestId with
  | some entry =>
    rw [kvGetOrCreate_present hget]
    exact effect_kvGet requestId
  | none =>
    rw [kvGetOrCreate_absent hget]
    constructor
    · intro entry object hobject
      have hlt : entry < caches.entryObjects.length := (List.getElem?_eq_some_iff.mp hobject).1
      exact ⟨object, by rw [List.getElem?_append_left hlt, hobject], rfl, fun _ => rfl⟩
    · intro other entry hlisted
      have hput := OrderedDict.get?_of_trim hlisted
      by_cases heq : other = requestId
      · rw [heq, OrderedDict.get?_putLast_self] at hput
        have hentry : caches.entryObjects.length = entry := Option.some.inj hput
        exact Or.inr ⟨heq, ⟨requestId, newCache⟩, hentry ▸ List.getElem?_concat_length, rfl⟩
      · exact Or.inl ((OrderedDict.get?_putLast_other _ _ heq).symm.trans hput)
    · exact fun _ _ => Or.inr rfl

/-- What the table lists for a request after `get_or_create` is the entry that
was returned. -/
theorem kvGetOrCreate_listed {maxEntries entry : ℕ} {newCache : χ}
    (h : (caches.kvGetOrCreate maxEntries requestId newCache).2.kvEntries.get? requestId =
      some entry) :
    (caches.kvGetOrCreate maxEntries requestId newCache).1.1 = entry := by
  cases hget : caches.kvEntries.get? requestId with
  | some found =>
    rw [kvGetOrCreate_present hget] at h ⊢
    rw [kvGet_entries, hget] at h
    exact Option.some.inj h
  | none =>
    rw [kvGetOrCreate_absent hget] at h ⊢
    have hput := OrderedDict.get?_of_trim h
    rw [OrderedDict.get?_putLast_self] at hput
    exact Option.some.inj hput

/-- The returned entry belongs to the request. -/
theorem kvGetOrCreate_owns (hwf : caches.WellFormed) (maxEntries : ℕ) (newCache : χ)
    (requestId : Bytes) :
    (caches.kvGetOrCreate maxEntries requestId newCache).2.Owns requestId
      (caches.kvGetOrCreate maxEntries requestId newCache).1.1 := by
  cases hget : caches.kvEntries.get? requestId with
  | some entry =>
    rw [kvGetOrCreate_present hget]
    exact hwf requestId entry hget
  | none =>
    rw [kvGetOrCreate_absent hget]
    exact ⟨⟨requestId, newCache⟩, List.getElem?_concat_length, rfl⟩

theorem cacheAt_setCache_self {entry : ℕ} (howns : caches.Owns requestId entry) (cache : χ) :
    (caches.setCache entry cache).cacheAt entry = some cache := by
  obtain ⟨object, hobject, -⟩ := howns
  simp only [StageCaches.cacheAt, setCache, List.getElem?_modify_eq, hobject, Option.map_eq_map,
    Option.map_some]

theorem effect_setCache {entry : ℕ} (howns : caches.Owns requestId entry) (cache : χ) :
    Effect requestId caches (caches.setCache entry cache) := by
  obtain ⟨owned, howned, howner⟩ := howns
  constructor
  · intro other object hobject
    by_cases heq : entry = other
    · subst heq
      have hsame : object = owned := Option.some.inj (hobject.symm.trans howned)
      refine ⟨{ object with cache := cache }, ?_, rfl, fun hne => ?_⟩
      · simp only [setCache, List.getElem?_modify_eq, hobject, Option.map_eq_map, Option.map_some]
      · exact absurd (hsame ▸ howner) hne
    · refine ⟨object, ?_, rfl, fun _ => rfl⟩
      simp only [setCache, List.getElem?_modify, if_neg heq, hobject, id_map']
  · exact fun _ _ => Or.inl
  · exact fun _ _ => Or.inr rfl

end Methods

end StageCaches

/-- The entry object that a thread refers to. -/
def Phase.heldEntry : Phase → Option ℕ
  | .executing entry _ => some entry
  | .hitLength _ _ entry => entry
  | _ => none

/-- The next block is one of the key-value path. -/
def Phase.usesCache : Phase → Bool
  | .acquiring | .executing _ _ | .hit _ | .hitEntry _ _ | .hitLength _ _ _ => true
  | _ => false

/-- A thread refers to entries of its own request id only. -/
def Thread.Holds (thread : Thread) (caches : StageCaches χ) : Prop :=
  ∀ entry, thread.phase.heldEntry = some entry → caches.Owns thread.request.requestId entry

open StageCaches

theorem finish_heldEntry (executor : StageExecutor χ) (request : StageForwardRequest)
    (answer : ForwardAnswer) : (finish executor request answer).heldEntry = none := by
  unfold finish
  split <;> rfl

theorem executed_heldEntry (executor : StageExecutor χ) (request : StageForwardRequest)
    (answer : ForwardAnswer) : (executed executor request answer).heldEntry = none := by
  unfold executed
  split
  · rfl
  · exact finish_heldEntry executor request answer

section Advance

variable {setup : StageSetup χ} {caches : StageCaches χ} {thread : Thread}

theorem effect_applyPolicy (executor : StageExecutor χ) (request : StageForwardRequest)
    (caches : StageCaches χ) :
    Effect request.requestId caches (applyPolicy executor request caches).2 := by
  unfold applyPolicy
  split
  · split <;> exact Effect.refl _ _
  · split
    · exact Effect.refl _ _
    · split
      · exact Effect.refl _ _
      · split
        · exact effect_kvReset _
        · have h : Effect request.requestId caches (caches.kvGet request.requestId).2 :=
            effect_kvGet _
          cases hget : caches.kvGet request.requestId with
          | mk entry caches' =>
            rw [hget] at h
            cases entry <;> exact h

theorem effect_executeLocked (executor : StageExecutor χ) (request : StageForwardRequest)
    {entry : ℕ} (created : Bool) (howns : caches.Owns request.requestId entry) :
    Effect request.requestId caches (executeLocked executor request entry created caches).2 := by
  unfold executeLocked
  split
  · exact Effect.refl _ _
  · split <;> exact effect_setCache howns _

/-- A block changes the caches of its own request id only. -/
theorem effect_advance (setup : StageSetup χ) (hholds : thread.Holds caches) :
    Effect thread.request.requestId caches
      (PythonStage.advance setup thread.request caches thread.phase).2 := by
  obtain ⟨request, phase⟩ := thread
  cases phase with
  | arrived =>
    simp only [PythonStage.advance]
    split
    · have h : Effect request.requestId caches
          (caches.forwardGet (request.dedupeKey setup.sha1Hex)).2 := effect_forwardGet _ _
      cases hget : caches.forwardGet (request.dedupeKey setup.sha1Hex) with
      | mk output caches' =>
        rw [hget] at h
        cases output with
        | none => exact h
        | some output =>
          dsimp only
          split <;> exact h
    · exact Effect.refl _ _
  | policy => exact effect_applyPolicy _ _ _
  | acquiring => exact effect_kvGetOrCreate _ _ _
  | executing entry created =>
    exact effect_executeLocked _ _ created (hholds entry rfl)
  | storing answer => exact effect_forwardPut _ (request.dedupeKey setup.sha1Hex) _
  | hit output => exact effect_kvGet _
  | hitEntry output present => exact effect_kvGet _
  | hitLength output present entry => exact Effect.refl _ _
  | answered answer => exact Effect.refl _ _

theorem applyPolicy_heldEntry (executor : StageExecutor χ) (request : StageForwardRequest)
    (caches : StageCaches χ) : (applyPolicy executor request caches).1.heldEntry = none := by
  unfold applyPolicy
  split
  · split
    · exact executed_heldEntry executor request _
    · rfl
  · split
    · rfl
    · split
      · rfl
      · split
        · rfl
        · cases hget : caches.kvGet request.requestId with
          | mk entry caches' => cases entry <;> rfl

/-- A block refers to entries of its own request id again. -/
theorem holds_advance (setup : StageSetup χ) (hwf : caches.WellFormed)
    (hholds : thread.Holds caches) :
    Thread.Holds ⟨thread.request, (PythonStage.advance setup thread.request caches thread.phase).1⟩
      (PythonStage.advance setup thread.request caches thread.phase).2 := by
  have heffect := effect_advance setup hholds
  obtain ⟨request, phase⟩ := thread
  have hclosed : ∀ {next : Phase} {caches' : StageCaches χ}, next.heldEntry = none →
      Thread.Holds ⟨request, next⟩ caches' := by
    intro next caches' hnone entry hentry
    rw [hnone] at hentry
    cases hentry
  cases phase with
  | arrived =>
    simp only [PythonStage.advance]
    split
    · cases hget : caches.forwardGet (request.dedupeKey setup.sha1Hex) with
      | mk output caches' =>
        cases output with
        | none => exact hclosed rfl
        | some output =>
          dsimp only
          split
          · exact hclosed rfl
          · exact hclosed (finish_heldEntry _ _ _)
    · exact hclosed rfl
  | policy => exact hclosed (applyPolicy_heldEntry _ _ _)
  | acquiring =>
    intro entry hentry
    have heq := Option.some.inj hentry
    rw [← heq]
    exact kvGetOrCreate_owns hwf _ _ _
  | executing entry created =>
    intro other hother
    have hown : other = entry := by
      revert hother
      simp only [PythonStage.advance, executeLocked]
      split
      · exact fun h => (Option.some.inj h).symm
      · split
        · exact fun h => by cases h
        · exact fun h => by rw [executed_heldEntry] at h; cases h
    rw [hown]
    exact heffect.owns (hholds entry rfl)
  | storing answer => exact hclosed (finish_heldEntry _ _ _)
  | hit output => exact hclosed rfl
  | hitEntry output present =>
    intro entry hentry
    exact heffect.owns (hwf request.requestId entry hentry)
  | hitLength output present entry => exact hclosed (finish_heldEntry _ _ _)
  | answered answer => exact hclosed rfl

theorem finish_answered (executor : StageExecutor χ) (request : StageForwardRequest)
    (answer : ForwardAnswer) : (finish executor request answer).isAnswered = true := by
  unfold finish
  split <;> rfl

theorem executed_cases (executor : StageExecutor χ) (request : StageForwardRequest)
    (answer : ForwardAnswer) :
    executed executor request answer = .storing answer ∨
      executed executor request answer = finish executor request answer := by
  unfold executed
  split
  · exact Or.inl rfl
  · exact Or.inr rfl

/-- A request off the key-value path is executed by itself. -/
theorem applyPolicy_plain (executor : StageExecutor χ) {request : StageForwardRequest}
    (caches : StageCaches χ) (h : request.useTransformerKvCache = false) :
    ((∃ output, (applyPolicy executor request caches).1 =
        executed executor request { outputTensor := output }) ∨
      ∃ message, (applyPolicy executor request caches).1 =
        .answered (.error (stageExecutionFailed message))) ∧
    (applyPolicy executor request caches).2 = caches := by
  unfold applyPolicy
  rw [h]
  cases hforward : executor.forward request.inputTensor with
  | ok output => exact ⟨Or.inl ⟨output, rfl⟩, rfl⟩
  | error message => exact ⟨Or.inr ⟨message, rfl⟩, rfl⟩

/-- On the key-value path a request is turned away, or it goes on to its entry:
a prefill without one, a decode request with the one it found. -/
theorem applyPolicy_cached (executor : StageExecutor χ) {request : StageForwardRequest}
    (caches : StageCaches χ) (h : request.useTransformerKvCache = true) :
    (∃ exception, (applyPolicy executor request caches).1 = .answered (.error exception)) ∨
      (request.generationMode = .prefill ∧
        applyPolicy executor request caches = (.acquiring, caches.kvReset request.requestId)) ∨
      (request.generationMode ≠ .prefill ∧
        (∃ entry, caches.kvEntries.get? request.requestId = some entry) ∧
        applyPolicy executor request caches =
          (.acquiring, (caches.kvGet request.requestId).2)) := by
  unfold applyPolicy
  rw [h]
  cases hsupported : executor.ensureKvCacheSupported with
  | error message => exact Or.inl ⟨_, rfl⟩
  | ok _ =>
    cases hconfig : executor.hasCacheConfig with
    | false => exact Or.inl ⟨_, rfl⟩
    | true =>
      by_cases hmode : request.generationMode = .prefill
      · refine Or.inr (Or.inl ⟨hmode, ?_⟩)
        simp only [Bool.not_true, Bool.false_eq_true, if_false, if_pos hmode]
      · simp only [Bool.not_true, Bool.false_eq_true, if_false, if_neg hmode]
        cases hget : caches.kvGet request.requestId with
        | mk entry caches' =>
          have hentry : caches.kvEntries.get? request.requestId = entry := congrArg Prod.fst hget
          cases entry with
          | none => exact Or.inl ⟨_, rfl⟩
          | some entry => exact Or.inr (Or.inr ⟨hmode, ⟨entry, hentry⟩, rfl⟩)

theorem applyPolicy_forwardStore (executor : StageExecutor χ) (request : StageForwardRequest)
    (caches : StageCaches χ) :
    (applyPolicy executor request caches).2.forwardStore = caches.forwardStore := by
  unfold applyPolicy
  split
  · split <;> rfl
  · split
    · rfl
    · split
      · rfl
      · split
        · rfl
        · have h : (caches.kvGet request.requestId).2.forwardStore = caches.forwardStore :=
            kvGet_forwardStore _
          cases hget : caches.kvGet request.requestId with
          | mk entry caches' =>
            rw [hget] at h
            cases entry <;> exact h

/-- The first block of a thread that may look for a duplicate. -/
theorem advance_arrived (setup : StageSetup χ) (request : StageForwardRequest)
    (caches : StageCaches χ) :
    (PythonStage.advance setup request caches .arrived = (.policy, caches)) ∨
      (PythonStage.advance setup request caches .arrived =
          (.policy, (caches.forwardGet (request.dedupeKey setup.sha1Hex)).2) ∧
        caches.forwardStore.get? (request.dedupeKey setup.sha1Hex) = none) ∨
      ∃ output next, PythonStage.advance setup request caches .arrived =
          (next, (caches.forwardGet (request.dedupeKey setup.sha1Hex)).2) ∧
        caches.forwardStore.get? (request.dedupeKey setup.sha1Hex) = some output ∧
        request.featureFlags.forwardDedupeEnabled = true ∧
        next = if request.useTransformerKvCache then .hit output
          else finish (setup.executorOf request) request
            { outputTensor := output, forwardDedupeHit := true } := by
  simp only [PythonStage.advance]
  split
  · next hdedupe =>
    cases hget : caches.forwardGet (request.dedupeKey setup.sha1Hex) with
    | mk found caches' =>
      have hfound : caches.forwardStore.get? (request.dedupeKey setup.sha1Hex) = found :=
        congrArg Prod.fst hget
      cases found with
      | none => exact Or.inr (Or.inl ⟨rfl, hfound⟩)
      | some output =>
        refine Or.inr (Or.inr ⟨output, _, ?_, hfound, hdedupe, rfl⟩)
        dsimp only
        split <;> rfl
  · exact Or.inl rfl

/-- What a block leaves in the store was there, or it is what the thread had to
store. -/
theorem advance_stored {request : StageForwardRequest} {phase : Phase} {key : DedupeKey}
    {value : Tensor}
    (h : (PythonStage.advance setup request caches phase).2.forwardStore.get? key = some value) :
    (key = request.dedupeKey setup.sha1Hex ∧
        ∃ answer, phase = .storing answer ∧ value = answer.outputTensor) ∨
      caches.forwardStore.get? key = some value := by
  cases phase with
  | arrived =>
    right
    rcases advance_arrived setup request caches with heq | ⟨heq, -⟩ | ⟨output, next, heq, -⟩
    · rw [heq] at h
      exact h
    · rw [heq, forwardGet_stored] at h
      exact h
    · rw [heq, forwardGet_stored] at h
      exact h
  | policy =>
    right
    rw [← applyPolicy_forwardStore (setup.executorOf request) request caches]
    exact h
  | acquiring =>
    right
    have hstore : (caches.kvGetOrCreate setup.maxEntries request.requestId
        (setup.executorOf request).newCache).2.forwardStore = caches.forwardStore := by
      unfold kvGetOrCreate
      split <;> rfl
    rw [← hstore]
    exact h
  | executing entry created =>
    right
    revert h
    simp only [PythonStage.advance, executeLocked]
    split
    · exact id
    · split <;> exact id
  | storing answer =>
    rcases forwardPut_stored h with ⟨hkey, hvalue⟩ | hold
    · exact Or.inl ⟨hkey, answer, rfl, hvalue⟩
    · exact Or.inr hold
  | hit output => exact Or.inr h
  | hitEntry output present => exact Or.inr h
  | hitLength output present entry => exact Or.inr h
  | answered answer => exact Or.inr h

/-- A thread arrives once. -/
theorem advance_ne_arrived (setup : StageSetup χ) (request : StageForwardRequest)
    (caches : StageCaches χ) {phase : Phase} (hphase : phase.isAnswered = false) :
    (PythonStage.advance setup request caches phase).1 ≠ .arrived := by
  have hfinish : ∀ {next : Phase}, next.isAnswered = true → next ≠ .arrived := by
    intro next hnext heq
    rw [heq] at hnext
    cases hnext
  have hexecuted : ∀ answer, executed (setup.executorOf request) request answer ≠ .arrived := by
    intro answer
    rcases executed_cases (setup.executorOf request) request answer with heq | heq
    · rw [heq]
      exact fun h => by cases h
    · rw [heq]
      exact hfinish (finish_answered _ _ _)
  cases phase with
  | arrived =>
    rcases advance_arrived setup request caches with
      heq | ⟨heq, -⟩ | ⟨output, next, heq, -, -, hnext⟩
    · rw [heq]
      exact fun h => by cases h
    · rw [heq]
      exact fun h => by cases h
    · rw [heq, hnext]
      split
      · exact fun h => by cases h
      · exact hfinish (finish_answered _ _ _)
  | policy =>
    simp only [PythonStage.advance, applyPolicy]
    split
    · split
      · exact hexecuted _
      · exact hfinish rfl
    · split
      · exact hfinish rfl
      · split
        · exact hfinish rfl
        · split
          · exact fun h => by cases h
          · cases hget : caches.kvGet request.requestId with
            | mk entry caches' => cases entry <;> exact fun h => by cases h
  | acquiring => exact fun h => by cases h
  | executing entry created =>
    simp only [PythonStage.advance, executeLocked]
    split
    · exact fun h => by cases h
    · split
      · exact hfinish rfl
      · exact hexecuted _
  | storing answer => exact hfinish (finish_answered _ _ _)
  | hit output => exact fun h => by cases h
  | hitEntry output present => exact fun h => by cases h
  | hitLength output present entry => exact hfinish (finish_answered _ _ _)
  | answered answer => cases hphase

/-- A thread off the key-value path leaves its caches alone. -/
theorem advance_plain (setup : StageSetup χ) (caches : StageCaches χ) {request : StageForwardRequest} {phase : Phase}
    (huses : request.useTransformerKvCache = false) (hphase : phase.usesCache = false) :
    (PythonStage.advance setup request caches phase).1.usesCache = false ∧
      (PythonStage.advance setup request caches phase).2.kvEntries = caches.kvEntries ∧
      (PythonStage.advance setup request caches phase).2.entryObjects = caches.entryObjects := by
  have hfinish : ∀ answer,
      (finish (setup.executorOf request) request answer).usesCache = false := by
    intro answer
    unfold finish
    split <;> rfl
  cases phase with
  | arrived =>
    rcases advance_arrived setup request caches with
      heq | ⟨heq, -⟩ | ⟨output, next, heq, -, -, hnext⟩
    · rw [heq]
      exact ⟨rfl, rfl, rfl⟩
    · rw [heq]
      exact ⟨rfl, rfl, rfl⟩
    · rw [heq, hnext, huses]
      exact ⟨hfinish _, rfl, rfl⟩
  | policy =>
    simp only [PythonStage.advance]
    obtain ⟨hnext, hcaches⟩ := applyPolicy_plain (setup.executorOf request) caches huses
    rw [hcaches]
    refine ⟨?_, rfl, rfl⟩
    rcases hnext with ⟨output, heq⟩ | ⟨message, heq⟩
    · rw [heq]
      rcases executed_cases (setup.executorOf request) request { outputTensor := output } with
        hstoring | hdone
      · rw [hstoring]
        rfl
      · rw [hdone]
        exact hfinish _
    · rw [heq]
      rfl
  | storing answer => exact ⟨hfinish _, rfl, rfl⟩
  | answered answer => exact ⟨rfl, rfl, rfl⟩
  | acquiring => cases hphase
  | executing entry created => cases hphase
  | hit output => cases hphase
  | hitEntry output present => cases hphase
  | hitLength output present entry => cases hphase

end Advance

/-- The invariant of every stage: entries and threads by request id. -/
structure StageState.Consistent (s : StageState χ) : Prop where
  wellFormed : s.caches.WellFormed
  holds : ∀ (index : ℕ) (thread : Thread), s.threads[index]? = some thread →
    thread.Holds s.caches

theorem consistent_emptyStage : (emptyStage χ).Consistent where
  wellFormed requestId entry h := by cases h
  holds index thread h := by cases h

section Threads

variable {s : StageState χ} {index other : ℕ} {thread : Thread} {request : StageForwardRequest}

/-- A thread of a stage behind an arrival is an old one or the new one. -/
theorem arrive_thread (h : (s.arrive request).threads[other]? = some thread) :
    s.threads[other]? = some thread ∨
      (other = s.threads.length ∧ thread = ⟨request, .arrived⟩) := by
  unfold StageState.arrive at h
  rcases Nat.lt_or_ge other s.threads.length with hlt | hge
  · exact Or.inl ((List.getElem?_append_left hlt).symm.trans h)
  · rw [List.getElem?_append_right hge, List.getElem?_singleton] at h
    split at h
    · next hzero => exact Or.inr ⟨by omega, (Option.some.inj h).symm⟩
    · cases h

theorem arrive_old (h : s.threads[other]? = some thread) :
    (s.arrive request).threads[other]? = some thread := by
  have hlt : other < s.threads.length := (List.getElem?_eq_some_iff.mp h).1
  exact (List.getElem?_append_left hlt).trans h

theorem arrive_new (s : StageState χ) (request : StageForwardRequest) :
    (s.arrive request).threads[s.threads.length]? = some ⟨request, .arrived⟩ :=
  List.getElem?_concat_length

/-- A thread of a stage behind a block is the one that ran it or an old one. -/
theorem advanceThread_thread {setup : StageSetup χ} {ran : Thread}
    (hran : s.threads[index]? = some ran)
    (h : (s.advanceThread setup index ran).threads[other]? = some thread) :
    (other = index ∧
        thread = ⟨ran.request, (advance setup ran.request s.caches ran.phase).1⟩) ∨
      (other ≠ index ∧ s.threads[other]? = some thread) := by
  have hlt : index < s.threads.length := (List.getElem?_eq_some_iff.mp hran).1
  unfold StageState.advanceThread at h
  by_cases heq : other = index
  · subst heq
    rw [List.getElem?_set_self hlt] at h
    exact Or.inl ⟨rfl, (Option.some.inj h).symm⟩
  · rw [List.getElem?_set_ne (Ne.symm heq)] at h
    exact Or.inr ⟨heq, h⟩

theorem advanceThread_self (setup : StageSetup χ) {ran : Thread}
    (hran : s.threads[index]? = some ran) :
    (s.advanceThread setup index ran).threads[index]? =
      some ⟨ran.request, (advance setup ran.request s.caches ran.phase).1⟩ :=
  List.getElem?_set_self (List.getElem?_eq_some_iff.mp hran).1

theorem advanceThread_other {setup : StageSetup χ} {ran : Thread} (hne : other ≠ index) :
    (s.advanceThread setup index ran).threads[other]? = s.threads[other]? :=
  List.getElem?_set_ne (Ne.symm hne)

/-- Behind a block every thread still has its request. -/
theorem advanceThread_request {setup : StageSetup χ} {ran : Thread}
    (hran : s.threads[index]? = some ran)
    (h : (s.advanceThread setup index ran).threads[other]? = some thread) :
    ∃ old : Thread, s.threads[other]? = some old ∧ old.request = thread.request := by
  rcases advanceThread_thread hran h with ⟨rfl, rfl⟩ | ⟨-, hold⟩
  · exact ⟨ran, hran, rfl⟩
  · exact ⟨thread, hold, rfl⟩

/-- A block changes no request. -/
theorem advanceThread_requests {setup : StageSetup χ} {ran : Thread}
    (hran : s.threads[index]? = some ran) :
    (s.advanceThread setup index ran).threads.map (·.request) = s.threads.map (·.request) := by
  refine List.ext_getElem? fun other => ?_
  rw [List.getElem?_map, List.getElem?_map]
  by_cases heq : other = index
  · subst heq
    rw [advanceThread_self setup hran, hran]
    rfl
  · rw [advanceThread_other heq]

end Threads

theorem consistent_step {setup : StageSetup χ} {s s' : StageState χ} {event : StageEvent}
    (h : s.Consistent) (hstep : StageStep setup s event s') : s'.Consistent := by
  cases hstep with
  | arrive request =>
    refine ⟨h.wellFormed, fun index thread hthread => ?_⟩
    rcases arrive_thread hthread with hold | ⟨-, rfl⟩
    · exact h.holds index thread hold
    · exact fun entry hentry => by cases hentry
  | @advance index ran hran _ =>
    have hholds := h.holds index ran hran
    have heffect := effect_advance setup hholds
    refine ⟨heffect.wellFormed h.wellFormed, fun other thread hthread => ?_⟩
    rcases advanceThread_thread hran hthread with ⟨-, rfl⟩ | ⟨-, hold⟩
    · exact holds_advance setup h.wellFormed hholds
    · exact fun entry hentry => heffect.owns (h.holds other thread hold entry hentry)

theorem consistent_run {setup : StageSetup χ} {events : List StageEvent} {s : StageState χ}
    (h : Run (StageStep setup) (emptyStage χ) events s) : s.Consistent :=
  h.invariant consistent_emptyStage fun _ _ _ hs hstep => consistent_step hs hstep

end LayerInference.PythonStage
