import LayerInference.PythonStageEffects

/-!
# Duplicated decode requests

The store of finished forwards is meant to answer a repeated decode request
without a second append. Copies that look before the first one has stored its
activation run again, and a copy that finds it fails the check of the cache
step, as the stored path reports no growth. Copies are harmless exactly when
the partition has no transformer layers and each waits for the store.
-/

namespace LayerInference.PythonStage

open ByteStrings OrderedDicts StageCaches Runs

variable {χ : Type}

/-- A stage that is idle for the request id of a decode request, with the
cache entry of its generation at the announced position, and what the
partition makes of the request. -/
structure ReadyFor (setup : StageSetup χ) (s : StageState χ) (request : StageForwardRequest)
    (entry : ℕ) (cache cache' : χ) (output : Tensor) : Prop where
  dedupe : request.featureFlags.forwardDedupeEnabled = true
  kvCache : request.featureFlags.kvCacheEnabled = true
  decode : request.generationMode = .decode
  oneToken : request.inputTokenCount = 1
  supported : (setup.executorOf request).ensureKvCacheSupported = .ok ()
  config : (setup.executorOf request).hasCacheConfig = true
  idle : ∀ thread ∈ s.threads, thread.request.requestId = request.requestId →
    thread.phase.isAnswered = true
  listed : s.caches.kvEntries.get? request.requestId = some entry
  cached : s.caches.cacheAt entry = some cache
  position : request.cachePositionStart =
    some ((setup.executorOf request).getCacheSeqLength cache : ℤ)
  unstored : s.caches.forwardStore.get? (request.dedupeKey setup.sha1Hex) = none
  forward : (setup.executorOf request).forwardCached request.inputTensor cache
    request.cachePositionStart = (.ok output, cache')
  appended : (setup.executorOf request).getCacheSeqLength cache' =
    (setup.executorOf request).getCacheSeqLength cache + 1
  output : (setup.executorOf request).hasTransformerLayers = true →
    tensorSequenceLength output = 1

/-- Until the following step only copies arrive for the request id, and neither
the cache entry nor a stored activation is evicted. -/
structure QuietStep (setup : StageSetup χ) (request : StageForwardRequest) (s : StageState χ)
    (event : StageEvent) (s' : StageState χ) : Prop where
  step : StageStep setup s event s'
  copies : ∀ other, event = .arrive other → other.requestId = request.requestId → other = request
  entryKept : s'.caches.kvEntries.get? request.requestId ≠ none
  storedKept : s.caches.forwardStore.get? (request.dedupeKey setup.sha1Hex) ≠ none →
    s'.caches.forwardStore.get? (request.dedupeKey setup.sha1Hex) ≠ none

/-- A copy of the request, on a thread that started after `first` others. -/
def IsCopy (s : StageState χ) (request : StageForwardRequest) (first index : ℕ)
    (thread : Thread) : Prop :=
  s.threads[index]? = some thread ∧ first ≤ index ∧
    thread.request.requestId = request.requestId

/-- A copy that looks into the store is the first to look, or it looks behind
the first one's store on a partition without transformer layers. -/
def LooksInTime (setup : StageSetup χ) (request : StageForwardRequest) (first : ℕ)
    (s : StageState χ) (event : StageEvent) : Prop :=
  ∀ index thread, event = .advance index → IsCopy s request first index thread →
    thread.phase = .arrived →
      (s.caches.forwardStore.get? (request.dedupeKey setup.sha1Hex) = none ∧
        ∀ other u, IsCopy s request first other u → u.phase = .arrived) ∨
      (s.caches.forwardStore.get? (request.dedupeKey setup.sha1Hex) ≠ none ∧
        (setup.executorOf request).hasTransformerLayers = false)

/-- A quiet step with this condition. -/
def TimelyStep (setup : StageSetup χ) (request : StageForwardRequest) (first : ℕ)
    (s : StageState χ) (event : StageEvent) (s' : StageState χ) : Prop :=
  QuietStep setup request s event s' ∧ LooksInTime setup request first s event

/-- The copies were handled as one request: each answered one has the
activation, and the cache has grown by one position once one is answered. -/
structure HandledOnce (setup : StageSetup χ) (request : StageForwardRequest) (first : ℕ)
    (cache : χ) (output : Tensor) (s : StageState χ) : Prop where
  answers : ∀ index thread answer, IsCopy s request first index thread →
    thread.phase = .answered answer → ∃ found, answer = .ok found ∧ found.outputTensor = output
  grown : ∃ entry now, s.caches.kvEntries.get? request.requestId = some entry ∧
    s.caches.cacheAt entry = some now ∧
    ((setup.executorOf request).getCacheSeqLength now =
        (setup.executorOf request).getCacheSeqLength cache + 1 ∨
      (setup.executorOf request).getCacheSeqLength now =
          (setup.executorOf request).getCacheSeqLength cache ∧
        ∀ index thread, IsCopy s request first index thread → thread.phase.isAnswered = false)

/-- A copy that found the stored activation, or did not look yet. -/
def Phase.reuses (output : Tensor) (layers : Bool) : Phase → Prop
  | .arrived => True
  | .hit found | .hitEntry found _ | .hitLength found _ _ => found = output ∧ layers = false
  | .answered answer => ∃ found, answer = .ok found ∧ found.outputTensor = output
  | _ => False

/-- The answer of the copy that runs. -/
def firstAnswer (executor : StageExecutor χ) (cache cache' : χ) (output : Tensor) :
    ForwardAnswer where
  outputTensor := output
  kvCachePresent := true
  kvCacheSeqBefore := executor.getCacheSeqLength cache
  kvCacheSeqAfter := executor.getCacheSeqLength cache'

/-- How far the copies have come: none has looked, one runs, or its activation
is stored. -/
inductive CopiesAt (setup : StageSetup χ) (request : StageForwardRequest) (first entry : ℕ)
    (cache cache' : χ) (output : Tensor) (s : StageState χ) : Prop where
  | waiting
      (unstored : s.caches.forwardStore.get? (request.dedupeKey setup.sha1Hex) = none)
      (cached : s.caches.cacheAt entry = some cache)
      (arrived : ∀ index thread, IsCopy s request first index thread → thread.phase = .arrived)
  | running {leader : ℕ} {thread : Thread}
      (unstored : s.caches.forwardStore.get? (request.dedupeKey setup.sha1Hex) = none)
      (leads : IsCopy s request first leader thread)
      (phase : (s.caches.cacheAt entry = some cache ∧ (thread.phase = .policy ∨
          thread.phase = .acquiring ∨ thread.phase = .executing entry false)) ∨
        (s.caches.cacheAt entry = some cache' ∧
          thread.phase = .storing (firstAnswer (setup.executorOf request) cache cache' output)))
      (others : ∀ index u, IsCopy s request first index u → index ≠ leader → u.phase = .arrived)
  | settled
      (stored : s.caches.forwardStore.get? (request.dedupeKey setup.sha1Hex) = some output)
      (cached : s.caches.cacheAt entry = some cache')
      (reuse : ∀ index thread, IsCopy s request first index thread →
        thread.phase.reuses output (setup.executorOf request).hasTransformerLayers)

/-- The invariant of the runs in which copies look in time. -/
structure CopiesInv (setup : StageSetup χ) (request : StageForwardRequest) (first entry : ℕ)
    (cache cache' : χ) (output : Tensor) (s : StageState χ) : Prop where
  consistent : s.Consistent
  counted : first ≤ s.threads.length
  old : ∀ (index : ℕ) (thread : Thread), index < first → s.threads[index]? = some thread →
    thread.request.requestId = request.requestId → thread.phase.isAnswered = true
  copies : ∀ index thread, IsCopy s request first index thread → thread.request = request
  listed : s.caches.kvEntries.get? request.requestId = some entry
  standing : CopiesAt setup request first entry cache cache' output s

variable {setup : StageSetup χ} {s s' : StageState χ} {request : StageForwardRequest}
  {first entry index : ℕ} {cache cache' : χ} {output : Tensor} {thread : Thread}

section Frame

/-- Copies behind an arrival are the old ones and perhaps the new thread. -/
theorem IsCopy.of_arrive {other : StageForwardRequest}
    (h : IsCopy (s.arrive other) request first index thread) :
    IsCopy s request first index thread ∨ thread = ⟨other, .arrived⟩ := by
  obtain ⟨hthread, hfirst, hid⟩ := h
  rcases arrive_thread hthread with hold | ⟨-, hnew⟩
  · exact Or.inl ⟨hold, hfirst, hid⟩
  · exact Or.inr hnew

theorem IsCopy.arrive {other : StageForwardRequest} (h : IsCopy s request first index thread) :
    IsCopy (s.arrive other) request first index thread :=
  ⟨arrive_old h.1, h.2⟩

/-- A new thread has not looked yet, whatever its request. -/
theorem CopiesAt.arrive (h : CopiesAt setup request first entry cache cache' output s)
    (other : StageForwardRequest) :
    CopiesAt setup request first entry cache cache' output (s.arrive other) := by
  cases h with
  | waiting unstored cached arrived =>
    refine .waiting unstored cached fun index thread hcopy => ?_
    rcases hcopy.of_arrive with hold | rfl
    · exact arrived index thread hold
    · rfl
  | @running leader thread unstored leads phase others =>
    refine .running unstored leads.arrive phase fun index u hcopy hne => ?_
    rcases hcopy.of_arrive with hold | rfl
    · exact others index u hold hne
    · rfl
  | settled stored cached reuse =>
    refine .settled stored cached fun index thread hcopy => ?_
    rcases hcopy.of_arrive with hold | rfl
    · exact reuse index thread hold
    · trivial

/-- The copies are the same behind a block of another request. -/
theorem isCopy_advanceThread_other (hthread : s.threads[index]? = some thread)
    (hne : thread.request.requestId ≠ request.requestId) {other : ℕ} {u : Thread} :
    IsCopy (s.advanceThread setup index thread) request first other u ↔
      IsCopy s request first other u := by
  constructor
  · rintro ⟨hu, hfirst, hid⟩
    rcases advanceThread_thread hthread hu with ⟨-, rfl⟩ | ⟨-, hold⟩
    · exact absurd hid hne
    · exact ⟨hold, hfirst, hid⟩
  · rintro ⟨hu, hfirst, hid⟩
    have hother : other ≠ index := by
      rintro rfl
      have heq : u = thread := Option.some.inj (hu.symm.trans hthread)
      exact hne (heq ▸ hid)
    exact ⟨(advanceThread_other hother).trans hu, hfirst, hid⟩

/-- A block of another request leaves the copies where they are. -/
theorem CopiesAt.frame (hinv : CopiesInv setup request first entry cache cache' output s)
    (hthread : s.threads[index]? = some thread)
    (hne : thread.request.requestId ≠ request.requestId)
    (hkept : s.caches.forwardStore.get? (request.dedupeKey setup.sha1Hex) ≠ none →
      (s.advanceThread setup index thread).caches.forwardStore.get?
        (request.dedupeKey setup.sha1Hex) ≠ none) :
    CopiesAt setup request first entry cache cache' output
      (s.advanceThread setup index thread) := by
  have heffect := effect_advance setup (hinv.consistent.holds index thread hthread)
  have howns := hinv.consistent.wellFormed request.requestId entry hinv.listed
  have hcache : (s.advanceThread setup index thread).caches.cacheAt entry =
      s.caches.cacheAt entry := heffect.cacheAt howns hne.symm
  have hstore := heffect.stored (request.dedupeKey setup.sha1Hex) hne.symm
  have hcopies : ∀ other u, IsCopy (s.advanceThread setup index thread) request first other u →
      IsCopy s request first other u :=
    fun other u => (isCopy_advanceThread_other hthread hne).mp
  have hnone : s.caches.forwardStore.get? (request.dedupeKey setup.sha1Hex) = none →
      (s.advanceThread setup index thread).caches.forwardStore.get?
        (request.dedupeKey setup.sha1Hex) = none := by
    intro hunstored
    rcases hstore with hgone | hsame
    · exact hgone
    · exact hsame.trans hunstored
  cases hinv.standing with
  | waiting unstored cached arrived =>
    exact .waiting (hnone unstored) (hcache.trans cached)
      fun other u hcopy => arrived other u (hcopies other u hcopy)
  | running unstored leads phase others =>
    refine .running (hnone unstored) ((isCopy_advanceThread_other hthread hne).mpr leads) ?_
      fun other u hcopy => others other u (hcopies other u hcopy)
    rw [hcache]
    exact phase
  | settled stored cached reuse =>
    refine .settled ?_ (hcache.trans cached)
      fun other u hcopy => reuse other u (hcopies other u hcopy)
    rcases hstore with hgone | hsame
    · refine absurd hgone (hkept ?_)
      rw [stored]
      exact fun h => by cases h
    · exact hsame.trans stored

end Frame

section Copies

/-- What a block of a copy leads to: its own next phase, the other copies as
they were. -/
theorem isCopy_advanceThread (setup : StageSetup χ) (hcopy : IsCopy s request first index thread) :
    IsCopy (s.advanceThread setup index thread) request first index
      ⟨thread.request, (advance setup thread.request s.caches thread.phase).1⟩ :=
  ⟨advanceThread_self setup hcopy.1, hcopy.2⟩

theorem IsCopy.of_advanceThread (hcopy : IsCopy s request first index thread) {other : ℕ}
    {u : Thread} (h : IsCopy (s.advanceThread setup index thread) request first other u) :
    (other = index ∧
        u = ⟨thread.request, (advance setup thread.request s.caches thread.phase).1⟩) ∨
      (other ≠ index ∧ IsCopy s request first other u) := by
  rcases advanceThread_thread hcopy.1 h.1 with hself | ⟨hne, hold⟩
  · exact Or.inl hself
  · exact Or.inr ⟨hne, hold, h.2⟩

theorem ReadyFor.uses {s : StageState χ}
    (h : ReadyFor setup s request entry cache cache' output) :
    request.useTransformerKvCache = true := by
  unfold StageForwardRequest.useTransformerKvCache
  rw [h.kvCache, h.decode]
  rfl

/-- The copy that runs passes the check of the cache step. -/
theorem ReadyFor.finish_first {start : StageState χ}
    (h : ReadyFor setup start request entry cache cache' output) :
    finish (setup.executorOf request) request
        (firstAnswer (setup.executorOf request) cache cache' output) =
      .answered (.ok (firstAnswer (setup.executorOf request) cache cache' output)) := by
  have hvalid : validateKvCacheStep (setup.executorOf request).hasTransformerLayers
      request.useTransformerKvCache request.generationMode request.inputTokenCount
      (tensorSequenceLength output) ((setup.executorOf request).getCacheSeqLength cache)
      ((setup.executorOf request).getCacheSeqLength cache') = true := by
    rw [h.uses, h.decode, h.oneToken, h.appended]
    cases hlayers : (setup.executorOf request).hasTransformerLayers with
    | false => rfl
    | true =>
      rw [h.output hlayers]
      simp [validateKvCacheStep]
  unfold finish
  exact if_pos hvalid

/-- Without transformer layers a stored activation passes too. -/
theorem finish_reused (hlayers : (setup.executorOf request).hasTransformerLayers = false)
    (answer : ForwardAnswer) :
    finish (setup.executorOf request) request answer = .answered (.ok answer) := by
  have hvalid : ∀ before after, validateKvCacheStep
      (setup.executorOf request).hasTransformerLayers request.useTransformerKvCache
      request.generationMode request.inputTokenCount (tensorSequenceLength answer.outputTensor)
      before after = true := by
    intro before after
    rw [hlayers]
    simp [validateKvCacheStep]
  unfold finish
  exact if_pos (hvalid _ _)

/-- The first copy to look finds nothing and goes on to its entry. -/
theorem ReadyFor.advance_arrived_none {start : StageState χ}
    (h : ReadyFor setup start request entry cache cache' output)
    {caches : StageCaches χ}
    (hnone : caches.forwardStore.get? (request.dedupeKey setup.sha1Hex) = none) :
    advance setup request caches .arrived =
      (.policy, (caches.forwardGet (request.dedupeKey setup.sha1Hex)).2) := by
  have hget : caches.forwardGet (request.dedupeKey setup.sha1Hex) =
      (none, (caches.forwardGet (request.dedupeKey setup.sha1Hex)).2) := Prod.ext hnone rfl
  simp only [advance, h.dedupe, if_true]
  rw [hget]

/-- A copy that looks behind the store finds the activation. -/
theorem ReadyFor.advance_arrived_some {start : StageState χ}
    (h : ReadyFor setup start request entry cache cache' output)
    {caches : StageCaches χ} {found : Tensor}
    (hsome : caches.forwardStore.get? (request.dedupeKey setup.sha1Hex) = some found) :
    advance setup request caches .arrived =
      (.hit found, (caches.forwardGet (request.dedupeKey setup.sha1Hex)).2) := by
  have hget : caches.forwardGet (request.dedupeKey setup.sha1Hex) =
      (some found, (caches.forwardGet (request.dedupeKey setup.sha1Hex)).2) :=
    Prod.ext hsome rfl
  simp only [advance, h.dedupe, if_true]
  rw [hget]
  simp only [h.uses, if_true]

/-- The copy that runs finds its entry again and again. -/
theorem ReadyFor.advance_policy {start : StageState χ}
    (h : ReadyFor setup start request entry cache cache' output) {caches : StageCaches χ}
    (hlisted : caches.kvEntries.get? request.requestId = some entry) :
    advance setup request caches .policy =
      (.acquiring, (caches.kvGet request.requestId).2) := by
  have hmode : request.generationMode ≠ .prefill := by
    rw [h.decode]
    decide
  have hget : caches.kvGet request.requestId =
      (some entry, (caches.kvGet request.requestId).2) := Prod.ext hlisted rfl
  simp only [advance, applyPolicy, h.uses, h.supported, h.config, Bool.not_true, Bool.false_eq_true,
    if_false, if_neg hmode]
  rw [hget]

theorem advance_acquiring (setup : StageSetup χ) {caches : StageCaches χ}
    (hlisted : caches.kvEntries.get? request.requestId = some entry) :
    advance setup request caches .acquiring =
      (.executing entry false, (caches.kvGet request.requestId).2) := by
  simp only [advance, kvGetOrCreate_present hlisted]

theorem ReadyFor.advance_executing {start : StageState χ}
    (h : ReadyFor setup start request entry cache cache' output) {caches : StageCaches χ}
    (hcached : caches.cacheAt entry = some cache) :
    advance setup request caches (.executing entry false) =
      (.storing (firstAnswer (setup.executorOf request) cache cache' output),
        caches.setCache entry cache') := by
  simp only [advance, executeLocked, hcached, h.forward, executed, h.dedupe, if_true]
  rfl

/-- The copy that runs goes on to its next block. -/
theorem CopiesInv.runs (hinv : CopiesInv setup request first entry cache cache' output s)
    (hcopy : IsCopy s request first index thread) {next : Phase} {caches : StageCaches χ}
    (hadvance : advance setup request s.caches thread.phase = (next, caches))
    (hlisted : caches.kvEntries.get? request.requestId = some entry)
    (hunstored : caches.forwardStore.get? (request.dedupeKey setup.sha1Hex) = none)
    (hphase : (caches.cacheAt entry = some cache ∧
        (next = .policy ∨ next = .acquiring ∨ next = .executing entry false)) ∨
      (caches.cacheAt entry = some cache' ∧
        next = .storing (firstAnswer (setup.executorOf request) cache cache' output)))
    (hothers : ∀ other u, IsCopy s request first other u → other ≠ index → u.phase = .arrived) :
    (s.advanceThread setup index thread).caches.kvEntries.get? request.requestId = some entry ∧
      CopiesAt setup request first entry cache cache' output (s.advanceThread setup index thread) := by
  have hrequest := hinv.copies index thread hcopy
  rw [← hrequest] at hadvance
  have hcaches : (s.advanceThread setup index thread).caches = caches := congrArg Prod.snd hadvance
  have hself := isCopy_advanceThread setup hcopy
  rw [hadvance] at hself
  refine ⟨hcaches.symm ▸ hlisted, .running (hcaches.symm ▸ hunstored) hself
    (hcaches.symm ▸ hphase) fun other u hother hne => ?_⟩
  rcases hcopy.of_advanceThread hother with ⟨heq, -⟩ | ⟨-, hold⟩
  · exact absurd heq hne
  · exact hothers other u hold hne

/-- Behind the store a copy goes on with the stored activation. -/
theorem CopiesInv.settles (hinv : CopiesInv setup request first entry cache cache' output s)
    (hcopy : IsCopy s request first index thread) {next : Phase} {caches : StageCaches χ}
    (hadvance : advance setup request s.caches thread.phase = (next, caches))
    (hlisted : caches.kvEntries.get? request.requestId = some entry)
    (hstored : caches.forwardStore.get? (request.dedupeKey setup.sha1Hex) = some output)
    (hcached : caches.cacheAt entry = some cache')
    (hnext : next.reuses output (setup.executorOf request).hasTransformerLayers)
    (hothers : ∀ other u, IsCopy s request first other u → other ≠ index →
      u.phase.reuses output (setup.executorOf request).hasTransformerLayers) :
    (s.advanceThread setup index thread).caches.kvEntries.get? request.requestId = some entry ∧
      CopiesAt setup request first entry cache cache' output (s.advanceThread setup index thread) := by
  have hrequest := hinv.copies index thread hcopy
  rw [← hrequest] at hadvance
  have hcaches : (s.advanceThread setup index thread).caches = caches := congrArg Prod.snd hadvance
  refine ⟨hcaches.symm ▸ hlisted, .settled (hcaches.symm ▸ hstored) (hcaches.symm ▸ hcached)
    fun other u hother => ?_⟩
  rcases hcopy.of_advanceThread hother with ⟨-, rfl⟩ | ⟨hne, hold⟩
  · rw [hadvance]
    exact hnext
  · exact hothers other u hold hne

/-- While no activation is stored, the copy that runs takes its blocks. -/
theorem CopiesInv.leader_step {start : StageState χ}
    (hready : ReadyFor setup start request entry cache cache' output)
    (hinv : CopiesInv setup request first entry cache cache' output s)
    (hcopy : IsCopy s request first index thread)
    (hunstored : s.caches.forwardStore.get? (request.dedupeKey setup.sha1Hex) = none)
    (hphase : (s.caches.cacheAt entry = some cache ∧ (thread.phase = .policy ∨
        thread.phase = .acquiring ∨ thread.phase = .executing entry false)) ∨
      (s.caches.cacheAt entry = some cache' ∧
        thread.phase = .storing (firstAnswer (setup.executorOf request) cache cache' output)))
    (hothers : ∀ other u, IsCopy s request first other u → other ≠ index → u.phase = .arrived) :
    (s.advanceThread setup index thread).caches.kvEntries.get? request.requestId = some entry ∧
      CopiesAt setup request first entry cache cache' output (s.advanceThread setup index thread) := by
  have hget : (s.caches.kvGet request.requestId).2.kvEntries.get? request.requestId = some entry :=
    (kvGet_entries _ _).trans hinv.listed
  rcases hphase with ⟨hcached, hpolicy | hacquiring | hexecuting⟩ | ⟨hcached, hstoring⟩
  · have hadvance := hready.advance_policy hinv.listed
    rw [← hpolicy] at hadvance
    exact hinv.runs hcopy hadvance hget hunstored (Or.inl ⟨hcached, Or.inr (Or.inl rfl)⟩) hothers
  · have hadvance := advance_acquiring setup hinv.listed
    rw [← hacquiring] at hadvance
    exact hinv.runs hcopy hadvance hget hunstored (Or.inl ⟨hcached, Or.inr (Or.inr rfl)⟩) hothers
  · have hadvance := hready.advance_executing hcached
    rw [← hexecuting] at hadvance
    have howns := hinv.consistent.wellFormed request.requestId entry hinv.listed
    exact hinv.runs hcopy hadvance hinv.listed hunstored
      (Or.inr ⟨cacheAt_setCache_self howns cache', rfl⟩) hothers
  · have hadvance : advance setup request s.caches thread.phase =
        (.answered (.ok (firstAnswer (setup.executorOf request) cache cache' output)),
          s.caches.forwardPut setup.maxEntries (request.dedupeKey setup.sha1Hex) output) := by
      rw [hstoring, ← hready.finish_first]
      rfl
    have hlimit : 0 < setup.maxEntries := by
      unfold StageSetup.maxEntries
      omega
    refine hinv.settles hcopy hadvance hinv.listed
      (OrderedDict.get?_trim_putLast hlimit _ _ _) hcached ⟨_, rfl, rfl⟩ fun other u hu hne => ?_
    rw [hothers other u hu hne]
    trivial

/-- A block of a copy that looks in time. -/
theorem CopiesInv.copy_step {start : StageState χ}
    (hready : ReadyFor setup start request entry cache cache' output)
    (hinv : CopiesInv setup request first entry cache cache' output s)
    (hcopy : IsCopy s request first index thread) (hunanswered : thread.phase.isAnswered = false)
    (htimely : LooksInTime setup request first s (.advance index)) :
    (s.advanceThread setup index thread).caches.kvEntries.get? request.requestId = some entry ∧
      CopiesAt setup request first entry cache cache' output (s.advanceThread setup index thread) := by
  have hget : (s.caches.kvGet request.requestId).2.kvEntries.get? request.requestId = some entry :=
    (kvGet_entries _ _).trans hinv.listed
  cases hinv.standing with
  | waiting unstored cached arrived =>
    have hphase := arrived index thread hcopy
    have hadvance := hready.advance_arrived_none unstored
    rw [← hphase] at hadvance
    exact hinv.runs hcopy hadvance hinv.listed ((forwardGet_stored _ _).trans unstored)
      (Or.inl ⟨cached, Or.inl rfl⟩) fun other u hu _ => arrived other u hu
  | @running leader u unstored leads phase others =>
    by_cases heq : index = leader
    · subst heq
      have hsame : u = thread := Option.some.inj (leads.1.symm.trans hcopy.1)
      subst hsame
      exact hinv.leader_step hready hcopy unstored phase others
    · have hlate := htimely index thread rfl hcopy (others index thread hcopy heq)
      rcases hlate with ⟨-, hall⟩ | ⟨hstored, -⟩
      · have hnot := hall leader u leads
        rcases phase with ⟨-, h | h | h⟩ | ⟨-, h⟩ <;> rw [hnot] at h <;> cases h
      · exact absurd unstored hstored
  | settled stored cached reuse =>
    have hothers := fun other u hu (_ : other ≠ index) => reuse other u hu
    have hreuses := reuse index thread hcopy
    cases hphase : thread.phase with
    | arrived =>
      have hlayers : (setup.executorOf request).hasTransformerLayers = false := by
        rcases htimely index thread rfl hcopy hphase with ⟨hnone, -⟩ | ⟨-, hlayers⟩
        · rw [hnone] at stored
          cases stored
        · exact hlayers
      have hadvance := hready.advance_arrived_some stored
      rw [← hphase] at hadvance
      exact hinv.settles hcopy hadvance hinv.listed ((forwardGet_stored _ _).trans stored) cached
        ⟨rfl, hlayers⟩ hothers
    | hit found =>
      rw [hphase] at hreuses
      have hadvance : advance setup request s.caches thread.phase =
          (.hitEntry found (s.caches.kvGet request.requestId).1.isSome,
            (s.caches.kvGet request.requestId).2) := by
        rw [hphase]
        rfl
      exact hinv.settles hcopy hadvance hget stored cached hreuses hothers
    | hitEntry found present =>
      rw [hphase] at hreuses
      have hadvance : advance setup request s.caches thread.phase =
          (.hitLength found present (s.caches.kvGet request.requestId).1,
            (s.caches.kvGet request.requestId).2) := by
        rw [hphase]
        rfl
      exact hinv.settles hcopy hadvance hget stored cached hreuses hothers
    | hitLength found present seen =>
      rw [hphase] at hreuses
      obtain ⟨rfl, hlayers⟩ := hreuses
      have hadvance : ∃ answer : ForwardAnswer, answer.outputTensor = found ∧
          advance setup request s.caches thread.phase = (.answered (.ok answer), s.caches) := by
        rw [hphase]
        simp only [advance, finish_reused hlayers]
        exact ⟨_, rfl, rfl⟩
      obtain ⟨answer, houtput, hadvance⟩ := hadvance
      exact hinv.settles hcopy hadvance hinv.listed stored cached ⟨answer, rfl, houtput⟩ hothers
    | answered answer =>
      rw [hphase] at hunanswered
      cases hunanswered
    | policy =>
      rw [hphase] at hreuses
      exact absurd hreuses id
    | acquiring =>
      rw [hphase] at hreuses
      exact absurd hreuses id
    | executing seen created =>
      rw [hphase] at hreuses
      exact absurd hreuses id
    | storing answer =>
      rw [hphase] at hreuses
      exact absurd hreuses id

end Copies

section Runs

theorem copiesInv_start (hconsistent : s.Consistent)
    (hready : ReadyFor setup s request entry cache cache' output) :
    CopiesInv setup request s.threads.length entry cache cache' output s := by
  have hnone : ∀ index thread, ¬IsCopy s request s.threads.length index thread := by
    rintro index thread ⟨hthread, hfirst, -⟩
    have hlt : index < s.threads.length := (List.getElem?_eq_some_iff.mp hthread).1
    exact absurd hlt (Nat.not_lt.mpr hfirst)
  exact
    { consistent := hconsistent
      counted := le_refl _
      old := fun index thread _ hthread hid =>
        hready.idle thread (List.mem_of_getElem? hthread) hid
      copies := fun index thread hcopy => absurd hcopy (hnone index thread)
      listed := hready.listed
      standing := .waiting hready.unstored hready.cached
        fun index thread hcopy => absurd hcopy (hnone index thread) }

theorem copiesInv_step {start : StageState χ}
    (hready : ReadyFor setup start request entry cache cache' output) {event : StageEvent}
    (hinv : CopiesInv setup request first entry cache cache' output s)
    (hstep : TimelyStep setup request first s event s') :
    CopiesInv setup request first entry cache cache' output s' := by
  obtain ⟨hquiet, htimely⟩ := hstep
  have hconsistent := consistent_step hinv.consistent hquiet.step
  cases hquiet.step with
  | arrive other =>
    have hlength : (s.arrive other).threads.length = s.threads.length + 1 :=
      List.length_append
    refine
      { consistent := hconsistent
        counted := hlength ▸ Nat.le_succ_of_le hinv.counted
        old := fun index thread hlt hthread hid => ?_
        copies := fun index thread hcopy => ?_
        listed := hinv.listed
        standing := hinv.standing.arrive other }
    · rcases arrive_thread hthread with hold | ⟨hlast, -⟩
      · exact hinv.old index thread hlt hold hid
      · exact absurd hinv.counted (by omega)
    · rcases hcopy.of_arrive with hold | rfl
      · exact hinv.copies index thread hold
      · exact hquiet.copies other rfl hcopy.2.2
  | @advance index ran hran hunanswered =>
    have hcopied : ∀ {other : ℕ} {u : Thread}, IsCopy (s.advanceThread setup index ran) request
        first other u → u.request = request := by
      intro other u hcopy
      obtain ⟨old, hold, hrequest⟩ := advanceThread_request hran hcopy.1
      have hid : old.request.requestId = request.requestId := hrequest.symm ▸ hcopy.2.2
      exact hrequest.symm.trans (hinv.copies other old ⟨hold, hcopy.2.1, hid⟩)
    have hold : ∀ (other : ℕ) (u : Thread), other < first →
        (s.advanceThread setup index ran).threads[other]? = some u →
          u.request.requestId = request.requestId → u.phase.isAnswered = true := by
      intro other u hlt hu hid
      rcases advanceThread_thread hran hu with ⟨rfl, rfl⟩ | ⟨-, hbefore⟩
      · rw [hinv.old other ran hlt hran hid] at hunanswered
        cases hunanswered
      · exact hinv.old other u hlt hbefore hid
    have hstanding : (s.advanceThread setup index ran).caches.kvEntries.get? request.requestId =
        some entry ∧
          CopiesAt setup request first entry cache cache' output (s.advanceThread setup index ran) := by
      by_cases hid : ran.request.requestId = request.requestId
      · have hcopy : IsCopy s request first index ran := by
          refine ⟨hran, ?_, hid⟩
          by_contra hlt
          rw [hinv.old index ran (by omega) hran hid] at hunanswered
          cases hunanswered
        exact hinv.copy_step hready hcopy hunanswered htimely
      · have heffect := effect_advance setup (hinv.consistent.holds index ran hran)
        refine ⟨?_, CopiesAt.frame hinv hran hid hquiet.storedKept⟩
        obtain ⟨found, hfound⟩ := Option.ne_none_iff_exists'.mp hquiet.entryKept
        have hbefore := heffect.entry (Ne.symm hid) hfound
        exact hfound.trans (hbefore.symm.trans hinv.listed)
    exact
      { consistent := hconsistent
        counted := hinv.counted.trans_eq List.length_set.symm
        old := hold
        copies := fun _ _ => hcopied
        listed := hstanding.1
        standing := hstanding.2 }

/-- The invariant says that the copies were handled as one request. -/
theorem CopiesInv.handledOnce {start : StageState χ}
    (hready : ReadyFor setup start request entry cache cache' output)
    (hinv : CopiesInv setup request first entry cache cache' output s) :
    HandledOnce setup request first cache output s := by
  have hunanswered : ∀ {leader : ℕ} {thread : Thread},
      thread.phase.isAnswered = false →
      (∀ index u, IsCopy s request first index u → index ≠ leader → u.phase = .arrived) →
      IsCopy s request first leader thread →
        ∀ index u, IsCopy s request first index u → u.phase.isAnswered = false := by
    intro leader thread hphase hothers hleads index u hcopy
    by_cases heq : index = leader
    · subst heq
      have hsame : u = thread := Option.some.inj (hcopy.1.symm.trans hleads.1)
      exact hsame ▸ hphase
    · rw [hothers index u hcopy heq]
      rfl
  have hnotAnswered : ∀ {thread : Thread} {answer : Except HTTPException ForwardAnswer},
      thread.phase = .answered answer → thread.phase.isAnswered = false → False := by
    intro thread answer hanswer hnot
    rw [hanswer] at hnot
    cases hnot
  cases hinv.standing with
  | waiting unstored cached arrived =>
    have hnot : ∀ index thread, IsCopy s request first index thread →
        thread.phase.isAnswered = false := by
      intro index thread hcopy
      rw [arrived index thread hcopy]
      rfl
    exact ⟨fun index thread answer hcopy hanswer =>
        (hnotAnswered hanswer (hnot index thread hcopy)).elim,
      entry, cache, hinv.listed, cached, Or.inr ⟨rfl, hnot⟩⟩
  | @running leader thread unstored leads phase others =>
    have hphase : thread.phase.isAnswered = false := by
      rcases phase with ⟨-, h | h | h⟩ | ⟨-, h⟩ <;> rw [h] <;> rfl
    have hnot := hunanswered hphase others leads
    refine ⟨fun index u answer hcopy hanswer =>
      (hnotAnswered hanswer (hnot index u hcopy)).elim, ?_⟩
    rcases phase with ⟨hcached, -⟩ | ⟨hcached, -⟩
    · exact ⟨entry, cache, hinv.listed, hcached, Or.inr ⟨rfl, hnot⟩⟩
    · exact ⟨entry, cache', hinv.listed, hcached, Or.inl hready.appended⟩
  | settled stored cached reuse =>
    refine ⟨fun index thread answer hcopy hanswer => ?_,
      entry, cache', hinv.listed, cached, Or.inl hready.appended⟩
    have hreuses := reuse index thread hcopy
    rw [hanswer] at hreuses
    exact hreuses

/-- From any reachable stage that is ready for a decode request, its copies are
handled as one request as long as each looks in time. -/
theorem duplicates_handled_once (setup : StageSetup χ) {events copies : List StageEvent}
    {start s : StageState χ} {request : StageForwardRequest} {entry : ℕ} {cache cache' : χ}
    {output : Tensor} (hreached : Run (StageStep setup) (emptyStage χ) events start)
    (hready : ReadyFor setup start request entry cache cache' output)
    (hrun : Run (TimelyStep setup request start.threads.length) start copies s) :
    HandledOnce setup request start.threads.length cache output s := by
  have hstart := copiesInv_start (consistent_run hreached) hready
  have hinv : CopiesInv setup request start.threads.length entry cache cache' output s :=
    hrun.invariant hstart fun _ _ _ hs hstep => copiesInv_step hready hs hstep
  exact hinv.handledOnce hready

end Runs

section Tiny

/-- The conditions of a quiet step, evaluated. -/
def quietCheck (setup : StageSetup χ) (request : StageForwardRequest) (s : StageState χ)
    (event : StageEvent) : Bool :=
  let key := request.dedupeKey setup.sha1Hex
  let after := (applyEvent setup s event).caches
  enabled s event &&
    (match event with
    | .arrive other => decide (other.requestId = request.requestId → other = request)
    | .advance _ => true) &&
    (after.kvEntries.get? request.requestId).isSome &&
    ((s.caches.forwardStore.get? key).isNone || (after.forwardStore.get? key).isSome)

def Phase.hasLooked : Phase → Bool
  | .arrived => false
  | _ => true

theorem Phase.arrived_of_not_hasLooked {phase : Phase} (h : phase.hasLooked = false) :
    phase = .arrived := by
  cases phase with
  | arrived => rfl
  | _ => cases h

/-- The condition on the lookups, evaluated. -/
def firstLookCheck (setup : StageSetup χ) (request : StageForwardRequest) (first : ℕ)
    (s : StageState χ) : StageEvent → Bool
  | .arrive _ => true
  | .advance index =>
    (s.threads[index]?).all fun thread => thread.phase.hasLooked ||
      match s.caches.forwardStore.get? (request.dedupeKey setup.sha1Hex) with
      | none => (s.threads.drop first).all fun u => !u.phase.hasLooked
      | some _ => !(setup.executorOf request).hasTransformerLayers

theorem quietStep_of_check {event : StageEvent} (h : quietCheck setup request s event = true) :
    QuietStep setup request s event (applyEvent setup s event) := by
  unfold quietCheck at h
  simp only [Bool.and_eq_true, Bool.or_eq_true, Option.isNone_iff_eq_none,
    Option.isSome_iff_ne_none] at h
  obtain ⟨⟨⟨henabled, hcopies⟩, hentry⟩, hstored⟩ := h
  refine ⟨stageStep_applyEvent henabled, fun other heq hid => ?_, hentry, fun hne => ?_⟩
  · subst heq
    exact of_decide_eq_true hcopies hid
  · exact hstored.resolve_left hne

theorem looksInTime_of_check {event : StageEvent}
    (h : firstLookCheck setup request first s event = true) :
    LooksInTime setup request first s event := by
  rintro index thread rfl ⟨hthread, -, -⟩ harrived
  rw [firstLookCheck, hthread, Option.all_some, harrived] at h
  cases hget : s.caches.forwardStore.get? (request.dedupeKey setup.sha1Hex) with
  | none =>
    rw [hget] at h
    refine Or.inl ⟨rfl, fun other u hcopy => Phase.arrived_of_not_hasLooked ?_⟩
    have hdrop : (s.threads.drop first)[other - first]? = some u := by
      rw [List.getElem?_drop, Nat.add_sub_cancel' hcopy.2.1]
      exact hcopy.1
    have hall := List.all_eq_true.mp h u (List.mem_of_getElem? hdrop)
    rw [Bool.not_eq_true'] at hall
    exact hall
  | some found =>
    rw [hget] at h
    have hlayers : (setup.executorOf request).hasTransformerLayers = false := by
      simpa [Phase.hasLooked] using h
    exact Or.inr ⟨Option.some_ne_none found, hlayers⟩

theorem quietRun_foldl {events : List StageEvent}
    (h : allAlong setup (quietCheck setup request) s events = true) :
    Run (QuietStep setup request) s events (events.foldl (applyEvent setup) s) :=
  run_foldl (fun _ _ => quietStep_of_check) .start h

theorem timelyRun_foldl {events : List StageEvent}
    (h : allAlong setup (fun s event => quietCheck setup request s event &&
      firstLookCheck setup request first s event) s events = true) :
    Run (TimelyStep setup request first) s events (events.foldl (applyEvent setup) s) := by
  refine run_foldl (fun s event hevent => ?_) .start h
  rw [Bool.and_eq_true] at hevent
  exact ⟨quietStep_of_check hevent.1, looksInTime_of_check hevent.2⟩

def dedupeFlags : FeatureFlags := { kvCacheEnabled := true, forwardDedupeEnabled := true }

/-- The decode request behind a prompt of two tokens. -/
def dedupeDecode : StageForwardRequest := loopRequest (ascii "a") dedupeFlags [5, 6, 7] 1

/-- The prefill of the prompt. -/
def prefilled : List StageEvent :=
  .arrive (loopRequest (ascii "a") dedupeFlags [5, 6] 0) :: List.replicate 5 (.advance 0)

def tinyStart (layers : Bool) : StageState ℕ :=
  prefilled.foldl (applyEvent (tinySetup layers 64)) (emptyStage ℕ)

/-- A second copy behind the answer to the first. -/
def copiesInTurn : List StageEvent :=
  .arrive dedupeDecode :: List.replicate 5 (.advance 1) ++
    .arrive dedupeDecode :: List.replicate 4 (.advance 2)

/-- A second copy that looks while the first one still executes. -/
def copiesTogether : List StageEvent :=
  [.arrive dedupeDecode, .advance 1, .arrive dedupeDecode, .advance 2] ++
    List.replicate 4 (.advance 1) ++ List.replicate 4 (.advance 2)

theorem tinyStart_reached (layers : Bool) :
    Run (StageStep (tinySetup layers 64)) (emptyStage ℕ) prefilled (tinyStart layers) := by
  have hevents : allAlong (tinySetup layers 64) enabled (emptyStage ℕ) prefilled = true := by
    cases layers <;> decide
  exact stageRun_foldl hevents

theorem tinyStart_ready (layers : Bool) :
    ReadyFor (tinySetup layers 64) (tinyStart layers) dedupeDecode 0 2 3
      dedupeDecode.inputTensor where
  dedupe := rfl
  kvCache := rfl
  decode := rfl
  oneToken := rfl
  supported := rfl
  config := rfl
  idle := by cases layers <;> decide
  listed := by cases layers <;> rfl
  cached := by cases layers <;> rfl
  position := rfl
  unstored := by cases layers <;> rfl
  forward := rfl
  appended := rfl
  output _ := rfl

/-- Two copies in turn, on a partition without transformer layers. -/
theorem duplicates_handled_once_no_layers :
    HandledOnce (tinySetup false 64) dedupeDecode 1 2 dedupeDecode.inputTensor
      (copiesInTurn.foldl (applyEvent (tinySetup false 64)) (tinyStart false)) :=
  duplicates_handled_once (tinySetup false 64) (tinyStart_reached false) (tinyStart_ready false)
    (timelyRun_foldl (by decide))

/-- With transformer layers the second of two copies in turn fails, and two
copies together append two positions. -/
theorem duplicates_fail_or_append_twice :
    (∃ start s, Run (StageStep (tinySetup true 64)) (emptyStage ℕ) prefilled start ∧
      ReadyFor (tinySetup true 64) start dedupeDecode 0 2 3 dedupeDecode.inputTensor ∧
      Run (QuietStep (tinySetup true 64) dedupeDecode) start copiesInTurn s ∧
      ¬HandledOnce (tinySetup true 64) dedupeDecode 1 2 dedupeDecode.inputTensor s) ∧
    ∃ start s, Run (StageStep (tinySetup true 64)) (emptyStage ℕ) prefilled start ∧
      ReadyFor (tinySetup true 64) start dedupeDecode 0 2 3 dedupeDecode.inputTensor ∧
      Run (QuietStep (tinySetup true 64) dedupeDecode) start copiesTogether s ∧
      ¬HandledOnce (tinySetup true 64) dedupeDecode 1 2 dedupeDecode.inputTensor s := by
  have hturn : allAlong (tinySetup true 64) (quietCheck (tinySetup true 64) dedupeDecode)
      (tinyStart true) copiesInTurn = true := by decide
  have htogether : allAlong (tinySetup true 64) (quietCheck (tinySetup true 64) dedupeDecode)
      (tinyStart true) copiesTogether = true := by decide
  refine ⟨⟨_, _, tinyStart_reached true, tinyStart_ready true, quietRun_foldl hturn, fun h => ?_⟩,
    ⟨_, _, tinyStart_reached true, tinyStart_ready true, quietRun_foldl htogether, fun h => ?_⟩⟩
  · obtain ⟨found, hfound, -⟩ := h.answers 2 _ _ ⟨rfl, by decide, rfl⟩ rfl
    cases hfound
  · obtain ⟨entry, now, hlisted, hcached, hlength⟩ := h.grown
    have hentry : entry = 0 := (Option.some.inj hlisted).symm
    subst hentry
    have hnow : now = 4 := (Option.some.inj hcached).symm
    subst hnow
    rcases hlength with hthree | ⟨htwo, -⟩
    · exact absurd hthree (by decide)
    · exact absurd htwo (by decide)

end Tiny

end LayerInference.PythonStage
