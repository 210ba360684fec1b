import LayerInference.PythonStageEffects

/-!
# Decode requests at their announced positions

A decode request announces the position at which it belongs, and the stage
never compares it with its cache. If every generation sends each frame once
and in order, and no entry is evicted between the two lookups of a decode
request, the request runs at the announced position. Repeated by its client,
or with its entry evicted in between, it runs elsewhere and is answered.
-/

namespace LayerInference.PythonStage

open ByteStrings OrderedDicts StageCaches Runs

variable {χ : Type}

/-- A thread that uses the caches of this request id. -/
def Thread.UsesCacheOf (thread : Thread) (requestId : Bytes) : Prop :=
  thread.request.requestId = requestId ∧ thread.request.useTransformerKvCache = true

instance (thread : Thread) (requestId : Bytes) : Decidable (thread.UsesCacheOf requestId) :=
  inferInstanceAs (Decidable (_ ∧ _))

def Thread.AnsweredOk (thread : Thread) : Prop := ∃ answer, thread.phase = .answered (.ok answer)

instance (thread : Thread) : Decidable thread.AnsweredOk :=
  match h : thread.phase with
  | .answered (.ok answer) => isTrue ⟨answer, h⟩
  | .answered (.error _) => isFalse fun ⟨_, hok⟩ => by rw [h] at hok; cases hok
  | .arrived | .policy | .acquiring | .executing _ _ | .storing _ | .hit _ | .hitEntry _ _
  | .hitLength _ _ _ => isFalse fun ⟨_, hok⟩ => by rw [h] at hok; cases hok

/-- The tokens of all frames that a generation has sent to the stage. -/
def sentTokens (s : StageState χ) (requestId : Bytes) : ℕ :=
  (((s.threads.map (·.request)).filter fun request =>
    decide (request.requestId = requestId) && request.useTransformerKvCache).map
      (·.inputTokenCount)).sum

/-- The next frame of a generation, as the gateway sends it: all frames before
it were answered, and it stands behind their tokens. -/
structure NextFrame (s : StageState χ) (request : StageForwardRequest) : Prop where
  answered : ∀ thread ∈ s.threads, thread.UsesCacheOf request.requestId → thread.AnsweredOk
  sentOnce : ∀ thread ∈ s.threads, thread.UsesCacheOf request.requestId →
    thread.request.tokenIndex ≠ request.tokenIndex
  first : request.generationMode = .prefill →
    ∀ thread ∈ s.threads, ¬thread.UsesCacheOf request.requestId
  position : request.generationMode = .decode →
    request.cachePositionStart = some (sentTokens s request.requestId : ℤ)

theorem nextFrame_iff (s : StageState χ) (request : StageForwardRequest) :
    NextFrame s request ↔
      (∀ thread ∈ s.threads, thread.UsesCacheOf request.requestId → thread.AnsweredOk) ∧
      (∀ thread ∈ s.threads, thread.UsesCacheOf request.requestId →
        thread.request.tokenIndex ≠ request.tokenIndex) ∧
      (request.generationMode = .prefill →
        ∀ thread ∈ s.threads, ¬thread.UsesCacheOf request.requestId) ∧
      (request.generationMode = .decode →
        request.cachePositionStart = some (sentTokens s request.requestId : ℤ)) :=
  ⟨fun h => ⟨h.answered, h.sentOnce, h.first, h.position⟩,
    fun h => ⟨h.1, h.2.1, h.2.2.1, h.2.2.2⟩⟩

instance (s : StageState χ) (request : StageForwardRequest) : Decidable (NextFrame s request) :=
  decidable_of_iff' _ (nextFrame_iff s request)

/-- Generations keep their flags and send their frames in order, and a decode
request that found its entry still finds it when it gets it. -/
def InOrder (s : StageState χ) : StageEvent → Prop
  | .arrive request =>
    (∀ thread ∈ s.threads, thread.request.requestId = request.requestId →
      thread.request.featureFlags = request.featureFlags) ∧
    (request.useTransformerKvCache = true → NextFrame s request)
  | .advance index => ∀ thread ∈ s.threads[index]?, thread.phase = .acquiring →
    thread.request.generationMode = .decode →
      (s.caches.kvEntries.get? thread.request.requestId).isSome = true

instance (phase : Phase) : Decidable (phase = .acquiring) :=
  match phase with
  | .acquiring => isTrue rfl
  | .arrived | .policy | .executing _ _ | .storing _ | .hit _ | .hitEntry _ _ | .hitLength _ _ _
  | .answered _ => isFalse fun h => by cases h

instance (s : StageState χ) : (event : StageEvent) → Decidable (InOrder s event)
  | .arrive _ => inferInstanceAs (Decidable (_ ∧ _))
  | .advance index =>
    match h : s.threads[index]? with
    | some thread => decidable_of_iff
        (thread.phase = .acquiring → thread.request.generationMode = .decode →
          (s.caches.kvEntries.get? thread.request.requestId).isSome = true)
        ⟨fun hin other hother => by rw [h] at hother; cases hother; exact hin,
          fun hin => hin thread h⟩
    | none => isTrue fun other hother => by rw [h] at hother; cases hother

/-- A step with this condition. -/
def OrderlyStep (setup : StageSetup χ) (s : StageState χ) (event : StageEvent)
    (s' : StageState χ) : Prop :=
  StageStep setup s event s' ∧ InOrder s event

/-- What the executor does to a cache: it starts empty, and a forward appends
the tokens of its input. -/
structure AppendsTokens (executor : StageExecutor χ) : Prop where
  empty : executor.getCacheSeqLength executor.newCache = 0
  appends : ∀ input cache position output cache',
    executor.forwardCached input cache position = (.ok output, cache') →
      executor.getCacheSeqLength cache' =
        executor.getCacheSeqLength cache + tensorSequenceLength input

/-- The request was executed at the position that it announced. -/
structure RanAtPosition (request : StageForwardRequest) (answer : ForwardAnswer) : Prop where
  executed : answer.forwardDedupeHit = false
  position : request.cachePositionStart = some (answer.kvCacheSeqBefore : ℤ)

/-- The cache of an entry has this length for the executor of the request. -/
def LengthIs (setup : StageSetup χ) (caches : StageCaches χ) (request : StageForwardRequest)
    (entry length : ℕ) : Prop :=
  ∀ cache, caches.cacheAt entry = some cache →
    (setup.executorOf request).getCacheSeqLength cache = length

/-- The entry in the table, if there is one, has this length. -/
def ListedLength (setup : StageSetup χ) (caches : StageCaches χ) (request : StageForwardRequest)
    (length : ℕ) : Prop :=
  ∀ entry, caches.kvEntries.get? request.requestId = some entry →
    LengthIs setup caches request entry length

/-- The caches of a generation while its frame behind `before` tokens runs. -/
def PhaseAt (setup : StageSetup χ) (caches : StageCaches χ) (thread : Thread) (before : ℕ) : Prop :=
  match thread.phase with
  | .arrived | .policy => ListedLength setup caches thread.request before
  | .acquiring =>
    ListedLength setup caches thread.request before ∧
      (thread.request.generationMode = .prefill →
        caches.kvEntries.get? thread.request.requestId = none)
  | .executing entry _ =>
    LengthIs setup caches thread.request entry before ∧
      ∀ other, caches.kvEntries.get? thread.request.requestId = some other → other = entry
  | .storing answer =>
    ListedLength setup caches thread.request (before + thread.request.inputTokenCount) ∧
      answer.forwardDedupeHit = false ∧ answer.kvCacheSeqBefore = before
  | _ => False

/-- A generation whose frame on this thread is not answered yet. -/
structure RunningAt (setup : StageSetup χ) (s : StageState χ) (requestId : Bytes) (index : ℕ)
    (thread : Thread) (before : ℕ) : Prop where
  here : s.threads[index]? = some thread
  uses : thread.UsesCacheOf requestId
  others : ∀ (other : ℕ) (u : Thread), s.threads[other]? = some u → other ≠ index →
    u.UsesCacheOf requestId → u.AnsweredOk
  sent : sentTokens s requestId = before + thread.request.inputTokenCount
  position : thread.request.generationMode = .decode →
    thread.request.cachePositionStart = some (before : ℤ)
  first : thread.request.generationMode = .prefill → before = 0
  phase : PhaseAt setup s.caches thread before

/-- Where a generation stands: between two frames, in a frame or failed. -/
inductive GenerationAt (setup : StageSetup χ) (s : StageState χ) (requestId : Bytes) : Prop where
  | idle
      (answered : ∀ (index : ℕ) (thread : Thread), s.threads[index]? = some thread →
        thread.UsesCacheOf requestId → thread.AnsweredOk)
      (started : ∀ entry, s.caches.kvEntries.get? requestId = some entry →
        ∃ (index : ℕ) (thread : Thread), s.threads[index]? = some thread ∧
          thread.UsesCacheOf requestId)
      (length : ∀ (index : ℕ) (thread : Thread), s.threads[index]? = some thread →
        thread.UsesCacheOf requestId →
          ListedLength setup s.caches thread.request (sentTokens s requestId))
  | running {index : ℕ} {thread : Thread} {before : ℕ}
      (h : RunningAt setup s requestId index thread before)
  | failed
      (answered : ∀ (index : ℕ) (thread : Thread), s.threads[index]? = some thread →
        thread.UsesCacheOf requestId → thread.phase.isAnswered = true)
      (failure : ∃ (index : ℕ) (thread : Thread), s.threads[index]? = some thread ∧
        thread.UsesCacheOf requestId ∧ ¬thread.AnsweredOk)

/-- The invariant of the runs in which generations keep their order. -/
structure Orderly (setup : StageSetup χ) (s : StageState χ) : Prop where
  consistent : s.Consistent
  /-- Threads off the key-value path do not touch its caches. -/
  plain : ∀ (index : ℕ) (thread : Thread), s.threads[index]? = some thread →
    thread.request.useTransformerKvCache = false → thread.phase.usesCache = false
  flags : ∀ (i j : ℕ) (t u : Thread), s.threads[i]? = some t → s.threads[j]? = some u →
    t.request.requestId = u.request.requestId → t.request.featureFlags = u.request.featureFlags
  distinct : ∀ (i j : ℕ) (t u : Thread) (requestId : Bytes), s.threads[i]? = some t →
    s.threads[j]? = some u → t.UsesCacheOf requestId → u.UsesCacheOf requestId →
      t.request.tokenIndex = u.request.tokenIndex → i = j
  stored : ∀ key value, s.caches.forwardStore.get? key = some value →
    ∃ (index : ℕ) (thread : Thread), s.threads[index]? = some thread ∧
      thread.request.dedupeKey setup.sha1Hex = key ∧ thread.phase ≠ .arrived
  answers : ∀ (index : ℕ) (thread : Thread) (answer : ForwardAnswer),
    s.threads[index]? = some thread → thread.phase = .answered (.ok answer) →
      thread.request.useTransformerKvCache = true → thread.request.generationMode = .decode →
        RanAtPosition thread.request answer
  generation : ∀ requestId, GenerationAt setup s requestId

variable {setup : StageSetup χ} {s s' : StageState χ} {requestId : Bytes} {index before : ℕ}
  {thread : Thread} {request : StageForwardRequest}

section Frame

theorem sentTokens_arrive (s : StageState χ) (request : StageForwardRequest) (requestId : Bytes) :
    sentTokens (s.arrive request) requestId = sentTokens s requestId +
      if decide (request.requestId = requestId) && request.useTransformerKvCache then
        request.inputTokenCount else 0 := by
  unfold sentTokens StageState.arrive
  rw [List.map_append, List.filter_append, List.map_append, List.sum_append, List.map_singleton]
  congr 1
  rw [List.filter_singleton]
  dsimp only
  cases decide (request.requestId = requestId) && request.useTransformerKvCache with
  | true => exact Nat.add_zero _
  | false => rfl

theorem sentTokens_advanceThread (hthread : s.threads[index]? = some thread) (requestId : Bytes) :
    sentTokens (s.advanceThread setup index thread) requestId = sentTokens s requestId := by
  unfold sentTokens
  rw [advanceThread_requests hthread]

/-- What a generation depends on is the same in both states, up to an eviction. -/
structure SameFor (requestId : Bytes) (s s' : StageState χ) : Prop where
  threads : ∀ (other : ℕ) (u : Thread), u.UsesCacheOf requestId →
    (s'.threads[other]? = some u ↔ s.threads[other]? = some u)
  sent : sentTokens s' requestId = sentTokens s requestId
  entry : ∀ entry, s'.caches.kvEntries.get? requestId = some entry →
    s.caches.kvEntries.get? requestId = some entry
  cache : ∀ entry, s.caches.Owns requestId entry → s'.caches.cacheAt entry = s.caches.cacheAt entry

theorem SameFor.lengthIs (h : SameFor requestId s s') {entry length : ℕ}
    (howns : s.caches.Owns requestId entry)
    (hlength : LengthIs setup s.caches request entry length) :
    LengthIs setup s'.caches request entry length := by
  intro cache hcache
  rw [h.cache entry howns] at hcache
  exact hlength cache hcache

theorem SameFor.listedLength (h : SameFor requestId s s') (hwf : s.caches.WellFormed)
    (hid : request.requestId = requestId) {length : ℕ}
    (hlength : ListedLength setup s.caches request length) :
    ListedLength setup s'.caches request length := by
  subst hid
  intro entry hentry
  have hold := h.entry entry hentry
  exact h.lengthIs (hwf _ entry hold) (hlength entry hold)

theorem SameFor.phaseAt (h : SameFor requestId s s') (hwf : s.caches.WellFormed)
    (hid : thread.request.requestId = requestId) (hholds : thread.Holds s.caches)
    (hphase : PhaseAt setup s.caches thread before) : PhaseAt setup s'.caches thread before := by
  obtain ⟨request, phase⟩ := thread
  have hnone : s.caches.kvEntries.get? requestId = none →
      s'.caches.kvEntries.get? requestId = none := by
    intro hnone
    cases hget : s'.caches.kvEntries.get? requestId with
    | none => rfl
    | some entry =>
      rw [h.entry entry hget] at hnone
      cases hnone
  cases phase with
  | arrived => exact h.listedLength hwf hid hphase
  | policy => exact h.listedLength hwf hid hphase
  | acquiring =>
    refine ⟨h.listedLength hwf hid hphase.1, fun hmode => ?_⟩
    have hgone := hphase.2 hmode
    rw [hid] at hgone ⊢
    exact hnone hgone
  | executing entry created =>
    have howns : s.caches.Owns requestId entry := hid ▸ hholds entry rfl
    refine ⟨h.lengthIs howns hphase.1, fun other hother => hphase.2 other ?_⟩
    rw [hid] at hother ⊢
    exact h.entry other hother
  | storing answer => exact ⟨h.listedLength hwf hid hphase.1, hphase.2⟩
  | hit output => exact hphase
  | hitEntry output present => exact hphase
  | hitLength output present entry => exact hphase
  | answered answer => exact hphase

/-- A generation stands where it stood. -/
theorem GenerationAt.frame (hconsistent : s.Consistent) (hsame : SameFor requestId s s')
    (h : GenerationAt setup s requestId) : GenerationAt setup s' requestId := by
  cases h with
  | idle answered started length =>
    refine .idle (fun j u hu huses => ?_) (fun entry hentry => ?_) (fun j u hu huses => ?_)
    · exact answered j u ((hsame.threads j u huses).mp hu) huses
    · obtain ⟨j, u, hu, huses⟩ := started entry (hsame.entry entry hentry)
      exact ⟨j, u, (hsame.threads j u huses).mpr hu, huses⟩
    · rw [hsame.sent]
      have hold := length j u ((hsame.threads j u huses).mp hu) huses
      exact hsame.listedLength hconsistent.wellFormed huses.1 hold
  | @running index thread before h =>
    refine .running (?_ : RunningAt setup s' requestId index thread before)
    refine
      { here := (hsame.threads index thread h.uses).mpr h.here
        uses := h.uses
        others := fun j u hu => ?_
        sent := hsame.sent.trans h.sent
        position := h.position
        first := h.first
        phase := ?_ }
    · intro hne huses
      exact h.others j u ((hsame.threads j u huses).mp hu) hne huses
    · exact hsame.phaseAt hconsistent.wellFormed h.uses.1
        (hconsistent.holds index thread h.here) h.phase
  | failed answered failure =>
    refine .failed (fun j u hu huses => ?_) ?_
    · exact answered j u ((hsame.threads j u huses).mp hu) huses
    · obtain ⟨j, u, hu, huses, hfailed⟩ := failure
      exact ⟨j, u, (hsame.threads j u huses).mpr hu, huses, hfailed⟩

theorem sameFor_arrive (h : ¬(request.requestId = requestId ∧
    request.useTransformerKvCache = true)) : SameFor requestId s (s.arrive request) where
  threads other u huses := by
    refine ⟨fun hu => ?_, arrive_old⟩
    rcases arrive_thread hu with hold | ⟨-, rfl⟩
    · exact hold
    · exact absurd huses h
  sent := by
    have hfalse : (decide (request.requestId = requestId) && request.useTransformerKvCache) =
        false := by
      rw [Bool.and_eq_false_iff, decide_eq_false_iff_not, ← Bool.not_eq_true]
      exact not_and_or.mp h
    rw [sentTokens_arrive, hfalse]
    rfl
  entry _ := id
  cache _ _ := rfl

/-- The threads of a generation are not affected by the block of another
thread. -/
theorem advanceThread_users (hthread : s.threads[index]? = some thread)
    (h : ¬thread.UsesCacheOf requestId) (other : ℕ) {u : Thread} (huses : u.UsesCacheOf requestId) :
    (s.advanceThread setup index thread).threads[other]? = some u ↔
      s.threads[other]? = some u := by
  constructor
  · intro hu
    rcases advanceThread_thread hthread hu with ⟨-, rfl⟩ | ⟨-, hold⟩
    · exact absurd huses h
    · exact hold
  · intro hu
    have hne : other ≠ index := by
      rintro rfl
      have heq : u = thread := Option.some.inj (hu.symm.trans hthread)
      exact h (heq ▸ huses)
    rw [advanceThread_other hne]
    exact hu

theorem sameFor_other (hconsistent : s.Consistent) (hthread : s.threads[index]? = some thread)
    (hne : requestId ≠ thread.request.requestId) :
    SameFor requestId s (s.advanceThread setup index thread) where
  threads other _ huses :=
    advanceThread_users hthread (fun h => hne h.1.symm) other huses
  sent := sentTokens_advanceThread hthread requestId
  entry _ hentry := (effect_advance setup (hconsistent.holds index thread hthread)).entry hne hentry
  cache _ howns := (effect_advance setup (hconsistent.holds index thread hthread)).cacheAt howns hne

theorem sameFor_plain (hthread : s.threads[index]? = some thread)
    (huses : thread.request.useTransformerKvCache = false)
    (hphase : thread.phase.usesCache = false) (requestId : Bytes) :
    SameFor requestId s (s.advanceThread setup index thread) where
  threads other _ hother := by
    refine advanceThread_users hthread (fun h => ?_) other hother
    rw [h.2] at huses
    cases huses
  sent := sentTokens_advanceThread hthread requestId
  entry entry hentry := by
    obtain ⟨-, hentries, -⟩ := advance_plain setup s.caches huses hphase
    rw [← hentries]
    exact hentry
  cache entry _ := by
    obtain ⟨-, -, hobjects⟩ := advance_plain setup s.caches huses hphase
    exact congrArg (fun objects => (objects[entry]?).map (·.cache)) hobjects

end Frame

section Serving

theorem mode_of_uses (h : request.useTransformerKvCache = true) :
    request.generationMode = .prefill ∨ request.generationMode = .decode := by
  unfold StageForwardRequest.useTransformerKvCache at h
  cases hmode : request.generationMode with
  | legacy =>
    rw [hmode, Bool.and_eq_true] at h
    cases h.2
  | prefill => exact Or.inl rfl
  | decode => exact Or.inr rfl

theorem ListedLength.congr {caches : StageCaches χ} {other : StageForwardRequest} {length : ℕ}
    (h : ListedLength setup caches request length) (hid : other.requestId = request.requestId)
    (hflags : other.featureFlags = request.featureFlags) :
    ListedLength setup caches other length := by
  intro entry hentry cache hcache
  rw [hid] at hentry
  have hexecutor : setup.executorOf other = setup.executorOf request := by
    unfold StageSetup.executorOf
    rw [hflags]
  rw [hexecutor]
  exact h entry hentry cache hcache

/-- What the block of a running frame leads to: the generation stands again,
and an answered decode request ran in place. -/
def Served (setup : StageSetup χ) (s : StageState χ) (requestId : Bytes) (index : ℕ)
    (thread : Thread) : Prop :=
  GenerationAt setup (s.advanceThread setup index thread) requestId ∧
    ∀ answer, (advance setup thread.request s.caches thread.phase).1 = .answered (.ok answer) →
      thread.request.generationMode = .decode → RanAtPosition thread.request answer

/-- The frame goes on. -/
theorem RunningAt.goesOn (h : RunningAt setup s requestId index thread before)
    {next : Phase} {caches : StageCaches χ}
    (hadvance : advance setup thread.request s.caches thread.phase = (next, caches))
    (hphase : PhaseAt setup caches ⟨thread.request, next⟩ before) :
    Served setup s requestId index thread := by
  have hcaches : (s.advanceThread setup index thread).caches = caches :=
    congrArg Prod.snd hadvance
  have hself := advanceThread_self setup h.here
  rw [hadvance] at hself
  refine ⟨.running (?_ : RunningAt setup _ requestId index ⟨thread.request, next⟩ before),
    fun answer hanswer _ => ?_⟩
  · refine
      { here := hself
        uses := h.uses
        others := fun j u hu hne huses => ?_
        sent := (sentTokens_advanceThread h.here requestId).trans h.sent
        position := h.position
        first := h.first
        phase := hcaches.symm ▸ hphase }
    rw [advanceThread_other hne] at hu
    exact h.others j u hu hne huses
  · rw [hadvance] at hanswer
    have heq : next = .answered (.ok answer) := hanswer
    subst heq
    exact absurd hphase id

/-- The frame is answered with an error. -/
theorem RunningAt.fails (h : RunningAt setup s requestId index thread before)
    {exception : HTTPException}
    (hanswer : (advance setup thread.request s.caches thread.phase).1 =
      .answered (.error exception)) : Served setup s requestId index thread := by
  have hself := advanceThread_self setup h.here
  rw [hanswer] at hself
  refine ⟨.failed (fun j u hu huses => ?_) ⟨index, _, hself, h.uses, ?_⟩, fun answer hok => ?_⟩
  · rcases advanceThread_thread h.here hu with ⟨-, rfl⟩ | ⟨hne, hold⟩
    · rw [hanswer]
      rfl
    · obtain ⟨answer, hphase⟩ := h.others j u hold hne huses
      rw [hphase]
      rfl
  · rintro ⟨answer, hphase⟩
    cases hphase
  · rw [hanswer] at hok
    cases hok

/-- The frame comes to its last check. -/
theorem RunningAt.finishes (horderly : Orderly setup s)
    (h : RunningAt setup s requestId index thread before) {executor : StageExecutor χ}
    {answer : ForwardAnswer} {caches : StageCaches χ}
    (hadvance : advance setup thread.request s.caches thread.phase =
      (finish executor thread.request answer, caches))
    (hlisted : ListedLength setup caches thread.request (before + thread.request.inputTokenCount))
    (hexecuted : answer.forwardDedupeHit = false) (hbefore : answer.kvCacheSeqBefore = before) :
    Served setup s requestId index thread := by
  have hcaches : (s.advanceThread setup index thread).caches = caches :=
    congrArg Prod.snd hadvance
  have hself := advanceThread_self setup h.here
  rw [hadvance] at hself
  have hcases : finish executor thread.request answer = .answered (.ok answer) ∨
      ∃ exception, finish executor thread.request answer = .answered (.error exception) := by
    unfold finish
    split
    · exact Or.inl rfl
    · exact Or.inr ⟨_, rfl⟩
  rcases hcases with hok | ⟨exception, herror⟩
  · rw [hok] at hadvance hself
    refine ⟨.idle (fun j u hu huses => ?_) (fun _ _ => ⟨index, _, hself, h.uses⟩)
      (fun j u hu huses => ?_), fun other hother hmode => ?_⟩
    · rcases advanceThread_thread h.here hu with ⟨-, rfl⟩ | ⟨hne, hold⟩
      · exact ⟨answer, congrArg Prod.fst hadvance⟩
      · exact h.others j u hold hne huses
    · rw [sentTokens_advanceThread h.here, h.sent, hcaches]
      have hid : u.request.requestId = thread.request.requestId := huses.1.trans h.uses.1.symm
      refine hlisted.congr hid ?_
      rcases advanceThread_thread h.here hu with ⟨-, rfl⟩ | ⟨-, hold⟩
      · rfl
      · exact horderly.flags j index u thread hold h.here hid
    · rw [hadvance] at hother
      have heq : answer = other := by cases hother; rfl
      subst heq
      exact ⟨hexecuted, hbefore.symm ▸ h.position hmode⟩
  · rw [herror] at hadvance
    exact h.fails (congrArg Prod.fst hadvance)

/-- The frame was executed. -/
theorem RunningAt.executes (horderly : Orderly setup s)
    (h : RunningAt setup s requestId index thread before) {executor : StageExecutor χ}
    {answer : ForwardAnswer} {caches : StageCaches χ}
    (hadvance : advance setup thread.request s.caches thread.phase =
      (executed executor thread.request answer, caches))
    (hlisted : ListedLength setup caches thread.request (before + thread.request.inputTokenCount))
    (hexecuted : answer.forwardDedupeHit = false) (hbefore : answer.kvCacheSeqBefore = before) :
    Served setup s requestId index thread := by
  rcases executed_cases executor thread.request answer with hstoring | hfinish
  · rw [hstoring] at hadvance
    exact h.goesOn hadvance ⟨hlisted, hexecuted, hbefore⟩
  · rw [hfinish] at hadvance
    exact h.finishes horderly hadvance hlisted hexecuted hbefore

/-- A frame that was sent once has no duplicate in the store. -/
theorem RunningAt.not_stored (horderly : Orderly setup s)
    (h : RunningAt setup s requestId index thread before) (harrived : thread.phase = .arrived) :
    s.caches.forwardStore.get? (thread.request.dedupeKey setup.sha1Hex) = none := by
  cases hget : s.caches.forwardStore.get? (thread.request.dedupeKey setup.sha1Hex) with
  | none => rfl
  | some value =>
    obtain ⟨j, u, hu, hkey, hphase⟩ := horderly.stored _ value hget
    have hid : u.request.requestId = thread.request.requestId :=
      congrArg DedupeKey.requestId hkey
    have hindex : u.request.tokenIndex = thread.request.tokenIndex :=
      congrArg DedupeKey.tokenIndex hkey
    have hmode : u.request.generationMode = thread.request.generationMode :=
      congrArg DedupeKey.generationMode hkey
    have hflags := horderly.flags j index u thread hu h.here hid
    have huses : u.UsesCacheOf requestId := by
      refine ⟨hid.trans h.uses.1, ?_⟩
      unfold StageForwardRequest.useTransformerKvCache
      rw [hflags, hmode]
      exact h.uses.2
    have hsame : j = index :=
      horderly.distinct j index u thread requestId hu h.here huses h.uses hindex
    subst hsame
    have heq : u = thread := Option.some.inj (hu.symm.trans h.here)
    exact absurd (heq ▸ harrived) hphase

theorem RunningAt.serves_arrived (horderly : Orderly setup s)
    (h : RunningAt setup s requestId index thread before) (harrived : thread.phase = .arrived) :
    Served setup s requestId index thread := by
  have hlisted : ListedLength setup s.caches thread.request before := by
    have hphase := h.phase
    rw [PhaseAt, harrived] at hphase
    exact hphase
  have hnone := h.not_stored horderly harrived
  rcases advance_arrived setup thread.request s.caches with
    heq | ⟨heq, -⟩ | ⟨output, next, -, hfound, -⟩
  · rw [← harrived] at heq
    exact h.goesOn heq hlisted
  · rw [← harrived] at heq
    exact h.goesOn heq fun entry hentry => hlisted entry hentry
  · rw [hnone] at hfound
    cases hfound

theorem RunningAt.serves_policy (h : RunningAt setup s requestId index thread before)
    (hpolicy : thread.phase = .policy) : Served setup s requestId index thread := by
  have hlisted : ListedLength setup s.caches thread.request before := by
    have hphase := h.phase
    rw [PhaseAt, hpolicy] at hphase
    exact hphase
  have hadvance : advance setup thread.request s.caches thread.phase =
      applyPolicy (setup.executorOf thread.request) thread.request s.caches := by
    rw [hpolicy]
    rfl
  rcases applyPolicy_cached (setup.executorOf thread.request) s.caches h.uses.2 with
    ⟨exception, heq⟩ | ⟨-, heq⟩ | ⟨hmode, -, heq⟩
  · exact h.fails (hadvance.symm ▸ heq)
  · refine h.goesOn (hadvance.trans heq) ⟨fun entry hentry => ?_, fun _ => kvReset_self _⟩
    rw [kvReset_self] at hentry
    cases hentry
  · refine h.goesOn (hadvance.trans heq)
      ⟨fun entry hentry => ?_, fun hprefill => absurd hprefill hmode⟩
    rw [kvGet_entries] at hentry
    exact hlisted entry hentry

theorem RunningAt.serves_acquiring (happends : ∀ profile, AppendsTokens (setup.executor profile))
    (horder : InOrder s (.advance index))
    (h : RunningAt setup s requestId index thread before)
    (hacquiring : thread.phase = .acquiring) : Served setup s requestId index thread := by
  have hphase := h.phase
  rw [PhaseAt, hacquiring] at hphase
  obtain ⟨hlisted, hprefill⟩ := hphase
  have hadvance : advance setup thread.request s.caches thread.phase =
      ((let result := s.caches.kvGetOrCreate setup.maxEntries thread.request.requestId
          (setup.executorOf thread.request).newCache
        (.executing result.1.1 result.1.2, result.2)) : Phase × StageCaches χ) := by
    rw [hacquiring]
    rfl
  refine h.goesOn hadvance ⟨?_, fun other hother => (kvGetOrCreate_listed hother).symm⟩
  cases hget : s.caches.kvEntries.get? thread.request.requestId with
  | some entry =>
    rw [kvGetOrCreate_present hget]
    exact hlisted entry hget
  | none =>
    have hmode : thread.request.generationMode = .prefill := by
      rcases mode_of_uses h.uses.2 with hmode | hmode
      · exact hmode
      · have hpresent := horder thread h.here hacquiring hmode
        rw [hget] at hpresent
        cases hpresent
    rw [kvGetOrCreate_absent hget, h.first hmode]
    intro cache hcache
    unfold cacheAt at hcache
    rw [List.getElem?_concat_length] at hcache
    have heq : (setup.executorOf thread.request).newCache = cache := Option.some.inj hcache
    rw [← heq]
    exact (happends _).empty

theorem RunningAt.serves_executing (happends : ∀ profile, AppendsTokens (setup.executor profile))
    (horderly : Orderly setup s) (h : RunningAt setup s requestId index thread before)
    {entry : ℕ} {created : Bool} (hexecuting : thread.phase = .executing entry created) :
    Served setup s requestId index thread := by
  have hphase := h.phase
  rw [PhaseAt, hexecuting] at hphase
  obtain ⟨hlength, hlisted⟩ := hphase
  have howns : s.caches.Owns thread.request.requestId entry := by
    refine horderly.consistent.holds index thread h.here entry ?_
    rw [hexecuting]
    rfl
  obtain ⟨cache, hcache⟩ := howns.cacheAt
  have hbefore := hlength cache hcache
  cases hforward : (setup.executorOf thread.request).forwardCached thread.request.inputTensor cache
      thread.request.cachePositionStart with
  | mk result cache' =>
    cases result with
    | error message =>
      have hfails : (advance setup thread.request s.caches thread.phase).1 =
          .answered (.error (stageExecutionFailed message)) := by
        rw [hexecuting]
        simp only [advance, executeLocked, hcache, hforward]
      exact h.fails hfails
    | ok output =>
      have hadvance : advance setup thread.request s.caches thread.phase =
          (executed (setup.executorOf thread.request) thread.request
            { outputTensor := output
              kvCacheCreated := created
              kvCachePresent := true
              kvCacheSeqBefore := (setup.executorOf thread.request).getCacheSeqLength cache
              kvCacheSeqAfter := (setup.executorOf thread.request).getCacheSeqLength cache' },
            s.caches.setCache entry cache') := by
        rw [hexecuting]
        simp only [advance, executeLocked, hcache, hforward]
      refine h.executes horderly hadvance (fun other hother found hfound => ?_) rfl hbefore
      have heq : other = entry := hlisted other hother
      rw [heq, cacheAt_setCache_self howns] at hfound
      have hafter := (happends _).appends _ _ _ _ _ hforward
      rw [← Option.some.inj hfound]
      exact hafter.trans (congrArg (· + thread.request.inputTokenCount) hbefore)

theorem RunningAt.serves_storing (horderly : Orderly setup s)
    (h : RunningAt setup s requestId index thread before) {answer : ForwardAnswer}
    (hstoring : thread.phase = .storing answer) : Served setup s requestId index thread := by
  have hphase := h.phase
  rw [PhaseAt, hstoring] at hphase
  obtain ⟨hlisted, hexecuted, hbefore⟩ := hphase
  have hadvance : advance setup thread.request s.caches thread.phase =
      (finish (setup.executorOf thread.request) thread.request answer,
        s.caches.forwardPut setup.maxEntries (thread.request.dedupeKey setup.sha1Hex)
          answer.outputTensor) := by
    rw [hstoring]
    rfl
  exact h.finishes horderly hadvance (fun entry hentry => hlisted entry hentry) hexecuted hbefore

/-- Every block of a running frame serves it. -/
theorem RunningAt.serves (happends : ∀ profile, AppendsTokens (setup.executor profile))
    (horderly : Orderly setup s) (horder : InOrder s (.advance index))
    (h : RunningAt setup s requestId index thread before) :
    Served setup s requestId index thread := by
  have hphase := h.phase
  rw [PhaseAt] at hphase
  cases heq : thread.phase with
  | arrived => exact h.serves_arrived horderly heq
  | policy => exact h.serves_policy heq
  | acquiring => exact h.serves_acquiring happends horder heq
  | executing entry created => exact h.serves_executing happends horderly heq
  | storing answer => exact h.serves_storing horderly heq
  | hit output =>
    rw [heq] at hphase
    exact absurd hphase id
  | hitEntry output present =>
    rw [heq] at hphase
    exact absurd hphase id
  | hitLength output present entry =>
    rw [heq] at hphase
    exact absurd hphase id
  | answered answer =>
    rw [heq] at hphase
    exact absurd hphase id

/-- A thread of the key-value path that is not done is the running one. -/
theorem GenerationAt.running_of_unanswered (h : GenerationAt setup s requestId)
    (hthread : s.threads[index]? = some thread) (huses : thread.UsesCacheOf requestId)
    (hunanswered : thread.phase.isAnswered = false) :
    ∃ before, RunningAt setup s requestId index thread before := by
  have hnot : ¬thread.AnsweredOk := by
    rintro ⟨answer, hanswer⟩
    rw [hanswer] at hunanswered
    cases hunanswered
  cases h with
  | idle answered _ _ => exact absurd (answered index thread hthread huses) hnot
  | @running other u before h =>
    by_cases heq : index = other
    · subst heq
      have hsame : thread = u := Option.some.inj (hthread.symm.trans h.here)
      subst hsame
      exact ⟨before, h⟩
    · exact absurd (h.others index thread hthread heq huses) hnot
  | failed answered _ =>
    rw [answered index thread hthread huses] at hunanswered
    cases hunanswered

end Serving

section Steps

theorem orderly_emptyStage (setup : StageSetup χ) : Orderly setup (emptyStage χ) where
  consistent := consistent_emptyStage
  plain _ _ h := by cases h
  flags _ _ _ _ h := by cases h
  distinct _ _ _ _ _ h := by cases h
  stored _ _ h := by cases h
  answers _ _ _ h := by cases h
  generation _ := .idle (fun _ _ h => by cases h) (fun _ h => by cases h) fun _ _ h => by cases h

/-- A generation takes up the next frame it sends. -/
theorem generationAt_arrive (horderly : Orderly setup s)
    (hflags : ∀ thread ∈ s.threads, thread.request.requestId = request.requestId →
      thread.request.featureFlags = request.featureFlags)
    (huses : request.useTransformerKvCache = true) (hnext : NextFrame s request) :
    GenerationAt setup (s.arrive request) request.requestId := by
  have hidle : ∀ entry, s.caches.kvEntries.get? request.requestId = some entry →
      LengthIs setup s.caches request entry (sentTokens s request.requestId) := by
    intro entry hentry
    have hlisted : ∀ (j : ℕ) (u : Thread), s.threads[j]? = some u →
        u.UsesCacheOf request.requestId →
        ListedLength setup s.caches u.request (sentTokens s request.requestId) →
          LengthIs setup s.caches request entry (sentTokens s request.requestId) := by
      intro j u hu hsame hlength
      exact hlength.congr hsame.1.symm (hflags u (List.mem_of_getElem? hu) hsame.1).symm entry hentry
    cases horderly.generation request.requestId with
    | idle answered started length =>
      obtain ⟨j, u, hu, hsame⟩ := started entry hentry
      exact hlisted j u hu hsame (length j u hu hsame)
    | @running j u before h =>
      obtain ⟨answer, hanswer⟩ := hnext.answered u (List.mem_of_getElem? h.here) h.uses
      have hphase := h.phase
      rw [PhaseAt, hanswer] at hphase
      exact absurd hphase id
    | failed _ failure =>
      obtain ⟨j, u, hu, hsame, hfailed⟩ := failure
      exact absurd (hnext.answered u (List.mem_of_getElem? hu) hsame) hfailed
  refine .running (?_ : RunningAt setup _ request.requestId s.threads.length ⟨request, .arrived⟩
    (sentTokens s request.requestId))
  refine
    { here := arrive_new s request
      uses := ⟨rfl, huses⟩
      others := fun j u hu hne hsame => ?_
      sent := ?_
      position := hnext.position
      first := fun hmode => ?_
      phase := hidle }
  · rcases arrive_thread hu with hold | ⟨hlast, -⟩
    · exact hnext.answered u (List.mem_of_getElem? hold) hsame
    · exact absurd hlast hne
  · rw [sentTokens_arrive, huses, decide_eq_true rfl]
    rfl
  · have hnone := hnext.first hmode
    unfold sentTokens
    rw [List.filter_eq_nil_iff.mpr]
    · rfl
    · intro other hother htrue
      obtain ⟨u, hu, rfl⟩ := List.mem_map.mp hother
      rw [Bool.and_eq_true, decide_eq_true_eq] at htrue
      exact hnone u hu htrue

theorem orderly_arrive (horderly : Orderly setup s) (horder : InOrder s (.arrive request)) :
    Orderly setup (s.arrive request) := by
  obtain ⟨hflags, hnext⟩ := horder
  refine
    { consistent := consistent_step horderly.consistent
        (.arrive request : StageStep setup s (.arrive request) _)
      plain := fun index thread hthread huses => ?_
      flags := fun i j t u ht hu hid => ?_
      distinct := fun i j t u requestId ht hu htuses huuses hindex => ?_
      stored := fun key value hstored => ?_
      answers := fun index thread answer hthread hanswer => ?_
      generation := fun requestId => ?_ }
  · rcases arrive_thread hthread with hold | ⟨-, rfl⟩
    · exact horderly.plain index thread hold huses
    · rfl
  · rcases arrive_thread ht with htold | ⟨-, rfl⟩ <;> rcases arrive_thread hu with huold | ⟨-, rfl⟩
    · exact horderly.flags i j t u htold huold hid
    · exact hflags t (List.mem_of_getElem? htold) hid
    · exact (hflags u (List.mem_of_getElem? huold) hid.symm).symm
    · rfl
  · have hnew : ∀ {v : Thread}, v ∈ s.threads → v.UsesCacheOf requestId →
        Thread.UsesCacheOf ⟨request, .arrived⟩ requestId →
        v.request.tokenIndex ≠ request.tokenIndex := by
      intro v hv hvuses hrequest
      exact (hnext hrequest.2).sentOnce v hv ⟨hvuses.1.trans hrequest.1.symm, hvuses.2⟩
    rcases arrive_thread ht with htold | ⟨hi, rfl⟩ <;> rcases arrive_thread hu with huold | ⟨hj, rfl⟩
    · exact horderly.distinct i j t u requestId htold huold htuses huuses hindex
    · exact absurd hindex (hnew (List.mem_of_getElem? htold) htuses huuses)
    · exact absurd hindex.symm (hnew (List.mem_of_getElem? huold) huuses htuses)
    · rw [hi, hj]
  · obtain ⟨index, thread, hthread, hkey⟩ := horderly.stored key value hstored
    exact ⟨index, thread, arrive_old hthread, hkey⟩
  · rcases arrive_thread hthread with hold | ⟨-, rfl⟩
    · exact horderly.answers index thread answer hold hanswer
    · cases hanswer
  · by_cases hown : request.requestId = requestId ∧ request.useTransformerKvCache = true
    · obtain ⟨rfl, huses⟩ := hown
      exact generationAt_arrive horderly hflags huses (hnext huses)
    · exact (horderly.generation requestId).frame horderly.consistent (sameFor_arrive hown)

theorem orderly_advance (happends : ∀ profile, AppendsTokens (setup.executor profile))
    (horderly : Orderly setup s) (hthread : s.threads[index]? = some thread)
    (hunanswered : thread.phase.isAnswered = false) (horder : InOrder s (.advance index)) :
    Orderly setup (s.advanceThread setup index thread) := by
  have hserved : ∀ requestId, thread.UsesCacheOf requestId →
      Served setup s requestId index thread := by
    intro requestId huses
    obtain ⟨before, h⟩ :=
      (horderly.generation requestId).running_of_unanswered hthread huses hunanswered
    exact h.serves happends horderly horder
  refine
    { consistent := consistent_step horderly.consistent (StageStep.advance hthread hunanswered)
      plain := fun j u hu huses => ?_
      flags := fun i j t u ht hu hid => ?_
      distinct := fun i j t u requestId ht hu htuses huuses hindex => ?_
      stored := fun key value hstored => ?_
      answers := fun j u answer hu hanswer huses hmode => ?_
      generation := fun requestId => ?_ }
  · rcases advanceThread_thread hthread hu with ⟨-, rfl⟩ | ⟨-, hold⟩
    · exact (advance_plain setup s.caches huses (horderly.plain index thread hthread huses)).1
    · exact horderly.plain j u hold huses
  · obtain ⟨t', ht', htreq⟩ := advanceThread_request hthread ht
    obtain ⟨u', hu', hureq⟩ := advanceThread_request hthread hu
    rw [← htreq, ← hureq] at hid ⊢
    exact horderly.flags i j t' u' ht' hu' hid
  · obtain ⟨t', ht', htreq⟩ := advanceThread_request hthread ht
    obtain ⟨u', hu', hureq⟩ := advanceThread_request hthread hu
    unfold Thread.UsesCacheOf at htuses huuses
    rw [← htreq] at htuses hindex
    rw [← hureq] at huuses hindex
    exact horderly.distinct i j t' u' requestId ht' hu' htuses huuses hindex
  · have hself := advanceThread_self setup hthread
    have hne := advance_ne_arrived setup thread.request s.caches hunanswered
    rcases advance_stored hstored with ⟨hkey, -⟩ | hold
    · exact ⟨index, _, hself, hkey.symm, hne⟩
    · obtain ⟨j, u, hu, hkey, hphase⟩ := horderly.stored key value hold
      by_cases heq : j = index
      · subst heq
        have hsame : u = thread := Option.some.inj (hu.symm.trans hthread)
        exact ⟨j, _, hself, hsame ▸ hkey, hne⟩
      · exact ⟨j, u, (advanceThread_other heq).trans hu, hkey, hphase⟩
  · rcases advanceThread_thread hthread hu with ⟨-, rfl⟩ | ⟨-, hold⟩
    · exact (hserved thread.request.requestId ⟨rfl, huses⟩).2 answer hanswer hmode
    · exact horderly.answers j u answer hold hanswer huses hmode
  · by_cases huses : thread.UsesCacheOf requestId
    · exact (hserved requestId huses).1
    · have hsame : SameFor requestId s (s.advanceThread setup index thread) := by
        by_cases hid : requestId = thread.request.requestId
        · have hplain : thread.request.useTransformerKvCache = false := by
            rw [← Bool.not_eq_true]
            exact fun htrue => huses ⟨hid.symm, htrue⟩
          exact sameFor_plain hthread hplain (horderly.plain index thread hthread hplain) requestId
        · exact sameFor_other horderly.consistent hthread hid
      exact (horderly.generation requestId).frame horderly.consistent hsame

theorem orderly_step (happends : ∀ profile, AppendsTokens (setup.executor profile))
    {event : StageEvent} (horderly : Orderly setup s) (hstep : OrderlyStep setup s event s') :
    Orderly setup s' := by
  obtain ⟨hstep, horder⟩ := hstep
  cases hstep with
  | arrive request => exact orderly_arrive horderly horder
  | advance hthread hunanswered =>
    exact orderly_advance happends horderly hthread hunanswered horder

end Steps

/-- If generations send every frame once and in order, and no entry is evicted
between the two lookups of a decode request, every answered decode request ran
at the position that it announced. -/
theorem decode_runs_at_announced_position (setup : StageSetup χ)
    (happends : ∀ profile, AppendsTokens (setup.executor profile)) {events : List StageEvent}
    {s : StageState χ} (hrun : Run (OrderlyStep setup) (emptyStage χ) events s) :
    ∀ thread ∈ s.threads, ∀ answer, thread.phase = .answered (.ok answer) →
      thread.request.useTransformerKvCache = true → thread.request.generationMode = .decode →
        RanAtPosition thread.request answer := by
  have horderly : Orderly setup s := hrun.invariant (orderly_emptyStage setup)
    fun _ _ _ hs hstep => orderly_step happends hs hstep
  intro thread hmem answer hanswer huses hmode
  obtain ⟨index, hthread⟩ := List.getElem?_of_mem hmem
  exact horderly.answers index thread answer hthread hanswer huses hmode

section Gateway

/-- The tokens of the requests that a generation sends while it appends
`tokens` to its prompt. -/
def loopTokens (featureFlags : FeatureFlags) (promptIds tokens : List ℤ) : ℕ :=
  ((List.range tokens.length).map fun tokenIndex =>
    (loopRequest [] featureFlags (promptIds ++ tokens.take tokenIndex)
      tokenIndex).inputTokenCount).sum

/-- The gateway announces the position behind the tokens that it has sent. -/
theorem loopRequest_position (requestId : Bytes) (featureFlags : FeatureFlags)
    (hkv : featureFlags.kvCacheEnabled = true) (promptIds : List ℤ) {tokens : List ℤ}
    (hstarted : 0 < tokens.length) :
    (loopRequest requestId featureFlags (promptIds ++ tokens) tokens.length).cachePositionStart =
      some (loopTokens featureFlags promptIds tokens : ℤ) := by
  have hcount : ∀ tokenIndex ∈ List.range tokens.length,
      (loopRequest [] featureFlags (promptIds ++ tokens.take tokenIndex)
        tokenIndex).inputTokenCount = if tokenIndex = 0 then promptIds.length else 1 := by
    intro tokenIndex hmem
    have hlt := List.mem_range.mp hmem
    cases tokenIndex with
    | zero =>
      rw [List.take_zero, List.append_nil, if_pos rfl]
      unfold loopRequest
      rw [hkv]
      rfl
    | succ tokenIndex =>
      have hlength : (promptIds ++ tokens.take (tokenIndex + 1)).length =
          promptIds.length + (tokenIndex + 1) := by
        rw [List.length_append, List.length_take, Nat.min_eq_left hlt.le]
      unfold loopRequest
      rw [hkv, if_neg (Nat.succ_ne_zero _)]
      change ((promptIds ++ tokens.take (tokenIndex + 1)).drop
        ((promptIds ++ tokens.take (tokenIndex + 1)).length - 1)).length = 1
      rw [List.length_drop, hlength]
      omega
  have hsum : loopTokens featureFlags promptIds tokens = promptIds.length + (tokens.length - 1) := by
    unfold loopTokens
    rw [List.map_congr_left hcount]
    obtain ⟨n, hn⟩ : ∃ n, tokens.length = n + 1 := ⟨tokens.length - 1, by omega⟩
    rw [hn, List.range_succ_eq_map, List.map_cons, List.sum_cons, if_pos rfl, List.map_map]
    have hones : (List.range n).map ((fun tokenIndex =>
        if tokenIndex = 0 then promptIds.length else 1) ∘ Nat.succ) = List.replicate n 1 := by
      refine List.eq_replicate_iff.mpr ⟨by rw [List.length_map, List.length_range], ?_⟩
      intro count hmem
      obtain ⟨k, -, hk⟩ := List.mem_map.mp hmem
      rw [← hk]
      rfl
    rw [hones, List.sum_replicate_nat, Nat.mul_one, Nat.add_sub_cancel]
  have hmode : (featureFlags.kvCacheEnabled && decide (0 < tokens.length)) = true := by
    rw [hkv, decide_eq_true hstarted]
    rfl
  have hposition : ((promptIds ++ tokens).length : ℤ) - 1 =
      ((promptIds.length + (tokens.length - 1) : ℕ) : ℤ) := by
    rw [List.length_append]
    omega
  unfold loopRequest
  dsimp only
  rw [if_pos hmode, hsum]
  exact congrArg some hposition

end Gateway

section Tiny

theorem tiny_appends (layers : Bool) (cacheEntries : ℤ) (profile : RebalanceProfile) :
    AppendsTokens ((tinySetup layers cacheEntries).executor profile) where
  empty := rfl
  appends _ _ _ _ _ h := by cases h; rfl

/-- The prefill of a prompt of two tokens. -/
def tinyPrefill (requestId : Bytes) : StageForwardRequest := loopRequest requestId { kvCacheEnabled := true } [5, 6] 0

/-- The first decode request behind it. -/
def tinyDecode (requestId : Bytes) : StageForwardRequest :=
  loopRequest requestId { kvCacheEnabled := true } [5, 6, 7] 1

/-- A generation that sends both, each served before the next. -/
def servedInOrder : List StageEvent :=
  .arrive (tinyPrefill (ascii "a")) :: List.replicate 4 (.advance 0) ++
    .arrive (tinyDecode (ascii "a")) :: List.replicate 4 (.advance 1)

/-- The client sends its decode request again. -/
def sentTwice : List StageEvent :=
  servedInOrder ++ .arrive (tinyDecode (ascii "a")) :: List.replicate 4 (.advance 2)

/-- The prefill of another generation evicts the entry that the decode request
has found. -/
def evictedBetween : List StageEvent :=
  .arrive (tinyPrefill (ascii "a")) :: List.replicate 4 (.advance 0) ++
    .arrive (tinyDecode (ascii "a")) :: List.replicate 2 (.advance 1) ++
    .arrive (tinyPrefill (ascii "b")) :: List.replicate 3 (.advance 2) ++
    List.replicate 2 (.advance 1)

theorem orderlyRun_foldl {setup : StageSetup χ} {events : List StageEvent}
    (h : allAlong setup (fun s event => enabled s event && decide (InOrder s event))
      (emptyStage χ) events = true) :
    Run (OrderlyStep setup) (emptyStage χ) events
      (events.foldl (applyEvent setup) (emptyStage χ)) := by
  refine run_foldl (fun s event hevent => ?_) .start h
  rw [Bool.and_eq_true, decide_eq_true_eq] at hevent
  exact ⟨stageStep_applyEvent hevent.1, hevent.2⟩

/-- The decode request behind its prefill is answered at its position. -/
theorem decode_runs_at_announced_position_in_order :
    ∃ thread answer,
      (servedInOrder.foldl (applyEvent (tinySetup true 64)) (emptyStage ℕ)).threads[1]? =
        some thread ∧
      thread.phase = .answered (.ok answer) ∧ thread.request.generationMode = .decode ∧
      RanAtPosition thread.request answer := by
  have hrun : Run (OrderlyStep (tinySetup true 64)) (emptyStage ℕ) servedInOrder
      (servedInOrder.foldl (applyEvent (tinySetup true 64)) (emptyStage ℕ)) :=
    orderlyRun_foldl (by decide)
  refine ⟨_, _, rfl, rfl, rfl, ?_⟩
  exact decode_runs_at_announced_position (tinySetup true 64) (tiny_appends true 64) hrun _
    (List.mem_of_getElem? (i := 1) rfl) _ rfl rfl rfl

/-- A decode request that its client repeats runs one position later, and one
whose entry was evicted runs at position zero; both are answered. -/
theorem decode_runs_elsewhere :
    (∃ s thread answer, Run (StageStep (tinySetup true 64)) (emptyStage ℕ) sentTwice s ∧
      s.threads[2]? = some thread ∧ thread.phase = .answered (.ok answer) ∧
      thread.request.generationMode = .decode ∧ thread.request.cachePositionStart = some 2 ∧
      answer.forwardDedupeHit = false ∧ answer.kvCacheSeqBefore = 3) ∧
    ∃ s thread answer, Run (StageStep (tinySetup true 1)) (emptyStage ℕ) evictedBetween s ∧
      s.threads[1]? = some thread ∧ thread.phase = .answered (.ok answer) ∧
      thread.request.generationMode = .decode ∧ thread.request.cachePositionStart = some 2 ∧
      answer.forwardDedupeHit = false ∧ answer.kvCacheSeqBefore = 0 := by
  have htwice : allAlong (tinySetup true 64) enabled (emptyStage ℕ) sentTwice = true := by decide
  have hevicted : allAlong (tinySetup true 1) enabled (emptyStage ℕ) evictedBetween = true := by decide
  exact ⟨⟨_, _, _, stageRun_foldl htwice, rfl, rfl, rfl, rfl, rfl, rfl⟩,
    ⟨_, _, _, stageRun_foldl hevicted, rfl, rfl, rfl, rfl, rfl, rfl⟩⟩

end Tiny

end LayerInference.PythonStage
