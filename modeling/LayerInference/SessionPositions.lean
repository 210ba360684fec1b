import LayerInference.FrameTensors
import LayerInference.Runs
import LayerInference.SessionEffects
import LayerInference.SessionIsolation

/-!
# Positions of interleaved generations

Several generations send their frames to one stage: a prefill, then decode
frames, each after the answer to the one before. A decode frame belongs at the
position behind everything its generation has sent. It is executed there
whenever the session is still in the map. A session that was pruned is
created anew, and the frame is then executed and answered at position zero.
-/

namespace LayerInference.SessionPositions

open ByteStrings FallibleRuns FloatArithmetic FrameProtocol TensorAbi CpuExecutor PartitionExecution
  PartialRuntime FrameTensors SessionMachine CacheGrowth SessionEffects SessionIsolation ZeroModel
  Runs

variable {F D G : Type} [FloatArith F] [FloatArith D] [Numerics F D G]

/-- How far the generation under one identifier has come at the stage. -/
inductive GenerationStatus where
  | idle
  /-- The prompt length and the token index of the next frame. -/
  | running (promptLen next : ℕ)
  deriving DecidableEq

/-- The sessions of the stage and the progress of every generation. -/
structure StageState (hp : LlamaExecutorHyperparams F) where
  sessions : Sessions hp
  status : Bytes → GenerationStatus

/-- A stage that has served nothing. -/
def StageState.initial (hp : LlamaExecutorHyperparams F) : StageState hp := ⟨∅, fun _ => .idle⟩

/-- A frame of a generation as the gateway builds it. -/
structure IsFrame (tokenIndex : ℕ) (generationMode : Bytes) (rows : ℕ)
    (request : RuntimeRequest D) : Prop where
  requestId : request.requestId ≠ []
  tokenIndex : request.tokenIndex = tokenIndex
  generationMode : request.generationMode = generationMode
  kvCache : request.kvCacheEnabled = true
  rows : dli2SequenceLength request.inputTensor = rows

/-- Serve a frame. A generation goes on after an answer and ends with an error. -/
def StageState.serve (rt : LlamaPartialRuntime F) (s : StageState rt.executor.hp)
    (event : StageEvent D) (next : GenerationStatus) : StageState rt.executor.hp :=
  let result := forward rt event.env event.request s.sessions
  { sessions := finalState result
    status := Function.update s.status event.request.requestId
      (match outcome result with
      | .ok _ => next
      | .error _ => .idle) }

/-- A first frame starts a generation. The token ids of its prompt fit a frame. -/
structure IsPrefill (promptLen : ℕ) (request : RuntimeRequest D) : Prop
    extends IsFrame 0 (ascii "prefill") promptLen request where
  nonempty : 1 ≤ promptLen
  fits : promptLen * 8 ≤ dli2MaxTensorBytes

/-- One frame of one generation arrives. -/
inductive StageStep (rt : LlamaPartialRuntime F) :
    StageState rt.executor.hp → StageEvent D → StageState rt.executor.hp → Prop where
  | prefill {s : StageState rt.executor.hp} {event : StageEvent D} {promptLen : ℕ} :
      IsPrefill promptLen event.request →
      StageStep rt s event (s.serve rt event (.running promptLen 1))
  | decode {s : StageState rt.executor.hp} {event : StageEvent D} {promptLen i : ℕ} :
      s.status event.request.requestId = .running promptLen i →
      IsFrame i (ascii "decode") 1 event.request →
      StageStep rt s event (s.serve rt event (.running promptLen (i + 1)))

/-- A frame that continues a generation finds its session in the map. -/
def SessionPresent {hp : LlamaExecutorHyperparams F} (s : StageState hp) (event : StageEvent D) :
    Prop :=
  resetsSession event.request = false →
    (s.sessions.lookup event.request.requestId).isSome = true

/-- A step at which no session is missed. -/
def PresentStep (rt : LlamaPartialRuntime F) (s : StageState rt.executor.hp)
    (event : StageEvent D) (s' : StageState rt.executor.hp) : Prop :=
  StageStep rt s event s' ∧ SessionPresent s event

/-- The cache holds a key row and a value row for the position. -/
structure PositionPresent (hp : LlamaExecutorHyperparams F) (cache : LayerKvCache F) (pos : ℕ) :
    Prop where
  counted : pos < cache.seqLen
  key : (pos + 1) * kvDim hp ≤ cache.k.length
  value : (pos + 1) * kvDim hp ≤ cache.v.length

/-- The session that a frame arriving now is executed on. -/
def executedOn (rt : LlamaPartialRuntime F) (s : StageState rt.executor.hp)
    (event : StageEvent D) : LlamaRequestSession rt.executor.hp :=
  openedSession rt event.env event.request (s.sessions.lookup event.request.requestId)

/-- A frame is executed at position `pos`, on a session that stands there with
every earlier position in the caches of the owned layers. -/
structure ExecutedInPlace (rt : LlamaPartialRuntime F) (s : StageState rt.executor.hp)
    (event : StageEvent D) (response : RuntimeResponse) (pos : ℕ) : Prop where
  seqBefore : response.kvStep.seqBefore = pos
  session : (executedOn rt s event).kvCache.seqLen = pos
  present : ∀ l ∈ rt.shard.layers, ∀ p < pos,
    PositionPresent rt.executor.hp ((executedOn rt s event).executor.layerCache l) p

/-- A session that stands at a position, with caches of exactly that length. -/
structure StandsAt (rt : LlamaPartialRuntime F) (session : LlamaRequestSession rt.executor.hp)
    (pos : ℕ) : Prop where
  counter : session.kvCache.seqLen = pos
  caches : ∀ l ∈ rt.shard.layers, (session.executor.layerCache l).seqLen = pos ∧
    Filled (kvDim rt.executor.hp) (session.executor.layerCache l)

/-- Every running generation whose session is in the map stands behind the
frames it has sent. -/
def InStep (rt : LlamaPartialRuntime F) (s : StageState rt.executor.hp) : Prop :=
  ∀ requestId promptLen i, s.status requestId = .running promptLen i →
    1 ≤ promptLen ∧ 1 ≤ i ∧ ∀ session, s.sessions.lookup requestId = some session →
      StandsAt rt session (promptLen + i - 1)

theorem StandsAt.present {rt : LlamaPartialRuntime F}
    {session : LlamaRequestSession rt.executor.hp} {pos : ℕ} (h : StandsAt rt session pos) :
    ∀ l ∈ rt.shard.layers, ∀ p < pos,
      PositionPresent rt.executor.hp (session.executor.layerCache l) p := by
  intro l hl p hp
  obtain ⟨hlen, hfilled⟩ := h.caches l hl
  have hrow : (p + 1) * kvDim rt.executor.hp ≤ pos * kvDim rt.executor.hp :=
    Nat.mul_le_mul_right _ hp
  exact ⟨by omega, by rw [hfilled.keys, hlen]; exact hrow, by rw [hfilled.values, hlen]; exact hrow⟩

/-- A frame that adds `rows` positions moves a session by as many. -/
theorem StandsAt.advance {rt : LlamaPartialRuntime F} {request : RuntimeRequest D}
    {before after : LlamaRequestSession rt.executor.hp} {response : RuntimeResponse} {pos rows : ℕ}
    (h : StandsAt rt before pos) (hdone : FrameDone rt request before after response)
    (hcounter : (updateKvCacheForRequest request before.kvCache).2.seqLen = pos + rows)
    (hrows : frameRows request.inputTensor = rows) (hpos : 1 ≤ rows) :
    StandsAt rt after (pos + rows) := by
  refine ⟨by rw [hdone.counter, hcounter], fun l hl => ?_⟩
  obtain ⟨hlen, hfilled⟩ := h.caches l hl
  have hgrown := hdone.done l hl
  rw [hrows, h.counter, frameEnd, if_neg (by omega)] at hgrown
  refine ⟨?_, hgrown.filled hfilled⟩
  rw [hgrown.seqLen, hlen]
  omega

theorem standsAt_fresh (rt : LlamaPartialRuntime F) (entropy : UInt32) :
    StandsAt rt (.fresh rt.executor.hp entropy) 0 :=
  ⟨rfl, fun _ _ => ⟨rfl, by
    constructor <;> simp [LlamaRequestSession.fresh, LlamaCpuExecutor.fresh]⟩⟩

omit [FloatArith D] in
theorem IsFrame.key {tokenIndex : ℕ} {mode : Bytes} {rows : ℕ} {request : RuntimeRequest D}
    (h : IsFrame tokenIndex mode rows request) : sessionKey request = request.requestId := by
  simp [sessionKey, h.requestId]

omit [FloatArith D] in
theorem IsPrefill.resets {promptLen : ℕ} {request : RuntimeRequest D}
    (h : IsPrefill promptLen request) : resetsSession request = true := by
  simp [resetsSession, h.generationMode, h.tokenIndex]

omit [FloatArith D] in
theorem IsFrame.continues {i rows : ℕ} {request : RuntimeRequest D}
    (h : IsFrame i (ascii "decode") rows request) : resetsSession request = false := by
  have hmode : ascii "decode" ≠ ascii "prefill" := by decide
  simp [resetsSession, h.generationMode, hmode]

omit [FloatArith D] in
/-- A prefill counts its prompt. -/
theorem IsPrefill.counts {promptLen : ℕ} {request : RuntimeRequest D}
    (h : IsPrefill promptLen request) (kvCache : PartitionKvCacheState) :
    (updateKvCacheForRequest request kvCache).2.seqLen = kvCache.seqLen + promptLen := by
  have hpos : ¬(promptLen : ℤ) ≤ 0 := by
    have := h.nonempty
    omega
  simp only [updateKvCacheForRequest, h.kvCache, h.generationMode, h.rows, toInt32_of_fits h.fits,
    hpos, Bool.not_true, Bool.false_eq_true, if_true, if_false, Option.getD_some, Int.toNat_natCast]

omit [FloatArith D] in
/-- A decode frame counts one position. -/
theorem IsFrame.counts {i : ℕ} {request : RuntimeRequest D}
    (h : IsFrame i (ascii "decode") 1 request) (kvCache : PartitionKvCacheState) :
    (updateKvCacheForRequest request kvCache).2.seqLen = kvCache.seqLen + 1 := by
  have hmode : ascii "decode" ≠ ascii "prefill" := by decide
  have hone : toInt32 ((1 : ℕ) : ℤ) = 1 := toInt32_of_fits (by decide)
  simp only [updateKvCacheForRequest, h.kvCache, h.generationMode, h.rows, hone, hmode,
    Bool.not_true, Bool.false_eq_true, if_true, if_false, ne_eq, not_true_eq_false,
    Option.getD_some]

/-- What a step leaves to the generations of other identifiers. -/
theorem serve_other {rt : LlamaPartialRuntime F} {s : StageState rt.executor.hp}
    {event : StageEvent D} (hkey : sessionKey event.request = event.request.requestId)
    (next : GenerationStatus) {requestId : Bytes} (hid : requestId ≠ event.request.requestId) :
    (s.serve rt event next).status requestId = s.status requestId ∧
      ((s.serve rt event next).sessions.lookup requestId = s.sessions.lookup requestId ∨
        (s.serve rt event next).sessions.lookup requestId = none) :=
  ⟨Function.update_of_ne hid _ _,
    forward_other rt event.env event.request s.sessions (by rw [hkey]; exact hid)⟩

/-- An answered frame leaves the session it was executed on, moved by the frame. -/
theorem serve_self {rt : LlamaPartialRuntime F} {s : StageState rt.executor.hp}
    {event : StageEvent D} (hkey : sessionKey event.request = event.request.requestId)
    {response : RuntimeResponse}
    (hok : outcome (forward rt event.env event.request s.sessions) = .ok response)
    (next : GenerationStatus) :
    ∃ session, (s.serve rt event next).sessions.lookup event.request.requestId = some session ∧
      FrameDone rt event.request (executedOn rt s event) session response := by
  have hself := forward_self rt event.env event.request s.sessions
  rw [hkey] at hself
  cases hrun : serveSession rt event.env event.request
      (s.sessions.lookup event.request.requestId) with
  | error message after =>
    have houtcome := congrArg outcome hself
    rw [outcome_mapState, hok, hrun] at houtcome
    cases houtcome
  | ok response' after =>
    have houtcome := congrArg outcome hself
    have hstate := congrArg finalState hself
    rw [outcome_mapState, hok, hrun] at houtcome
    rw [finalState_mapState, hrun] at hstate
    cases houtcome
    obtain ⟨session, rfl, hdone⟩ := serveSession_ok hrun
    exact ⟨session, hstate, hdone⟩

/-- A generation that is still running after its own frame was answered. -/
theorem running_of_serve {rt : LlamaPartialRuntime F} {s : StageState rt.executor.hp}
    {event : StageEvent D} {next : GenerationStatus} {promptLen i : ℕ}
    (h : (s.serve rt event next).status event.request.requestId = .running promptLen i) :
    next = .running promptLen i ∧
      ∃ response, outcome (forward rt event.env event.request s.sessions) = .ok response := by
  simp only [StageState.serve, Function.update_self] at h
  cases hok : outcome (forward rt event.env event.request s.sessions) with
  | error message =>
    rw [hok] at h
    cases h
  | ok response =>
    rw [hok] at h
    exact ⟨h, response, rfl⟩

/-- Frames of one generation move the session of that generation only. -/
theorem InStep.of_serve {rt : LlamaPartialRuntime F} {s : StageState rt.executor.hp}
    {event : StageEvent D} {promptLen i : ℕ} (h : InStep rt s)
    (hkey : sessionKey event.request = event.request.requestId) (hprompt : 1 ≤ promptLen)
    (hi : 1 ≤ i)
    (hself : ∀ session response, FrameDone rt event.request (executedOn rt s event) session
      response → StandsAt rt session (promptLen + i - 1)) :
    InStep rt (s.serve rt event (.running promptLen i)) := by
  intro requestId promptLen' i' hstatus
  by_cases hid : requestId = event.request.requestId
  · subst hid
    obtain ⟨hnext, response, hok⟩ := running_of_serve hstatus
    cases hnext
    obtain ⟨session, hlookup, hdone⟩ := serve_self hkey hok (.running promptLen i)
    refine ⟨hprompt, hi, fun session' hsession' => ?_⟩
    rw [hlookup] at hsession'
    cases hsession'
    exact hself session response hdone
  · obtain ⟨hkept, hsession⟩ := serve_other (s := s) hkey (.running promptLen i) hid
    rw [hkept] at hstatus
    obtain ⟨hprompt', hi', hstands⟩ := h requestId promptLen' i' hstatus
    refine ⟨hprompt', hi', fun session hs => ?_⟩
    rcases hsession with hsame | hnone
    · exact hstands session (hsame ▸ hs)
    · rw [hnone] at hs
      cases hs

/-- A running generation whose session is in the map has it in place. -/
theorem InStep.executedOn {rt : LlamaPartialRuntime F} {s : StageState rt.executor.hp}
    {event : StageEvent D} {promptLen i : ℕ} (h : InStep rt s)
    (hstatus : s.status event.request.requestId = .running promptLen i)
    (hframe : IsFrame i (ascii "decode") 1 event.request)
    (hpresent : (s.sessions.lookup event.request.requestId).isSome = true) :
    StandsAt rt (executedOn rt s event) (promptLen + i - 1) := by
  obtain ⟨session, hsession⟩ := Option.isSome_iff_exists.mp hpresent
  rw [SessionPositions.executedOn, openedSession, hframe.continues, hsession]
  exact (h _ _ _ hstatus).2.2 session hsession

/-- A step that misses no session keeps every generation in place. -/
theorem inStep_step {rt : LlamaPartialRuntime F} {s s' : StageState rt.executor.hp}
    {event : StageEvent D} (h : InStep rt s) (hstep : PresentStep rt s event s') :
    InStep rt s' := by
  obtain ⟨hstep, hpresent⟩ := hstep
  cases hstep with
  | @prefill promptLen hprefill =>
    refine h.of_serve hprefill.key hprefill.nonempty le_rfl fun session response hdone => ?_
    -- The session is new, so the prompt starts at position zero.
    have hfresh : executedOn rt s event = .fresh rt.executor.hp event.env.executorEntropy := by
      rw [executedOn, openedSession, hprefill.resets, if_pos rfl]
    rw [hfresh] at hdone
    have hstands := (standsAt_fresh rt event.env.executorEntropy).advance hdone
      (hprefill.counts _) (by rw [frameRows, hprefill.rows, toInt32_of_fits hprefill.fits]; rfl)
      hprefill.nonempty
    simpa using hstands
  | @decode promptLen i hstatus hframe =>
    obtain ⟨hprompt, hi, -⟩ := h _ _ _ hstatus
    refine h.of_serve hframe.key hprompt (by omega) fun session response hdone => ?_
    have hbefore := h.executedOn hstatus hframe (hpresent hframe.continues)
    have hstands := hbefore.advance hdone (by rw [hframe.counts, hbefore.counter])
      (by rw [frameRows, hframe.rows, toInt32_of_fits (by decide)]; rfl) le_rfl
    rwa [show promptLen + i - 1 + 1 = promptLen + (i + 1) - 1 by omega] at hstands

/-- In a run that misses no session, a decode frame that is answered was
executed in its place exactly when its session is still in the map. -/
theorem decode_in_place_iff_session_present (rt : LlamaPartialRuntime F)
    {events : List (StageEvent D)} {s : StageState rt.executor.hp}
    (hrun : Run (PresentStep rt) (.initial rt.executor.hp) events s) {event : StageEvent D}
    (promptLen i : ℕ) (hstatus : s.status event.request.requestId = .running promptLen i)
    (hframe : IsFrame i (ascii "decode") 1 event.request) {response : RuntimeResponse}
    (hok : outcome (forward rt event.env event.request s.sessions) = .ok response) :
    ExecutedInPlace rt s event response (promptLen + i - 1) ↔
      (s.sessions.lookup event.request.requestId).isSome = true := by
  have hinStep : InStep rt s :=
    hrun.invariant (fun _ _ _ hidle => by cases hidle) fun _ _ _ h hstep => inStep_step h hstep
  constructor
  · -- A session created on demand stands at zero, not behind the prompt.
    intro hplace
    obtain ⟨hprompt, hi, -⟩ := hinStep _ _ _ hstatus
    by_contra hmissing
    rw [Bool.not_eq_true, Option.isSome_eq_false_iff, Option.isNone_iff_eq_none] at hmissing
    have hzero : (executedOn rt s event).kvCache.seqLen = 0 := by
      rw [executedOn, openedSession, hframe.continues, hmissing]
      rfl
    have hpos := hplace.session
    omega
  · intro hpresent
    have hstands := hinStep.executedOn hstatus hframe hpresent
    obtain ⟨session, -, hdone⟩ := serve_self (s := s) hframe.key hok .idle
    refine ⟨?_, hstands.counter, hstands.present⟩
    rw [hdone.step, updateKvCacheForRequest_seqBefore, hstands.counter]

/-- The tiny stage after one more prefill. -/
def afterPrefill (maxSessions : ℕ) (s : StageState tinyHyperparams) (requestId : Bytes)
    (promptLen : ℕ) : StageState tinyHyperparams :=
  s.serve (tinyRuntime [0] false false) (tinyEvent maxSessions requestId 0 (ascii "prefill")
    promptLen) (.running promptLen 1)

theorem isFrame_tinyEvent (maxSessions : ℕ) {requestId : Bytes} (h : requestId ≠ [])
    (i : ℕ) (mode : Bytes) (rows : ℕ) :
    IsFrame i mode rows (tinyEvent maxSessions requestId i mode rows).request :=
  ⟨h, rfl, rfl, rfl, rfl⟩

theorem afterPrefill_step (maxSessions : ℕ) (s : StageState tinyHyperparams) {requestId : Bytes}
    (h : requestId ≠ []) {promptLen : ℕ} (hpos : 1 ≤ promptLen)
    (hfits : promptLen * 8 ≤ dli2MaxTensorBytes) :
    PresentStep (tinyRuntime [0] false false) s
      (tinyEvent maxSessions requestId 0 (ascii "prefill") promptLen)
      (afterPrefill maxSessions s requestId promptLen) := by
  have hprefill : IsPrefill promptLen
      (tinyEvent maxSessions requestId 0 (ascii "prefill") promptLen).request :=
    ⟨isFrame_tinyEvent maxSessions h 0 _ promptLen, hpos, hfits⟩
  refine ⟨.prefill hprefill, fun hresets => ?_⟩
  rw [hprefill.resets] at hresets
  cases hresets

/-- With room for two sessions the first decode frame is executed in its place. -/
theorem decode_in_place_two_sessions :
    ExecutedInPlace (tinyRuntime [0] false false)
        (afterPrefill 2 (.initial tinyHyperparams) (ascii "a") 2)
        (tinyEvent 2 (ascii "a") 1 (ascii "decode") 1)
        ⟨false, -1, zeroHidden 1, ⟨2, 3, true⟩, []⟩ 2 ↔
      ((afterPrefill 2 (.initial tinyHyperparams) (ascii "a") 2).sessions.lookup
        (ascii "a")).isSome = true :=
  decode_in_place_iff_session_present (tinyRuntime [0] false false)
    (Run.start.next (afterPrefill_step 2 _ (by decide) (by decide) (by decide)))
    2 1 (by decide +kernel)
    (isFrame_tinyEvent 2 (by decide) 1 _ 1) (by decide +kernel)

/-- With room for one session the prefill of `b` removes the session of `a`.
The decode frame of `a` is then answered, at position zero instead of two. -/
theorem decode_answered_out_of_place :
    let prefilled := afterPrefill 1 (.initial tinyHyperparams) (ascii "a") 2
    let s := afterPrefill 1 prefilled (ascii "b") 1
    let decode := tinyEvent 1 (ascii "a") 1 (ascii "decode") 1
    let response : RuntimeResponse := ⟨false, -1, zeroHidden 1, ⟨0, 1, true⟩, []⟩
    Run (StageStep (tinyRuntime [0] false false)) (.initial tinyHyperparams)
        [tinyEvent 1 (ascii "a") 0 (ascii "prefill") 2,
          tinyEvent 1 (ascii "b") 0 (ascii "prefill") 1] s ∧
      s.status (ascii "a") = .running 2 1 ∧ IsFrame 1 (ascii "decode") 1 decode.request ∧
      outcome (forward (tinyRuntime [0] false false) decode.env decode.request s.sessions) =
        .ok response ∧
      ¬ExecutedInPlace (tinyRuntime [0] false false) s decode response 2 := by
  refine ⟨?_, by decide +kernel, isFrame_tinyEvent 1 (by decide) 1 _ 1, by decide +kernel,
    fun h => absurd h.seqBefore (by decide)⟩
  exact (Run.start.next (afterPrefill_step 1 _ (by decide) (by decide) (by decide)).1).next
    (afterPrefill_step 1 _ (by decide) (by decide) (by decide)).1

end LayerInference.SessionPositions
