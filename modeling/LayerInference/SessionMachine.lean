import LayerInference.PartialRuntime

/-!
# One session at a time

Serving a frame is an operation on the session of its own request: what it
answers and what it leaves under that key depend only on what was stored
under that key. Every other session is kept as it is or pruned. The session
machine states this for one key, and the runtime projects onto it.
-/

namespace LayerInference.SessionMachine

open ByteStrings FallibleRuns FloatArithmetic CpuExecutor PartialRuntime

variable {F D G : Type} [FloatArith F] [FloatArith D] [Numerics F D G]

/-- Find or create the only session there is. -/
def openSession (hp : LlamaExecutorHyperparams F) (env : ForwardEnv) (request : RuntimeRequest D) :
    EStateM Bytes (Option (LlamaRequestSession hp)) Unit := fun stored =>
  match if resetsSession request then none else stored with
  | some session => .ok () (some session)
  | none =>
    match checkHyperparams hp with
    | .error message => .error message none
    | .ok () => .ok () (some (.fresh hp env.executorEntropy))

/-- The service of a partition on an open session, by its role. -/
def roleBody (rt : LlamaPartialRuntime F) (env : ForwardEnv) (request : RuntimeRequest D) :
    EStateM Bytes (LlamaRequestSession rt.executor.hp) RuntimeResponse :=
  if rt.shard.ownsEmbedding then sourceBody rt request
  else if rt.shard.ownsLmHead || rt.shard.nextStageUrl.isEmpty then terminalBody rt env request
  else intermediateBody rt request

/-- Serving one frame, seen by the session of its request. -/
def serveSession (rt : LlamaPartialRuntime F) (env : ForwardEnv) (request : RuntimeRequest D) :
    EStateM Bytes (Option (LlamaRequestSession rt.executor.hp)) RuntimeResponse := do
  stateless (admission rt request)
  openSession rt.executor.hp env request
  onPart (fun stored => stored.getD (.fresh rt.executor.hp env.executorEntropy))
    (fun _ session => some session) (roleBody rt env request)

/-- The three roles differ in the body they run on the session. -/
theorem forward_eq (rt : LlamaPartialRuntime F) (env : ForwardEnv) (request : RuntimeRequest D) :
    forward rt env request = (do
      stateless (admission rt request)
      sessionForRequest env request
      onSession env (sessionKey request) (roleBody rt env request)) := by
  unfold forward roleBody forwardSourcePartition forwardTerminalPartition
    forwardIntermediatePartition
  split
  · rfl
  · split <;> rfl

omit [FloatArith D] in
theorem sessionKey_ne_nil (request : RuntimeRequest D) : sessionKey request ≠ [] := by
  unfold sessionKey
  split
  · decide
  · next h => simpa using h

omit [FloatArith D] in
/-- A frame is executed at the position counted so far. -/
@[simp] theorem updateKvCacheForRequest_seqBefore (request : RuntimeRequest D)
    (kvCache : PartitionKvCacheState) :
    (updateKvCacheForRequest request kvCache).1.seqBefore = kvCache.seqLen := by
  simp only [updateKvCacheForRequest]
  split <;> rfl

/-- The victim of a pruning pass is never the kept session. -/
theorem pruneVictim_ne {env : ForwardEnv} {keys : List Bytes} {keep victim : Bytes}
    (hnodup : keys.Nodup) (hkeep : keep ≠ []) (h : pruneVictim env keys keep = some victim) :
    victim ≠ keep := by
  have hnodup' := (env.order_perm keys).nodup_iff.mpr hnodup
  unfold pruneVictim at h
  split at h
  · cases h
  · next key rest hord =>
    rw [hord, List.nodup_cons] at hnodup'
    split at h
    · next hk =>
      obtain ⟨tail, rfl⟩ : ∃ tail, rest = victim :: tail := by
        cases rest with
        | nil => cases h
        | cons a tail => exact ⟨tail, by simpa using h⟩
      rintro rfl
      exact hnodup'.1 (by simp [hk.2])
    · next hk =>
      cases h
      exact fun heq => hk ⟨hkeep, heq⟩

section Pruning

variable {hp : LlamaExecutorHyperparams F} {env : ForwardEnv} {keep key : Bytes}

/-- Pruning keeps the session it was called for. -/
theorem pruneLoop_lookup_self (hkeep : keep ≠ []) (fuel : ℕ) (sessions : Sessions hp) :
    (pruneLoop env keep fuel sessions).lookup keep = sessions.lookup keep := by
  induction fuel generalizing sessions with
  | zero => rfl
  | succ fuel ih =>
    unfold pruneLoop
    split
    · split
      · rfl
      · next victim hv =>
        have hne := pruneVictim_ne sessions.keys_nodup hkeep hv
        rw [ih, AList.lookup_erase_ne hne.symm]
    · rfl

/-- Pruning changes no session, it only removes some. -/
theorem pruneLoop_lookup (env : ForwardEnv) (keep key : Bytes) (fuel : ℕ) (sessions : Sessions hp) :
    (pruneLoop env keep fuel sessions).lookup key = sessions.lookup key ∨
      (pruneLoop env keep fuel sessions).lookup key = none := by
  induction fuel generalizing sessions with
  | zero => exact .inl rfl
  | succ fuel ih =>
    unfold pruneLoop
    split
    · split
      · exact .inl rfl
      · next victim hv =>
        by_cases hkey : key = victim
        · have herase : (sessions.erase victim).lookup key = none := by
            rw [hkey, AList.lookup_erase]
          rcases ih (sessions.erase victim) with h | h
          · exact .inr (h.trans herase)
          · exact .inr h
        · rcases ih (sessions.erase victim) with h | h
          · exact .inl (h.trans (AList.lookup_erase_ne hkey))
          · exact .inr h
    · exact .inl rfl

/-- Finding a session, seen by its key. -/
theorem sessionForRequest_self (env : ForwardEnv) (request : RuntimeRequest D)
    (sessions : Sessions hp) :
    mapState (fun s => s.lookup (sessionKey request)) (sessionForRequest env request sessions) =
      openSession hp env request (sessions.lookup (sessionKey request)) := by
  have hprune (s : Sessions hp) :
      (pruneSessionsExcept env (sessionKey request) s).lookup (sessionKey request) =
        s.lookup (sessionKey request) :=
    pruneLoop_lookup_self (sessionKey_ne_nil request) _ s
  have hreset : (if resetsSession request then sessions.erase (sessionKey request)
      else sessions).lookup (sessionKey request) =
        if resetsSession request then none else sessions.lookup (sessionKey request) := by
    split
    · exact AList.lookup_erase _ _
    · rfl
  unfold sessionForRequest openSession
  dsimp only
  rw [← hreset]
  split
  · next session hs => simp only [mapState, hprune, hs]
  · next hs =>
    cases checkHyperparams hp with
    | error message => simp only [mapState, hs]
    | ok u => simp only [mapState, hprune, AList.lookup_insert, hs]

/-- Finding a session keeps or prunes every other session. -/
theorem sessionForRequest_other (env : ForwardEnv) (request : RuntimeRequest D)
    (sessions : Sessions hp) (hkey : key ≠ sessionKey request) :
    (finalState (sessionForRequest env request sessions)).lookup key = sessions.lookup key ∨
      (finalState (sessionForRequest env request sessions)).lookup key = none := by
  have hreset : (if resetsSession request then sessions.erase (sessionKey request)
      else sessions).lookup key = sessions.lookup key := by
    split
    · exact AList.lookup_erase_ne hkey
    · rfl
  have hinsert (s : Sessions hp) (fresh : LlamaRequestSession hp) :
      (s.insert (sessionKey request) fresh).lookup key = s.lookup key :=
    AList.lookup_insert_ne hkey
  unfold sessionForRequest
  dsimp only
  generalize (if resetsSession request then sessions.erase (sessionKey request)
    else sessions) = reset at hreset ⊢
  split
  · rw [← hreset]
    exact pruneLoop_lookup env _ key _ reset
  · cases checkHyperparams hp with
    | error message => exact .inl hreset
    | ok u =>
      rw [← hreset, ← hinsert reset (.fresh hp env.executorEntropy)]
      exact pruneLoop_lookup env _ key _ _

end Pruning

/-- Serving a frame projects onto the session machine of its request. -/
theorem forward_self (rt : LlamaPartialRuntime F) (env : ForwardEnv) (request : RuntimeRequest D)
    (sessions : Sessions rt.executor.hp) :
    mapState (fun s => s.lookup (sessionKey request)) (forward rt env request sessions) =
      serveSession rt env request (sessions.lookup (sessionKey request)) := by
  rw [forward_eq]
  refine mapState_bind ?_ fun _ sessions => mapState_bind ?_ fun _ sessions => ?_
  · cases admission rt request <;> rfl
  · exact sessionForRequest_self env request sessions
  · rw [onSession, onPart_apply, onPart_apply]
    cases roleBody rt env request _ <;> simp only [mapState, AList.lookup_insert]

/-- Serving a frame keeps or prunes the session of every other request. -/
theorem forward_other (rt : LlamaPartialRuntime F) (env : ForwardEnv) (request : RuntimeRequest D)
    (sessions : Sessions rt.executor.hp) {key : Bytes} (hkey : key ≠ sessionKey request) :
    (finalState (forward rt env request sessions)).lookup key = sessions.lookup key ∨
      (finalState (forward rt env request sessions)).lookup key = none := by
  rw [forward_eq, bind_apply]
  cases admission rt request with
  | error message => exact .inl rfl
  | ok u =>
    have hfind := sessionForRequest_other env request sessions hkey
    rw [stateless_ok]
    dsimp only
    rw [bind_apply]
    cases hs : sessionForRequest env request sessions with
    | error message s => rwa [hs] at hfind
    | ok u s =>
      rw [hs] at hfind
      dsimp only
      rw [onSession, onPart_apply, finalState_mapState, AList.lookup_insert_ne hkey]
      exact hfind

end LayerInference.SessionMachine
