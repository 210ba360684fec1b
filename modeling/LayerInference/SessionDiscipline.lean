import LayerInference.SessionIsolation
import Mathlib.Order.WellFounded

/-!
# The discipline of the session map

A request finds or creates its session, and the others are pruned until the
maximum holds. The pruning loop is a relation here: each pass may meet another
iteration order of the map. Every sequence of passes ends, it ends within the
maximum, and it never removes the session that the call returns. The loop of
the runtime is one such sequence. The executor of a new session can be refused;
then the map was empty in every run.
-/

namespace LayerInference.SessionDiscipline

open ByteStrings FallibleRuns FloatArithmetic CpuExecutor PartitionExecution PartialRuntime
  SessionMachine SessionIsolation Relation

variable {F D G : Type} [FloatArith F] [FloatArith D] [Numerics F D G]
  {hp : LlamaExecutorHyperparams F}

/-- One pass of the pruning loop, in some iteration order of the map. -/
def PrunePass (maxSessions : ℕ) (keepRequestId : Bytes) (before after : Sessions hp) : Prop :=
  max 1 maxSessions < before.keys.length ∧ ∃ env : ForwardEnv, ∃ victim,
    pruneVictim env before.keys keepRequestId = some victim ∧ after = before.erase victim

/-- The map after the reset of a first prefill. -/
def resetSessions (request : RuntimeRequest D) (sessions : Sessions hp) : Sessions hp :=
  if resetsSession request then sessions.erase (sessionKey request) else sessions

/-- The session that a call finds or creates, before the others are pruned. -/
def foundSession (env : ForwardEnv) (request : RuntimeRequest D) (sessions : Sessions hp) :
    LlamaRequestSession hp :=
  ((resetSessions request sessions).lookup (sessionKey request)).getD
    (.fresh hp env.executorEntropy)

/-- The map in which a call finds its session. -/
def foundSessions (env : ForwardEnv) (request : RuntimeRequest D) (sessions : Sessions hp) :
    Sessions hp :=
  if ((resetSessions request sessions).lookup (sessionKey request)).isSome then
    resetSessions request sessions
  else (resetSessions request sessions).insert (sessionKey request)
    (.fresh hp env.executorEntropy)

/-- A call that pruned in any order and left the loop. -/
structure EndsCall (env : ForwardEnv) (request : RuntimeRequest D) (before after : Sessions hp) :
    Prop where
  passes : ReflTransGen (PrunePass env.maxSessions (sessionKey request))
    (foundSessions env request before) after
  ended : ∀ next, ¬PrunePass env.maxSessions (sessionKey request) after next

/-- What a call guarantees about the map and the returned session. -/
structure Disciplined (maxSessions : ℕ) (request : RuntimeRequest D)
    (session : LlamaRequestSession hp) (before after : Sessions hp) : Prop where
  bounded : after.keys.length ≤ max 1 maxSessions
  stored : after.lookup (sessionKey request) = some session
  reset : request.generationMode = ascii "prefill" ∧ request.tokenIndex = 0 →
    session.kvCache.seqLen = 0 ∧ ∀ layerId, session.executor.layerCache layerId = {}
  unchanged : ¬(request.generationMode = ascii "prefill" ∧ request.tokenIndex = 0) →
    ∀ previous, before.lookup (sessionKey request) = some previous → session = previous

/-- The session map after a sequence of frames. -/
def sessionsAfter (rt : LlamaPartialRuntime F) (events : List (StageEvent D)) :
    Sessions rt.executor.hp :=
  events.foldl (fun sessions event => finalState (forward rt event.env event.request sessions)) ∅

section Pruning

variable {maxSessions : ℕ} {keep : Bytes} {before after : Sessions hp}

theorem pruneVictim_mem {env : ForwardEnv} {keys : List Bytes} {victim : Bytes}
    (h : pruneVictim env keys keep = some victim) : victim ∈ keys := by
  rw [← (env.order_perm keys).mem_iff]
  unfold pruneVictim at h
  cases horder : env.order keys with
  | nil =>
    rw [horder] at h
    cases h
  | cons key rest =>
    rw [horder] at h
    dsimp only at h
    by_cases hskip : keep ≠ [] ∧ key = keep
    · rw [if_pos hskip] at h
      exact List.mem_cons_of_mem key (List.mem_of_mem_head? h)
    · rw [if_neg hskip, Option.some.injEq] at h
      exact h ▸ List.mem_cons_self

/-- Above one session every order has a victim. -/
theorem pruneVictim_exists (env : ForwardEnv) {keys : List Bytes} (h : 1 < keys.length) :
    ∃ victim, pruneVictim env keys keep = some victim := by
  have hlength := (env.order_perm keys).length_eq
  unfold pruneVictim
  cases horder : env.order keys with
  | nil =>
    rw [horder, List.length_nil] at hlength
    omega
  | cons key rest =>
    rw [horder, List.length_cons] at hlength
    dsimp only
    by_cases hskip : keep ≠ [] ∧ key = keep
    · rw [if_pos hskip]
      cases rest with
      | nil =>
        rw [List.length_nil] at hlength
        omega
      | cons next rest => exact ⟨next, rfl⟩
    · exact ⟨key, if_neg hskip⟩

theorem erase_keys_length {victim : Bytes} (h : victim ∈ before.keys) :
    (before.erase victim).keys.length + 1 = before.keys.length := by
  have hpos := List.length_pos_of_mem h
  have herase := @List.length_erase_of_mem Bytes instBEqOfDecidableEq _ victim before.keys h
  rw [AList.keys_erase, herase]
  omega

/-- A pass removes one session. -/
theorem PrunePass.length (h : PrunePass maxSessions keep before after) :
    after.keys.length + 1 = before.keys.length := by
  obtain ⟨-, env, victim, hvictim, rfl⟩ := h
  exact erase_keys_length (pruneVictim_mem hvictim)

/-- A pass keeps the session of the call. -/
theorem PrunePass.lookup (h : PrunePass maxSessions keep before after) (hkeep : keep ≠ []) :
    after.lookup keep = before.lookup keep := by
  obtain ⟨-, env, victim, hvictim, rfl⟩ := h
  exact AList.lookup_erase_ne (pruneVictim_ne before.keys_nodup hkeep hvictim).symm

/-- No sequence of passes goes on forever. -/
theorem prunePass_wellFounded (maxSessions : ℕ) (keep : Bytes) :
    WellFounded fun after before : Sessions hp => PrunePass maxSessions keep before after := by
  refine Subrelation.wf (fun {after before} h => ?_)
    (InvImage.wf (fun sessions : Sessions hp => sessions.keys.length) Nat.lt_wfRel.wf)
  have hlength := PrunePass.length h
  change after.keys.length < before.keys.length
  omega

theorem passes_lookup (h : ReflTransGen (PrunePass maxSessions keep) before after)
    (hkeep : keep ≠ []) : after.lookup keep = before.lookup keep := by
  induction h with
  | refl => rfl
  | tail _ hpass ih => exact (hpass.lookup hkeep).trans ih

/-- The loop is left exactly within the maximum. -/
theorem ended_iff :
    (∀ next, ¬PrunePass maxSessions keep before next) ↔
      before.keys.length ≤ max 1 maxSessions := by
  constructor
  · intro hended
    by_contra habove
    obtain ⟨victim, hvictim⟩ := @pruneVictim_exists keep (.newestFirst maxSessions) _
      (show 1 < before.keys.length by omega)
    exact hended _ ⟨by omega, _, victim, hvictim, rfl⟩
  · intro hbound next hpass
    have habove := hpass.1
    omega

/-- The loop of the runtime is a sequence of passes that ends, with one pass
for each session as fuel. -/
theorem pruneLoop_passes (env : ForwardEnv) (keep : Bytes) (fuel : ℕ) (sessions : Sessions hp)
    (hfuel : sessions.keys.length ≤ fuel) :
    ReflTransGen (PrunePass env.maxSessions keep) sessions (pruneLoop env keep fuel sessions) ∧
      (pruneLoop env keep fuel sessions).keys.length ≤ max 1 env.maxSessions := by
  induction fuel generalizing sessions with
  | zero =>
    rw [pruneLoop]
    exact ⟨.refl, by omega⟩
  | succ fuel ih =>
    rw [pruneLoop]
    by_cases habove : sessions.keys.length > max 1 env.maxSessions
    · rw [if_pos habove]
      obtain ⟨victim, hvictim⟩ := @pruneVictim_exists keep env _
        (show 1 < sessions.keys.length by omega)
      have hlength := erase_keys_length (pruneVictim_mem hvictim)
      obtain ⟨hpasses, hbound⟩ := ih (sessions.erase victim) (by omega)
      rw [hvictim]
      exact ⟨.head ⟨habove, env, victim, hvictim, rfl⟩ hpasses, hbound⟩
    · rw [if_neg habove]
      exact ⟨.refl, by omega⟩

end Pruning

section Calls

variable {env : ForwardEnv} {request : RuntimeRequest D} {before after : Sessions hp}

omit [FloatArith D] in
theorem resetsSession_iff (request : RuntimeRequest D) : resetsSession request = true ↔
    request.generationMode = ascii "prefill" ∧ request.tokenIndex = 0 := by
  rw [resetsSession, Bool.and_eq_true, decide_eq_true_eq, beq_iff_eq]

theorem resetSessions_lookup (request : RuntimeRequest D) (sessions : Sessions hp) :
    (resetSessions request sessions).lookup (sessionKey request) =
      if resetsSession request then none else sessions.lookup (sessionKey request) := by
  unfold resetSessions
  by_cases hreset : resetsSession request = true
  · rw [if_pos hreset, if_pos hreset, AList.lookup_erase]
  · rw [if_neg hreset, if_neg hreset]

theorem foundSessions_lookup (env : ForwardEnv) (request : RuntimeRequest D)
    (sessions : Sessions hp) :
    (foundSessions env request sessions).lookup (sessionKey request) =
      some (foundSession env request sessions) := by
  unfold foundSessions foundSession
  cases hlookup : (resetSessions request sessions).lookup (sessionKey request) with
  | none =>
    rw [if_neg (by simp), AList.lookup_insert]
    rfl
  | some session =>
    rw [if_pos (by simp), hlookup]
    rfl

/-- With an accepted model a call is the search followed by the pruning. -/
theorem sessionForRequest_eq (hcheck : checkHyperparams hp = .ok ()) (env : ForwardEnv)
    (request : RuntimeRequest D) (sessions : Sessions hp) :
    sessionForRequest env request sessions =
      .ok () (pruneSessionsExcept env (sessionKey request)
        (foundSessions env request sessions)) := by
  have hreset : (if resetsSession request then sessions.erase (sessionKey request) else sessions) =
      resetSessions request sessions := rfl
  unfold sessionForRequest foundSessions
  dsimp only
  rw [hreset, hcheck]
  cases (resetSessions request sessions).lookup (sessionKey request) with
  | none => rfl
  | some session => rfl

/-- The call of the runtime is a call that ended. -/
theorem endsCall_sessionForRequest (hcheck : checkHyperparams hp = .ok ()) (env : ForwardEnv)
    (request : RuntimeRequest D) (sessions : Sessions hp) :
    ∃ after, sessionForRequest env request sessions = .ok () after ∧
      EndsCall env request sessions after := by
  obtain ⟨hpasses, hbound⟩ := pruneLoop_passes env (sessionKey request) _
    (foundSessions env request sessions) le_rfl
  exact ⟨_, sessionForRequest_eq hcheck env request sessions, hpasses, ended_iff.mpr hbound⟩

/-- Every call that ended is disciplined. -/
theorem EndsCall.disciplined (h : EndsCall env request before after) :
    Disciplined env.maxSessions request (foundSession env request before) before after where
  bounded := ended_iff.mp h.ended
  stored := (passes_lookup h.passes (sessionKey_ne_nil request)).trans
    (foundSessions_lookup env request before)
  reset hreset := by
    unfold foundSession
    rw [resetSessions_lookup, if_pos ((resetsSession_iff request).mpr hreset)]
    exact ⟨rfl, fun _ => rfl⟩
  unchanged hreset previous hprevious := by
    unfold foundSession
    rw [resetSessions_lookup, if_neg (mt (resetsSession_iff request).mp hreset), hprevious]
    rfl

/-- A refused model leaves an empty map empty. -/
theorem sessionForRequest_refused {message : Bytes} (hcheck : checkHyperparams hp = .error message)
    (env : ForwardEnv) (request : RuntimeRequest D) :
    sessionForRequest env request (∅ : Sessions hp) = .error message ∅ := by
  have hreset : (if resetsSession request then (∅ : Sessions hp).erase (sessionKey request)
      else ∅) = ∅ := by
    by_cases h : resetsSession request = true
    · rw [if_pos h]
      rfl
    · rw [if_neg h]
  unfold sessionForRequest
  dsimp only
  rw [hreset, AList.lookup_empty, hcheck]

end Calls

section RunsOfFrames

variable {rt : LlamaPartialRuntime F}

/-- With a refused model no frame creates a session. -/
theorem sessionsAfter_refused {message : Bytes}
    (hcheck : checkHyperparams rt.executor.hp = .error message) (events : List (StageEvent D)) :
    sessionsAfter rt events = ∅ := by
  unfold sessionsAfter
  induction events with
  | nil => rfl
  | cons event events ih =>
    have hstep : finalState (forward rt event.env event.request ∅) = ∅ := by
      rw [forward_eq, bind_apply]
      cases admission rt event.request with
      | error message => rfl
      | ok u =>
        rw [stateless_ok]
        dsimp only
        rw [bind_apply, sessionForRequest_refused hcheck]
        rfl
    rw [List.foldl_cons, hstep]
    exact ih

/-- Storing the session of a frame again does not add one. -/
theorem insert_keys_length {sessions : Sessions hp} {key : Bytes}
    {stored session : LlamaRequestSession hp} (h : sessions.lookup key = some stored) :
    (sessions.insert key session).keys.length = sessions.keys.length := by
  have hmem : key ∈ sessions := AList.lookup_isSome.mp (h ▸ rfl)
  have hpos := List.length_pos_of_mem (AList.mem_keys.mp hmem)
  have herase := @List.length_erase_of_mem Bytes instBEqOfDecidableEq _ key sessions.keys hmem
  rw [AList.keys_insert, List.length_cons, herase]
  omega

/-- Serving a frame leaves the map within the maximum. -/
theorem forward_bounded (hcheck : checkHyperparams rt.executor.hp = .ok ()) (env : ForwardEnv)
    (request : RuntimeRequest D) {sessions : Sessions rt.executor.hp}
    (hbound : sessions.keys.length ≤ max 1 env.maxSessions) :
    (finalState (forward rt env request sessions)).keys.length ≤ max 1 env.maxSessions := by
  rw [forward_eq, bind_apply]
  cases admission rt request with
  | error message => exact hbound
  | ok u =>
    rw [stateless_ok]
    dsimp only
    rw [bind_apply]
    obtain ⟨after, hcall, hends⟩ := endsCall_sessionForRequest hcheck env request sessions
    have hdisciplined := hends.disciplined
    rw [hcall]
    dsimp only
    rw [onSession, onPart_apply, finalState_mapState, insert_keys_length hdisciplined.stored]
    exact hdisciplined.bounded

/-- After every run under one maximum the map is within it. -/
theorem sessionsAfter_bounded (rt : LlamaPartialRuntime F) {events : List (StageEvent D)}
    {maxSessions : ℕ} (hmax : ∀ event ∈ events, event.env.maxSessions = maxSessions) :
    (sessionsAfter rt events).keys.length ≤ max 1 maxSessions := by
  cases hcheck : checkHyperparams rt.executor.hp with
  | error message =>
    rw [sessionsAfter_refused hcheck]
    exact Nat.zero_le _
  | ok u =>
    have hrun (sessions : Sessions rt.executor.hp)
        (hbound : sessions.keys.length ≤ max 1 maxSessions) :
        (events.foldl (fun sessions event =>
          finalState (forward rt event.env event.request sessions)) sessions).keys.length ≤
            max 1 maxSessions := by
      induction events generalizing sessions with
      | nil => exact hbound
      | cons event events ih =>
        have hevent := hmax event List.mem_cons_self
        refine ih (fun e he => hmax e (List.mem_cons_of_mem event he)) _ ?_
        rw [← hevent] at hbound ⊢
        exact forward_bounded hcheck event.env event.request hbound
    exact hrun ∅ (Nat.zero_le _)

end RunsOfFrames

/-- In every run each call ends for every iteration order, within the maximum,
with its session stored: a new one for a first prefill, the previous one for
any other frame. A model that is refused never has a session. Under one maximum
the map stays within it. -/
theorem session_map_discipline (rt : LlamaPartialRuntime F) (events : List (StageEvent D))
    (env : ForwardEnv) (request : RuntimeRequest D) :
    (WellFounded fun after before : Sessions rt.executor.hp =>
        PrunePass env.maxSessions (sessionKey request) before after) ∧
      (∀ maxSessions, (∀ event ∈ events, event.env.maxSessions = maxSessions) →
        (sessionsAfter rt events).keys.length ≤ max 1 maxSessions) ∧
      match checkHyperparams rt.executor.hp with
      | .ok _ =>
        (∃ after, sessionForRequest env request (sessionsAfter rt events) = .ok () after ∧
          EndsCall env request (sessionsAfter rt events) after) ∧
        ∀ after, EndsCall env request (sessionsAfter rt events) after →
          Disciplined env.maxSessions request (foundSession env request (sessionsAfter rt events))
            (sessionsAfter rt events) after
      | .error message =>
        sessionsAfter rt events = ∅ ∧
          sessionForRequest env request (sessionsAfter rt events) = .error message ∅ := by
  refine ⟨prunePass_wellFounded _ _, fun maxSessions hmax => sessionsAfter_bounded rt hmax, ?_⟩
  cases hcheck : checkHyperparams rt.executor.hp with
  | ok u => exact ⟨endsCall_sessionForRequest hcheck env request _, fun after h => h.disciplined⟩
  | error message =>
    have hempty := sessionsAfter_refused hcheck events
    refine ⟨hempty, ?_⟩
    rw [hempty]
    exact sessionForRequest_refused hcheck env request

end LayerInference.SessionDiscipline
