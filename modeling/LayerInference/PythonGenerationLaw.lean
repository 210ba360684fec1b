import LayerInference.ModuleTransparency

/-!
# What a Python generation may contain

The gateway sends the end marker and the special ids with every frame, and the
last stage forbids them as long as the generation is too short. The metadata
passes all stages unchanged, so a finished generation has no special id too
early, and the end marker in it is always its last id and the reason why it
ended. This holds for any stages, routes and caches, as long as a selection
respects what it is told to avoid.
-/

namespace LayerInference.PythonGenerationLaw

open ByteStrings FallibleRuns LayerRanges PythonPipeline PythonStage TopologyRouting

variable {ν χ ℓ : Type}

section Forbidden

/-- A selection never returns an id that it is told to avoid. -/
def Respectful (process : StageProcess χ ℓ) : Prop :=
  ∀ profile tokenIndex logits sampling forbidden nextTokenId,
    process.selectNextToken profile tokenIndex logits sampling forbidden = .ok nextTokenId →
      nextTokenId ∉ forbidden

theorem mem_forbiddenTokenIds {metadata : RequestMetadata} {tokenIndex id : ℤ} :
    id ∈ forbiddenTokenIds metadata tokenIndex ↔ tokenIndex + 1 < metadata.minNewTokens ∧
      (id ∈ metadata.forbiddenTokenIdsBeforeMin ∨ metadata.eosTokenId = some id) := by
  unfold forbiddenTokenIds
  split
  · next hshort =>
    rw [List.mem_insertionSort, List.mem_dedup, List.mem_append, Option.mem_toList]
    exact ⟨fun h => ⟨hshort, h⟩, fun h => h.2⟩
  · next hlong => exact ⟨fun h => absurd h List.not_mem_nil, fun h => absurd h.1 hlong⟩

/-- The answer of a call carries an id that was not forbidden. -/
def Allowed (request : ForwardRequest) (response : StageForwardResponse) : Prop :=
  ∃ nextTokenId, response.nextTokenId = some nextTokenId ∧
    nextTokenId ∉ forbiddenTokenIds request.metadata request.base.tokenIndex

theorem allowed_finalizeResponse {process : StageProcess χ ℓ} (hprocess : Respectful process)
    {request : ForwardRequest} {hiddenStates : Tensor} {response : StageForwardResponse}
    (h : finalizeResponse process request hiddenStates = .ok response) :
    Allowed request response := by
  unfold finalizeResponse at h
  dsimp only at h
  split at h
  · cases h
  · split at h
    · cases h
    · next hselect =>
      cases h
      exact ⟨_, rfl, hprocess _ _ _ _ _ _ hselect⟩

theorem allowed_stateless {process : StageProcess χ ℓ} (hprocess : Respectful process)
    {request : ForwardRequest} {hiddenStates : Tensor} {response : StageForwardResponse}
    {caches after : NetworkCaches ν χ}
    (h : stateless (finalizeResponse process request hiddenStates) caches = .ok response after) :
    Allowed request response := by
  cases hfinalize : finalizeResponse process request hiddenStates with
  | error exception =>
    rw [hfinalize] at h
    cases h
  | ok finalized =>
    rw [hfinalize] at h
    cases h
    exact allowed_finalizeResponse hprocess hfinalize

variable [DecidableEq ν] {net : Network ν χ ℓ}

omit [DecidableEq ν] in
/-- A post answers with what was answered to it. -/
theorem allowed_postForward {frame : ForwardRequest}
    {send : ν → ForwardRequest →
      EStateM HTTPException (NetworkCaches ν χ) StageForwardResponse}
    {failed : Text → Option ℕ → HTTPException} {url : Text} {request : ForwardRequest}
    {response : StageForwardResponse} {caches after : NetworkCaches ν χ}
    (hsend : ∀ server response caches after,
      send server request caches = .ok response after → Allowed frame response)
    (h : postForward net send failed url request caches = .ok response after) :
    Allowed frame response := by
  unfold postForward at h
  split at h
  · cases h
  · split at h
    · next hpost =>
      cases h
      exact hsend _ _ _ _ hpost
    · cases h

/-- What is sent on keeps the metadata and the token index, so what comes back is
allowed for the frame that arrived. -/
theorem allowed_runForwardFlow (hnet : ∀ server, Respectful (net.process server))
    {send : ν → ForwardRequest →
      EStateM HTTPException (NetworkCaches ν χ) StageForwardResponse}
    (hsend : ∀ server request response caches after,
      send server request caches = .ok response after → Allowed request response)
    {server : ν} {request : ForwardRequest} {response : StageForwardResponse}
    {caches after : NetworkCaches ν χ}
    (h : runForwardFlow net send server request caches = .ok response after) :
    Allowed request response := by
  unfold runForwardFlow at h
  rw [bind_apply] at h
  cases hexecute : executeForward net server request.base caches with
  | error exception between =>
    rw [hexecute] at h
    cases h
  | ok answered between =>
    rw [hexecute] at h
    cases hnext : (net.process server).nextStageUrl with
    | none =>
      simp only [hnext] at h
      exact allowed_stateless (hnet server) h
    | some default =>
      cases default with
      | nil =>
        simp only [hnext] at h
        exact allowed_stateless (hnet server) h
      | cons c cs =>
        cases hresolve : resolveNextStageUrl net.unicode (net.process server).stageId
            (some (c :: cs)) request.moduleFlags.topologyAwareRouting
            request.metadata.topologyRouteOverrides with
        | none =>
          simp only [hnext, hresolve] at h
          cases h
        | some url =>
          cases url with
          | nil =>
            simp only [hnext, hresolve] at h
            cases h
          | cons d ds =>
            simp only [hnext, hresolve] at h
            have hallowed : Allowed (nextRequest net request answered.outputTensor) response :=
              allowed_postForward (fun _ _ _ _ hpost => hsend _ _ _ _ _ hpost) h
            exact hallowed

theorem allowed_forward (hnet : ∀ server, Respectful (net.process server)) (hops : ℕ)
    {server : ν} {request : ForwardRequest} {response : StageForwardResponse}
    {caches after : NetworkCaches ν χ}
    (h : forward net hops server request caches = .ok response after) :
    Allowed request response := by
  induction hops generalizing server request response caches after with
  | zero =>
    refine allowed_runForwardFlow hnet (fun server request response caches after hsend => ?_) h
    cases hsend
  | succ hops ih =>
    exact allowed_runForwardFlow hnet (fun _ _ _ _ _ hsend => ih hsend) h

theorem allowed_forwardToken (hnet : ∀ server, Respectful (net.process server)) {gateway : Gateway}
    {request : GenerateRequest} {requestId : Bytes} {overrides : Overrides} {tokenIndex : ℕ}
    {inputIds : List ℤ} {response : StageForwardResponse} {caches after : NetworkCaches ν χ}
    (h : forwardToken gateway net request requestId overrides tokenIndex inputIds caches =
      .ok response after) :
    Allowed (tokenRequest gateway net request requestId overrides tokenIndex inputIds)
      response := by
  exact allowed_postForward (fun _ _ _ _ hforward => allowed_forward hnet _ hforward) h

end Forbidden

section Law

/-- What a loop may add from a token on, with the rounds that it has. -/
structure Lawful (gateway : Gateway) (request : GenerateRequest) (tokenIndex rounds : ℕ)
    (added : List ℤ) (reason : TerminationReason) : Prop where
  bounded : added.length ≤ rounds
  exhausted : reason = .maxNewTokens → added.length = rounds
  ended : reason = .eos → ∃ eosTokenId, gateway.tokenizer.eosTokenId = some eosTokenId ∧
    added.getLast? = some eosTokenId ∧ request.minNewTokens ≤ tokenIndex + added.length
  special : ∀ i id, added[i]? = some id → tokenIndex + i + 1 < request.minNewTokens →
    id ∉ gateway.tokenizer.allSpecialIds
  marker : ∀ i id, added[i]? = some id → gateway.tokenizer.eosTokenId = some id →
    i + 1 = added.length ∧ reason = .eos

variable {gateway : Gateway} {request : GenerateRequest} {tokenIndex rounds : ℕ}

theorem lawful_nil : Lawful gateway request tokenIndex 0 [] .maxNewTokens where
  bounded := le_rfl
  exhausted _ := rfl
  ended h := by cases h
  special i id h := by cases h
  marker i id h := by cases h

/-- The ids that a token may not have. -/
def AllowedId (gateway : Gateway) (request : GenerateRequest) (tokenIndex : ℕ) (id : ℤ) : Prop :=
  tokenIndex + 1 < request.minNewTokens →
    id ∉ gateway.tokenizer.allSpecialIds ∧ gateway.tokenizer.eosTokenId ≠ some id

/-- An id with which the loop stops. -/
theorem lawful_stop {id : ℤ} (hallowed : AllowedId gateway request tokenIndex id)
    (hstop : gateway.tokenizer.eosTokenId = some id)
    (hlong : request.minNewTokens ≤ tokenIndex + 1) :
    Lawful gateway request tokenIndex (rounds + 1) [id] .eos where
  bounded := Nat.succ_le_succ (Nat.zero_le rounds)
  exhausted h := by cases h
  ended _ := ⟨id, hstop, rfl, hlong⟩
  special i other hother hshort := by
    have hi : i = 0 := by
      have hlt := (List.getElem?_eq_some_iff.mp hother).1
      rw [List.length_singleton] at hlt
      omega
    subst hi
    cases hother
    exact (hallowed hshort).1
  marker i other hother _ := by
    have hlt := (List.getElem?_eq_some_iff.mp hother).1
    rw [List.length_singleton] at hlt ⊢
    exact ⟨by omega, rfl⟩

/-- An id with which the loop goes on, before what the later rounds add. -/
theorem Lawful.cons {id : ℤ} {added : List ℤ} {reason : TerminationReason}
    (h : Lawful gateway request (tokenIndex + 1) rounds added reason)
    (hallowed : AllowedId gateway request tokenIndex id)
    (hgo : gateway.tokenizer.eosTokenId = some id → tokenIndex + 1 < request.minNewTokens) :
    Lawful gateway request tokenIndex (rounds + 1) (id :: added) reason where
  bounded := Nat.succ_le_succ h.bounded
  exhausted hreason := congrArg Nat.succ (h.exhausted hreason)
  ended hreason := by
    obtain ⟨eosTokenId, heos, hlast, hlong⟩ := h.ended hreason
    refine ⟨eosTokenId, heos, ?_, ?_⟩
    · rw [List.getLast?_cons, hlast]
      rfl
    · rw [List.length_cons]
      omega
  special i other hother hshort := by
    cases i with
    | zero =>
      cases hother
      exact (hallowed hshort).1
    | succ i => exact h.special i other hother (by omega)
  marker i other hother hmarker := by
    cases i with
    | zero =>
      cases hother
      exact absurd hmarker (hallowed (hgo hmarker)).2
    | succ i =>
      obtain ⟨hlength, hreason⟩ := h.marker i other hother hmarker
      exact ⟨congrArg Nat.succ hlength, hreason⟩

variable [DecidableEq ν] {net : Network ν χ ℓ} {requestId : Bytes} {overrides : Overrides}

/-- The id of an answer is allowed for its token. -/
theorem allowedId_forwardToken (hnet : ∀ server, Respectful (net.process server))
    {inputIds : List ℤ} {response : StageForwardResponse} {caches after : NetworkCaches ν χ}
    {id : ℤ} (hid : response.nextTokenId = some id)
    (h : forwardToken gateway net request requestId overrides tokenIndex inputIds caches =
      .ok response after) : AllowedId gateway request tokenIndex id := by
  intro hshort
  obtain ⟨nextTokenId, hnext, hallowed⟩ := allowed_forwardToken hnet h
  obtain rfl := Option.some.inj (hnext.symm.trans hid)
  have hindex : (tokenRequest gateway net request requestId overrides tokenIndex
      inputIds).base.tokenIndex = tokenIndex := loopRequest_tokenIndex _ _ _ _
  rw [mem_forbiddenTokenIds, hindex, not_and] at hallowed
  have hnot := hallowed (by exact_mod_cast hshort)
  rw [not_or] at hnot
  refine ⟨fun hspecial => hnot.1 ?_, hnot.2⟩
  exact (List.mem_insertionSort _).mpr (List.mem_dedup.mpr hspecial)

/-- The loop adds lawful ids, by induction on the rounds that are left. -/
theorem lawful_generateTokens (hnet : ∀ server, Respectful (net.process server))
    {inputIds generatedTokenIds : List ℤ} {caches after : NetworkCaches ν χ}
    {result : List ℤ × TerminationReason}
    (h : generateTokens gateway net request requestId overrides rounds tokenIndex inputIds
      generatedTokenIds caches = .ok result after) :
    ∃ added, result.1 = generatedTokenIds ++ added ∧
      Lawful gateway request tokenIndex rounds added result.2 := by
  induction rounds generalizing tokenIndex inputIds generatedTokenIds caches with
  | zero =>
    cases h
    exact ⟨[], (List.append_nil _).symm, lawful_nil⟩
  | succ rounds ih =>
    rw [generateTokens, bind_apply] at h
    cases hcall : forwardToken gateway net request requestId overrides tokenIndex inputIds
        caches with
    | error exception between =>
      rw [hcall] at h
      cases h
    | ok response between =>
      rw [hcall] at h
      cases hid : response.nextTokenId with
      | none =>
        simp only [hid] at h
        cases h
      | some id =>
        have hallowed := allowedId_forwardToken hnet hid hcall
        simp only [hid] at h
        split at h
        · next hstop =>
          cases h
          rw [Bool.and_eq_true, shouldStop, beq_iff_eq, decide_eq_true_eq] at hstop
          exact ⟨[id], rfl, lawful_stop hallowed hstop.1 hstop.2⟩
        · next hgo =>
          obtain ⟨added, hadded, hlawful⟩ := ih h
          refine ⟨id :: added, by rw [hadded, List.append_assoc]; rfl, hlawful.cons hallowed ?_⟩
          intro hmarker
          by_contra hlong
          refine hgo ?_
          rw [Bool.and_eq_true, shouldStop, beq_iff_eq, decide_eq_true_eq]
          exact ⟨hmarker, not_lt.mp hlong⟩

/-- A finished generation has at most the ids that were asked for, and fewer only
after the end marker. No special id comes before the least number of new ids,
and the end marker is nowhere but at the end of a generation that it ended. -/
theorem generation_lawful (hnet : ∀ server, Respectful (net.process server)) {probes : Probes}
    {routes : RouterState} {caches after : NetworkCaches ν χ} {response : GenerateResponse}
    (h : generate gateway net request requestId probes routes caches = .ok response after) :
    Lawful gateway request 0 request.maxNewTokens response.generatedTokenIds
      response.terminationReason := by
  unfold generate at h
  rw [bind_apply] at h
  split at h
  · next hloop =>
    cases h
    obtain ⟨added, hadded, hlawful⟩ := lawful_generateTokens hnet hloop
    rw [List.nil_append] at hadded
    rw [generateResponse, hadded]
    exact hlawful
  · cases h

end Law

section Echo

open ModuleTransparency

theorem respectful_echo (server : ℕ) : Respectful (echoNetwork.process server) := by
  intro profile tokenIndex logits sampling forbidden nextTokenId h
  have hselect : countOn logits forbidden = .ok nextTokenId := by
    unfold echoNetwork at h
    dsimp only at h
    split at h <;> exact h
  unfold countOn at hselect
  split at hselect
  · next hfind =>
    cases hselect
    have hallowed := List.find?_some hfind
    rw [decide_eq_true_eq] at hallowed
    exact hallowed
  · cases hselect

/-- The echoing stages skip the end marker as the third id and end with it as the
seventh. -/
theorem generation_lawful_echo : ∃ response after,
    generate echoGateway echoNetwork echoRequest [7] echoProbes .initial
      (fun _ => ⟨.empty, .empty, []⟩) = .ok response after ∧
    response.generatedTokenIds = [2, 3, 0, 1, 2, 3, 4] ∧
    Lawful echoGateway echoRequest 0 echoRequest.maxNewTokens response.generatedTokenIds
      response.terminationReason := by
  have hids : (outcome (generate echoGateway echoNetwork echoRequest [7] echoProbes .initial
      fun _ => ⟨.empty, .empty, []⟩)).toOption.map (·.generatedTokenIds) =
        some [2, 3, 0, 1, 2, 3, 4] := by
    decide +kernel
  cases hrun : generate echoGateway echoNetwork echoRequest [7] echoProbes .initial
      fun _ => ⟨.empty, .empty, []⟩ with
  | ok response after =>
    rw [hrun] at hids
    exact ⟨response, after, rfl, Option.some.inj hids, generation_lawful respectful_echo hrun⟩
  | error exception after =>
    rw [hrun] at hids
    cases hids

end Echo

end LayerInference.PythonGenerationLaw
