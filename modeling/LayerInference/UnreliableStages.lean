import LayerInference.OneSidedRuns
import LayerInference.SessionEffects
import LayerInference.StageSequence

/-!
# Stages behind unreliable connections

A client posts a frame, and when the attempt throws it posts the frame a second time.
The first attempt may fail although the stage has served the frame, and nothing in a
stage recognizes a frame that it has served. A first prefill starts its session anew,
so serving it again leaves what serving it once leaves; a decode frame is applied to
the session as often as it arrives.
-/

namespace LayerInference.UnreliableStages

open ByteStrings FallibleRuns RunSimulation OneSidedRuns FloatArithmetic TensorAbi CpuExecutor
  PartitionExecution PartialRuntime SessionMachine SessionEffects JsonText PartitionRouting
  GenerationLoop StagePipeline StageSequence

variable {F D G : Type} [FloatArith F] [FloatArith D] [Numerics F D G]

section Network

/-- What becomes of one attempt to post a frame. -/
inductive Fate where
  /-- The attempt throws before the stage has the frame. -/
  | undelivered (message : Bytes)
  /-- The stage answers. -/
  | answered
  /-- The stage serves the frame, and the attempt throws for want of an answer. -/
  | lost (message : Bytes)
  /-- The answer ends inside its body. The text is what is left of an error text, or
  says why the rest is no frame. -/
  | cut (text : Bytes)

/-- The sessions of the stages, the number of attempts so far, and every frame that
reached a stage. -/
structure NetworkState (hp : LlamaExecutorHyperparams F) (D : Type) where
  states : StageStates hp
  attempts : ℕ := 0
  served : List (ℕ × RuntimeRequest D) := []

/-- A deployment with the fate of every attempt, by its number, its stage and its frame. -/
structure Network (F D : Type) where
  deployment : Deployment F D
  fate : ℕ → ℕ → RuntimeRequest D → Fate

/-- A run over the stages of a network. -/
abbrev NetworkM (net : Network F D) := EStateM Bytes (NetworkState net.deployment.hp D)

variable (net : Network F D)

/-- Serve a frame that has reached its stage. -/
def Network.serve (i : ℕ) (request : RuntimeRequest D) : NetworkM net RuntimeResponse := fun s =>
  mapState (fun states => { s with states := states, served := s.served ++ [(i, request)] })
    (net.deployment.serve i request s.states)

/-- An answer that ends inside its body: a frame is then refused behind the client, an
error text is taken as it is. -/
def cutAnswer {φ : Type} (text : Bytes) (result : StageClientResult φ) :
    Except Bytes (StageClientResult φ) :=
  if isSuccess result.httpStatus then .error text else .ok { result with errorBody := text }

/-- One attempt: what the client throws, or its answer. -/
def Network.postBinaryOnce {φ : Type} (i : ℕ) (request : RuntimeRequest D)
    (answer : NetworkM net (StageClientResult φ)) :
    NetworkM net (Except Bytes (StageClientResult φ)) := fun s =>
  let tried := { s with attempts := s.attempts + 1 }
  match net.fate s.attempts i request with
  | .undelivered message => .ok (.error message) tried
  | .answered => (answer >>= fun result => pure (.ok result)) tried
  | .lost message => (answer >>= fun _ => pure (.error message)) tried
  | .cut text =>
    (answer >>= fun result => stateless (cutAnswer text result) >>= fun rest =>
      pure (.ok rest)) tried

/-- Two attempts. -/
def Network.postBinary {φ : Type} (i : ℕ) (request : RuntimeRequest D)
    (answer : NetworkM net (StageClientResult φ)) : NetworkM net (StageClientResult φ) :=
  net.postBinaryOnce i request answer >>= fun first =>
    match first with
    | .ok result => pure result
    | .error _ => net.postBinaryOnce i request answer >>= stateless

/-- Answer a frame at stage `i`. With chaining it goes on over the connection to the
stage behind. -/
def Network.handleForwardBinary :
    ℕ → ℕ → StageFrame D → NetworkM net (StageClientResult (StageFrame D))
  | fuel, i, frame => fun s =>
    match net.serve i frame.request s with
    | .error message s => .ok (errorResult 400 message) s
    | .ok response s =>
      let output := responseFrame frame.request response
      let nextStageUrl := (net.deployment.runtime i).shard.nextStageUrl
      if frame.request.nativeStageChainingEnabled && !response.isFinalStage &&
          !nextStageUrl.isEmpty then
        match fuel with
        | 0 => .error (ascii "request did not complete") s
        | fuel + 1 =>
          let next := net.deployment.stageAt nextStageUrl
          match net.postBinary next output.request (handleForwardBinary fuel next output) s with
          | .error message s => .ok (errorResult 400 message) s
          | .ok answer s =>
            if ¬isSuccess answer.httpStatus then
              .ok (errorResult 502 (ascii "next native stage failed with HTTP " ++
                decimalNat answer.httpStatus)) s
            else .ok answer s
      else .ok ⟨200, output, []⟩ s

/-- The client of the gateway. -/
def Network.client : StageClient (NetworkState net.deployment.hp D) (StageFrame D) :=
  fun url frame =>
    net.postBinary (net.deployment.stageAt url) frame.request
      (net.handleForwardBinary net.deployment.partitions.length (net.deployment.stageAt url) frame)

/-- The pipeline of one generation. -/
def Network.pipeline (settings : GatewaySettings D) (requestId : Bytes) :
    Pipeline (NetworkState net.deployment.hp D) (StageClientResult (StageFrame D)) where
  call c := forwardThroughPartitionGraph (net.deployment.routeConfig settings) net.client
    (gatewayFrame settings requestId c)
  nextTokenId := nextTokenIdFromTerminalResponse

/-- One generation over the network. -/
def Network.generate (settings : GatewaySettings D) (tokenizer : Tokenizer)
    (requestId prompt : Bytes) (maxNewTokens : ℤ) (start : NetworkState net.deployment.hp D) :
    LoopState (NetworkState net.deployment.hp D) :=
  runStubGeneration settings.loop tokenizer (net.pipeline settings requestId) requestId prompt
    maxNewTokens start

end Network

section Sessions

variable {d : Deployment F D} {i : ℕ} {request : RuntimeRequest D}

/-- A frame that resets its session is executed on a fresh one. -/
theorem serveSession_reset {rt : LlamaPartialRuntime F} {env : ForwardEnv}
    (hreset : resetsSession request = true) (hadmission : admission rt request = .ok ())
    (stored stored' : Option (LlamaRequestSession rt.executor.hp)) :
    serveSession rt env request stored = serveSession rt env request stored' := by
  have hopen : openSession rt.executor.hp env request stored =
      openSession rt.executor.hp env request stored' := by
    unfold openSession
    rw [if_pos hreset, if_pos hreset]
  rw [serveSession, hadmission, stateless_ok_bind, bind_apply, bind_apply, hopen]

theorem admission_of_serveSession {rt : LlamaPartialRuntime F} {env : ForwardEnv}
    {stored after : Option (LlamaRequestSession rt.executor.hp)} {response : RuntimeResponse}
    (h : serveSession rt env request stored = .ok response after) :
    admission rt request = .ok () := by
  cases hadmission : admission rt request with
  | ok u => rfl
  | error message =>
    rw [serveSession, hadmission, bind_apply, stateless_error] at h
    cases h

/-- A stage that answers a frame runs the session machine of its request. -/
theorem serve_ok_iff {states : StageStates d.hp} {response : RuntimeResponse}
    {session : Option (LlamaRequestSession d.hp)} :
    serveSession (d.runtime i) (d.env i request) request
        ((states i).lookup (sessionKey request)) = .ok response session ↔
      ∃ after, d.serve i request states = .ok response after ∧
        (after i).lookup (sessionKey request) = session := by
  have hself := forward_self (d.runtime i) (d.env i request) request (states i)
  rw [← hself, Deployment.serve, onPart_apply]
  cases forward (d.runtime i) (d.env i request) request (states i) with
  | error message sessions =>
    constructor
    · intro h
      cases h
    · rintro ⟨after, h, -⟩
      cases h
  | ok response' sessions =>
    constructor
    · intro h
      cases h
      exact ⟨_, rfl, by dsimp only; rw [Function.update_self]⟩
    · rintro ⟨after, h, hlookup⟩
      cases h
      dsimp only at hlookup
      rw [Function.update_self] at hlookup
      rw [← hlookup]
      rfl

/-- A stage changes no sessions but its own. -/
theorem serve_elsewhere (d : Deployment F D) (i : ℕ) (request : RuntimeRequest D)
    (states : StageStates d.hp) {j : ℕ} (hj : j ≠ i) :
    finalState (d.serve i request states) j = states j := by
  rw [Deployment.serve, onPart_apply, finalState_mapState, Function.update_of_ne hj]

/-- What a stage answers, and leaves to the request, depends only on the session of the
request, and for a first prefill not even on that. -/
theorem serve_same {states states' after : StageStates d.hp} {response : RuntimeResponse}
    (h : resetsSession request = true ∨
      (states i).lookup (sessionKey request) = (states' i).lookup (sessionKey request))
    (hrun : d.serve i request states = .ok response after) :
    ∃ after', d.serve i request states' = .ok response after' ∧
      (after i).lookup (sessionKey request) = (after' i).lookup (sessionKey request) := by
  have hsession := serve_ok_iff.mpr ⟨after, hrun, rfl⟩
  have hsession' : serveSession (d.runtime i) (d.env i request) request
      ((states' i).lookup (sessionKey request)) =
        .ok response ((after i).lookup (sessionKey request)) := by
    rcases h with hreset | hsame
    · rw [← hsession]
      exact serveSession_reset hreset (admission_of_serveSession hsession) _ _
    · rw [← hsame, hsession]
  obtain ⟨after', hrun', hlookup⟩ := serve_ok_iff.mp hsession'
  exact ⟨after', hrun', hlookup.symm⟩

end Sessions

section Exchanges

variable {net : Network F D} {request : RuntimeRequest D} {stages : List ℕ}

/-- The decode frames among those served, by stage and token index. -/
def decodes (served : List (ℕ × RuntimeRequest D)) : List (ℕ × ℤ) :=
  (served.filter fun entry => entry.2.generationMode = ascii "decode").map fun entry =>
    (entry.1, entry.2.tokenIndex)

/-- What one visit of each stage adds to them. -/
def visits (request : RuntimeRequest D) (stages : List ℕ) : List (ℕ × ℤ) :=
  if request.generationMode = ascii "decode" then stages.map fun j => (j, request.tokenIndex)
  else []

/-- The stages hold the same session for a request. -/
def Alike {hp : LlamaExecutorHyperparams F} (request : RuntimeRequest D) (stages : List ℕ)
    (states states' : StageStates hp) : Prop :=
  ∀ j ∈ stages, (states j).lookup (sessionKey request) = (states' j).lookup (sessionKey request)

/-- Nothing happened but that these stages served frames of this mode. -/
structure Confined {hp : LlamaExecutorHyperparams F} (request : RuntimeRequest D)
    (stages : List ℕ) (s s' : NetworkState hp D) : Prop where
  elsewhere : ∀ j ∉ stages, s'.states j = s.states j
  served : ∃ log, s'.served = s.served ++ log ∧
    ∀ entry ∈ log, entry.2.generationMode = request.generationMode

/-- After a visit of the stages on both sides. -/
structure Visited {hp : LlamaExecutorHyperparams F} (request : RuntimeRequest D)
    (stages : List ℕ) (s s' : NetworkState hp D) (t t' : StageStates hp) : Prop where
  alike : Alike request stages s'.states t'
  elsewhere : ∀ j ∉ stages, s'.states j = s.states j ∧ t' j = t j
  decoded : decodes s'.served = decodes s.served ++ visits request stages

/-- A successful answer is, up to `V`, the one that the stages give without failures. -/
structure Serves (net : Network F D) (request : RuntimeRequest D) (stages : List ℕ)
    (V : StageClientResult (StageFrame D) → RuntimeResponse → Prop)
    (answer : NetworkM net (StageClientResult (StageFrame D)))
    (serve : EStateM Bytes (StageStates net.deployment.hp) RuntimeResponse) : Prop where
  confined : ∀ s, Confined request stages s (finalState (answer s))
  follows : ∀ s t result s', resetsSession request = true ∨ Alike request stages s.states t →
    answer s = .ok result s' → isSuccess result.httpStatus →
      ∃ response t', serve t = .ok response t' ∧ V result response ∧
        Visited request stages s s' t t'

theorem Confined.refl {hp : LlamaExecutorHyperparams F} (s : NetworkState hp D) :
    Confined request stages s s :=
  ⟨fun _ _ => rfl, [], (List.append_nil _).symm, fun _ h => absurd h List.not_mem_nil⟩

theorem Confined.trans {hp : LlamaExecutorHyperparams F} {s s' s'' : NetworkState hp D}
    (h : Confined request stages s s') (h' : Confined request stages s' s'') :
    Confined request stages s s'' := by
  obtain ⟨log, hlog, hmodes⟩ := h.served
  obtain ⟨log', hlog', hmodes'⟩ := h'.served
  refine ⟨fun j hj => (h'.elsewhere j hj).trans (h.elsewhere j hj), log ++ log', ?_, ?_⟩
  · rw [hlog', hlog, List.append_assoc]
  · intro entry hentry
    rcases List.mem_append.mp hentry with hentry | hentry
    · exact hmodes entry hentry
    · exact hmodes' entry hentry

theorem Confined.weaken {hp : LlamaExecutorHyperparams F} {s s' : NetworkState hp D}
    {stages' : List ℕ} (h : Confined request stages s s') (hsubset : stages ⊆ stages') :
    Confined request stages' s s' :=
  ⟨fun j hj => h.elsewhere j fun hmem => hj (hsubset hmem), h.served⟩

/-- Sequencing keeps what both parts are confined to. -/
theorem confined_bind {α β : Type} {x : NetworkM net α} {f : α → NetworkM net β}
    (hx : ∀ s, Confined request stages s (finalState (x s)))
    (hf : ∀ a s, Confined request stages s (finalState (f a s))) (s) :
    Confined request stages s (finalState ((x >>= f) s)) := by
  have h := hx s
  rw [bind_apply]
  cases hrun : x s with
  | error message s' =>
    rw [hrun] at h
    exact h
  | ok a s' =>
    rw [hrun] at h
    exact h.trans (hf a s')

theorem confined_pure {α : Type} (a : α) (s : NetworkState net.deployment.hp D) :
    Confined request stages s (finalState ((pure a : NetworkM net α) s)) := .refl s

theorem confined_stateless {α : Type} (r : Except Bytes α)
    (s : NetworkState net.deployment.hp D) :
    Confined request stages s (finalState ((stateless r : NetworkM net α) s)) := by
  cases r <;> exact .refl s

/-- Frames of another mode do not count as decode frames. -/
theorem Confined.decodes_of_reset {hp : LlamaExecutorHyperparams F} {s s' : NetworkState hp D}
    (h : Confined request stages s s') (hreset : resetsSession request = true) :
    decodes s'.served = decodes s.served := by
  obtain ⟨log, hlog, hmodes⟩ := h.served
  have hprefill : request.generationMode = ascii "prefill" := by
    unfold resetsSession at hreset
    rw [Bool.and_eq_true, decide_eq_true_eq] at hreset
    exact hreset.1
  have hnone : log.filter (fun entry => entry.2.generationMode = ascii "decode") = [] := by
    rw [List.filter_eq_nil_iff]
    intro entry hentry
    rw [hmodes entry hentry, hprefill]
    decide
  rw [hlog, decodes, List.filter_append, hnone, List.append_nil, decodes]

end Exchanges

section Posting

variable {net : Network F D} {request : RuntimeRequest D} {stages : List ℕ}
  {V : StageClientResult (StageFrame D) → RuntimeResponse → Prop}
  {answer : NetworkM net (StageClientResult (StageFrame D))}
  {serve : EStateM Bytes (StageStates net.deployment.hp) RuntimeResponse}

/-- An answer to a decode frame is never lost behind its stage. -/
def KeepsDecodes (net : Network F D) : Prop :=
  ∀ n i request message, net.fate n i request = .lost message → resetsSession request = true

theorem confined_postBinaryOnce (h : Serves net request stages V answer serve) (i : ℕ)
    (s : NetworkState net.deployment.hp D) :
    Confined request stages s (finalState (net.postBinaryOnce i request answer s)) := by
  have htried : Confined request stages s { s with attempts := s.attempts + 1 } :=
    ⟨fun _ _ => rfl, [], (List.append_nil _).symm, fun _ h => absurd h List.not_mem_nil⟩
  unfold Network.postBinaryOnce
  dsimp only
  cases net.fate s.attempts i request with
  | undelivered message => exact htried
  | answered => exact htried.trans (confined_bind h.confined (fun a => confined_pure _) _)
  | lost message => exact htried.trans (confined_bind h.confined (fun a => confined_pure _) _)
  | cut text =>
    refine htried.trans (confined_bind h.confined (fun a => ?_) _)
    exact confined_bind (confined_stateless _) fun b => confined_pure _

theorem confined_postBinary (h : Serves net request stages V answer serve) (i : ℕ)
    (s : NetworkState net.deployment.hp D) :
    Confined request stages s (finalState (net.postBinary i request answer s)) := by
  refine confined_bind (confined_postBinaryOnce h i) (fun first => ?_) s
  cases first with
  | ok result => exact confined_pure result
  | error message =>
    exact confined_bind (confined_postBinaryOnce h i) fun second => confined_stateless second

/-- A first attempt that throws leaves the stages as they were, or the frame may be
served again. -/
theorem postBinaryOnce_thrown (hkeeps : KeepsDecodes net) {i : ℕ}
    {s s' : NetworkState net.deployment.hp D} {message : Bytes} (hrun : net.postBinaryOnce i request answer s = .ok (.error message) s') :
    s'.states = s.states ∧ s'.served = s.served ∨ resetsSession request = true := by
  unfold Network.postBinaryOnce at hrun
  dsimp only at hrun
  cases hfate : net.fate s.attempts i request with
  | undelivered message' =>
    rw [hfate] at hrun
    cases hrun
    exact .inl ⟨rfl, rfl⟩
  | lost message' => exact .inr (hkeeps _ _ _ _ hfate)
  | answered =>
    rw [hfate] at hrun
    dsimp only at hrun
    rw [bind_apply] at hrun
    cases hanswer : answer { s with attempts := s.attempts + 1 } with
    | error message' s₁ =>
      rw [hanswer] at hrun
      cases hrun
    | ok result s₁ =>
      rw [hanswer] at hrun
      cases hrun
  | cut text =>
    rw [hfate] at hrun
    dsimp only at hrun
    rw [bind_apply] at hrun
    cases hanswer : answer { s with attempts := s.attempts + 1 } with
    | error message' s₁ =>
      rw [hanswer] at hrun
      cases hrun
    | ok result s₁ =>
      rw [hanswer] at hrun
      dsimp only at hrun
      rw [bind_apply] at hrun
      cases hcut : cutAnswer text result with
      | error message' =>
        rw [hcut] at hrun
        cases hrun
      | ok rest =>
        rw [hcut] at hrun
        cases hrun

theorem Serves.weaken {V' : StageClientResult (StageFrame D) → RuntimeResponse → Prop}
    (h : Serves net request stages V answer serve)
    (hV : ∀ result response, V result response → V' result response) :
    Serves net request stages V' answer serve := by
  refine ⟨h.confined, fun s t result s' halike hrun hsuccess => ?_⟩
  obtain ⟨response, t', hserve, hanswered, hvisited⟩ := h.follows s t result s' halike hrun hsuccess
  exact ⟨response, t', hserve, hV result response hanswered, hvisited⟩

/-- A successful answer to one attempt is an answer of the stage. -/
theorem postBinaryOnce_follows (h : Serves net request stages V answer serve) {i : ℕ}
    {s s' : NetworkState net.deployment.hp D} {t : StageStates net.deployment.hp}
    {result : StageClientResult (StageFrame D)}
    (halike : resetsSession request = true ∨ Alike request stages s.states t)
    (hrun : net.postBinaryOnce i request answer s = .ok (.ok result) s')
    (hsuccess : isSuccess result.httpStatus) :
    ∃ response t', serve t = .ok response t' ∧ V result response ∧
      Visited request stages s s' t t' := by
  unfold Network.postBinaryOnce at hrun
  dsimp only at hrun
  cases hfate : net.fate s.attempts i request with
  | undelivered message =>
    rw [hfate] at hrun
    cases hrun
  | lost message =>
    rw [hfate] at hrun
    dsimp only at hrun
    rw [bind_apply] at hrun
    cases hanswer : answer { s with attempts := s.attempts + 1 } with
    | error message' s₁ =>
      rw [hanswer] at hrun
      cases hrun
    | ok result' s₁ =>
      rw [hanswer] at hrun
      cases hrun
  | answered =>
    rw [hfate] at hrun
    dsimp only at hrun
    rw [bind_apply] at hrun
    cases hanswer : answer { s with attempts := s.attempts + 1 } with
    | error message' s₁ =>
      rw [hanswer] at hrun
      cases hrun
    | ok result' s₁ =>
      rw [hanswer] at hrun
      cases hrun
      obtain ⟨response, t', hserve, hanswered, hvisited⟩ :=
        h.follows { s with attempts := s.attempts + 1 } t _ _ halike hanswer hsuccess
      exact ⟨response, t', hserve, hanswered, hvisited.alike, hvisited.elsewhere, hvisited.decoded⟩
  | cut text =>
    rw [hfate] at hrun
    dsimp only at hrun
    rw [bind_apply] at hrun
    cases hanswer : answer { s with attempts := s.attempts + 1 } with
    | error message' s₁ =>
      rw [hanswer] at hrun
      cases hrun
    | ok result' s₁ =>
      rw [hanswer] at hrun
      dsimp only at hrun
      rw [bind_apply] at hrun
      unfold cutAnswer at hrun
      by_cases hstatus : isSuccess result'.httpStatus
      · rw [if_pos hstatus] at hrun
        cases hrun
      · rw [if_neg hstatus] at hrun
        cases hrun
        exact absurd hsuccess hstatus

/-- Posting a frame, at most twice, gives what the stage answers without failures. -/
theorem Serves.post (h : Serves net request stages V answer serve) (hkeeps : KeepsDecodes net)
    (i : ℕ) : Serves net request stages V (net.postBinary i request answer) serve := by
  refine ⟨confined_postBinary h i, fun s t result s' halike hrun hsuccess => ?_⟩
  unfold Network.postBinary at hrun
  rw [bind_apply] at hrun
  have hconfined := confined_postBinaryOnce h i s
  cases hfirst : net.postBinaryOnce i request answer s with
  | error message s₁ =>
    rw [hfirst] at hrun
    cases hrun
  | ok first s₁ =>
    rw [hfirst] at hrun hconfined
    cases first with
    | ok result' =>
      cases hrun
      exact postBinaryOnce_follows h halike hfirst hsuccess
    | error message =>
      dsimp only at hrun
      rw [bind_apply] at hrun
      cases hsecond : net.postBinaryOnce i request answer s₁ with
      | error message' s₂ =>
        rw [hsecond] at hrun
        cases hrun
      | ok second s₂ =>
        rw [hsecond] at hrun
        cases second with
        | error message' => cases hrun
        | ok result' =>
          cases hrun
          rcases postBinaryOnce_thrown hkeeps hfirst with ⟨hstates, hserved⟩ | hreset
          · rw [← hstates] at halike
            obtain ⟨response, t', hserve, hanswered, hvisited⟩ :=
              postBinaryOnce_follows h halike hsecond hsuccess
            refine ⟨response, t', hserve, hanswered, hvisited.alike, fun j hj => ?_, ?_⟩
            · rw [← hstates]
              exact hvisited.elsewhere j hj
            · rw [← hserved]
              exact hvisited.decoded
          · obtain ⟨response, t', hserve, hanswered, hvisited⟩ :=
              postBinaryOnce_follows h (.inl hreset) hsecond hsuccess
            refine ⟨response, t', hserve, hanswered, hvisited.alike, fun j hj => ?_, ?_⟩
            · rw [← hconfined.elsewhere j hj]
              exact hvisited.elsewhere j hj
            · rw [← hconfined.decodes_of_reset hreset]
              exact hvisited.decoded

end Posting

section Handlers

variable {net : Network F D} {settings : GatewaySettings D}

/-- Serving a frame at its stage. -/
theorem confined_serve (i : ℕ) (request : RuntimeRequest D)
    (s : NetworkState net.deployment.hp D) :
    Confined request [i] s (finalState (net.serve i request s)) := by
  unfold Network.serve
  rw [finalState_mapState]
  refine ⟨fun j hj => serve_elsewhere _ _ _ _ (List.ne_of_not_mem_cons hj), [(i, request)], rfl, ?_⟩
  intro entry hentry
  rw [List.mem_singleton.mp hentry]

/-- What a stage answers over the network it answers without failures. -/
theorem serve_visited {i : ℕ} {request : RuntimeRequest D} {s s' : NetworkState net.deployment.hp D}
    {t : StageStates net.deployment.hp} {response : RuntimeResponse}
    (halike : resetsSession request = true ∨ Alike request [i] s.states t)
    (hrun : net.serve i request s = .ok response s') :
    ∃ t', net.deployment.serve i request t = .ok response t' ∧ Visited request [i] s s' t t' := by
  unfold Network.serve at hrun
  cases hserve : net.deployment.serve i request s.states with
  | error message states =>
    rw [hserve] at hrun
    cases hrun
  | ok response' states =>
    rw [hserve] at hrun
    cases hrun
    obtain ⟨t', hserve', hlookup⟩ :=
      serve_same (halike.imp_right fun h => h i List.mem_cons_self) hserve
    refine ⟨t', hserve', fun j hj => ?_, fun j hj => ?_, ?_⟩
    · rw [List.mem_singleton.mp hj]
      exact hlookup
    · have hne : j ≠ i := List.ne_of_not_mem_cons hj
      have hstates := serve_elsewhere net.deployment i request s.states hne
      have hstates' := serve_elsewhere net.deployment i request t hne
      rw [hserve] at hstates
      rw [hserve'] at hstates'
      exact ⟨hstates, hstates'⟩
    · unfold decodes visits
      rw [List.filter_append, List.map_append]
      by_cases hmode : request.generationMode = ascii "decode"
      · rw [if_pos hmode, List.filter_cons_of_pos (by simpa using hmode)]
        rfl
      · rw [if_neg hmode, List.filter_cons_of_neg (by simpa using hmode)]
        rfl

/-- A visit of one stage, then of others. -/
theorem Visited.append {hp : LlamaExecutorHyperparams F} {request : RuntimeRequest D} {i : ℕ}
    {stages : List ℕ} {s s' s'' : NetworkState hp D} {t t' t'' : StageStates hp}
    (h : Visited request [i] s s' t t') (h' : Visited request stages s' s'' t' t'')
    (hfresh : i ∉ stages) : Visited request (i :: stages) s s'' t t'' := by
  refine ⟨fun j hj => ?_, fun j hj => ?_, ?_⟩
  · rcases List.mem_cons.mp hj with rfl | hj
    · obtain ⟨hstates, hstates'⟩ := h'.elsewhere j hfresh
      rw [hstates, hstates']
      exact h.alike j List.mem_cons_self
    · exact h'.alike j hj
  · have hhead : j ∉ [i] := fun hmem => hj (List.mem_singleton.mp hmem ▸ List.mem_cons_self)
    have htail : j ∉ stages := fun hmem => hj (List.mem_cons_of_mem i hmem)
    obtain ⟨hstates, hstates'⟩ := h.elsewhere j hhead
    obtain ⟨hstates₁, hstates₁'⟩ := h'.elsewhere j htail
    exact ⟨hstates₁.trans hstates, hstates₁'.trans hstates'⟩
  · rw [h'.decoded, h.decoded, List.append_assoc]
    congr 1
    unfold visits
    split <;> rfl

/-- What the next stage starts from. -/
theorem Visited.ahead {hp : LlamaExecutorHyperparams F} {request : RuntimeRequest D} {i : ℕ}
    {stages : List ℕ} {s s' : NetworkState hp D} {t t' : StageStates hp}
    (h : Visited request [i] s s' t t') (hfresh : i ∉ stages)
    (halike : resetsSession request = true ∨ Alike request (i :: stages) s.states t) :
    resetsSession request = true ∨ Alike request stages s'.states t' := by
  refine halike.imp_right fun halike j hj => ?_
  have hne : j ∉ [i] := fun hmem => hfresh (List.mem_singleton.mp hmem ▸ hj)
  obtain ⟨hstates, hstates'⟩ := h.elsewhere j hne
  rw [hstates, hstates']
  exact halike j (List.mem_cons_of_mem i hj)

theorem not_mem_behind (i k : ℕ) : i ∉ List.range' (i + 1) k := by
  rw [List.mem_range'_1]
  omega

/-- The role decides whether an answer is the last of its route. -/
theorem network_serve_final {i : ℕ} {request : RuntimeRequest D}
    {s s' : NetworkState net.deployment.hp D} {response : RuntimeResponse}
    (h : net.serve i request s = .ok response s') :
    response.isFinalStage = endsRoute (net.deployment.runtime i).shard := by
  unfold Network.serve at h
  cases hserve : net.deployment.serve i request s.states with
  | error message states =>
    rw [hserve] at h
    cases h
  | ok response' states =>
    rw [hserve] at h
    cases h
    exact serve_final hserve

/-- A stage that refuses a frame. -/
theorem handle_refused {fuel i : ℕ} {frame : StageFrame D}
    {s s' : NetworkState net.deployment.hp D} {message : Bytes}
    (h : net.serve i frame.request s = .error message s') :
    net.handleForwardBinary fuel i frame s = .ok (errorResult 400 message) s' := by
  unfold Network.handleForwardBinary
  rw [h]

/-- A stage that keeps its answer. -/
theorem handle_kept {fuel i : ℕ} {frame : StageFrame D} {s s' : NetworkState net.deployment.hp D}
    {response : RuntimeResponse} (h : net.serve i frame.request s = .ok response s')
    (hstop : (frame.request.nativeStageChainingEnabled && !response.isFinalStage &&
      !(net.deployment.runtime i).shard.nextStageUrl.isEmpty) = false) :
    net.handleForwardBinary fuel i frame s =
      .ok ⟨200, responseFrame frame.request response, []⟩ s' := by
  unfold Network.handleForwardBinary
  simp only [h, hstop, Bool.false_eq_true, if_false]

/-- A stage that posts its answer to the stage behind. -/
theorem handle_chained {fuel i : ℕ} {frame : StageFrame D}
    {s s' : NetworkState net.deployment.hp D} {response : RuntimeResponse}
    (h : net.serve i frame.request s = .ok response s')
    (hchain : (frame.request.nativeStageChainingEnabled && !response.isFinalStage &&
      !(net.deployment.runtime i).shard.nextStageUrl.isEmpty) = true) {next : ℕ}
    (hnext : net.deployment.stageAt (net.deployment.runtime i).shard.nextStageUrl = next) :
    net.handleForwardBinary (fuel + 1) i frame s =
      match net.postBinary next (responseFrame frame.request response).request
        (net.handleForwardBinary fuel next (responseFrame frame.request response)) s' with
      | .error message s => .ok (errorResult 400 message) s
      | .ok answer s =>
        if ¬isSuccess answer.httpStatus then
          .ok (errorResult 502 (ascii "next native stage failed with HTTP " ++
            decimalNat answer.httpStatus)) s
        else .ok answer s := by
  subst hnext
  rw [Network.handleForwardBinary]
  simp only [h, hchain, if_true]

/-- A stage that keeps all its answers. -/
theorem serves_kept (net : Network F D) (fuel i : ℕ) (frame : StageFrame D)
    (hstop : ∀ s response s', net.serve i frame.request s = .ok response s' →
      (frame.request.nativeStageChainingEnabled && !response.isFinalStage &&
        !(net.deployment.runtime i).shard.nextStageUrl.isEmpty) = false) :
    Serves net frame.request [i]
      (fun result response => result = ⟨200, responseFrame frame.request response, []⟩)
      (net.handleForwardBinary fuel i frame) (net.deployment.serve i frame.request) := by
  constructor
  · intro s
    have hconfined := confined_serve i frame.request s
    cases hserve : net.serve i frame.request s with
    | ok response s' =>
      rw [handle_kept hserve (hstop s response s' hserve)]
      rw [hserve] at hconfined
      exact hconfined
    | error message s' =>
      rw [handle_refused hserve]
      rw [hserve] at hconfined
      exact hconfined
  · intro s t result s' halike hrun hsuccess
    cases hserve : net.serve i frame.request s with
    | error message s₁ =>
      rw [handle_refused hserve] at hrun
      cases hrun
      exact absurd hsuccess not_isSuccess_refused
    | ok response s₁ =>
      rw [handle_kept hserve (hstop s response s₁ hserve)] at hrun
      cases hrun
      obtain ⟨t', hserve', hvisited⟩ := serve_visited halike hserve
      exact ⟨response, t', hserve', rfl, hvisited⟩

/-- The frame of an answer belongs to the same request. -/
theorem Serves.behind {request : RuntimeRequest D} {response : RuntimeResponse} {stages : List ℕ}
    {V : StageClientResult (StageFrame D) → RuntimeResponse → Prop}
    {answer : NetworkM net (StageClientResult (StageFrame D))}
    {serve : EStateM Bytes (StageStates net.deployment.hp) RuntimeResponse}
    (h : Serves net (responseFrame request response).request stages V answer serve) :
    Serves net request stages V answer serve := by
  constructor
  · exact fun s => ⟨(h.confined s).elsewhere, (h.confined s).served⟩
  · intro s t result s' halike hrun hsuccess
    obtain ⟨last, t', hserve, hanswered, hvisited⟩ := h.follows s t result s' halike hrun hsuccess
    exact ⟨last, t', hserve, hanswered, hvisited.alike, hvisited.elsewhere, hvisited.decoded⟩

/-- Stages that chain. -/
theorem serves_chained (horder : InPipelineOrder net.deployment settings)
    (hkeeps : KeepsDecodes net) (k : ℕ) {i : ℕ} (hi : i + k + 1 = net.deployment.partitions.length)
    {fuel : ℕ} (hfuel : k ≤ fuel) {frame : StageFrame D}
    (hchaining : frame.request.nativeStageChainingEnabled = true) :
    Serves net frame.request (List.range' i (k + 1)) Answered (net.handleForwardBinary fuel i frame)
      (serveSequence net.deployment k i frame.request) := by
  induction k generalizing i fuel frame with
  | zero =>
    have hserves := serves_kept net fuel i frame fun s response s' hserve => by
      rw [network_serve_final hserve, horder.endsRoute_last (by omega), Bool.not_true,
        Bool.and_false, Bool.false_and]
    exact hserves.weaken fun result response h => ⟨frame.request, h⟩
  | succ k ih =>
    obtain ⟨fuel, rfl⟩ : ∃ n, fuel = n + 1 := ⟨fuel - 1, by omega⟩
    have hlt : i + 1 < net.deployment.partitions.length := by omega
    have hget := getElem?_eq_getD (show i < net.deployment.partitions.length by omega)
    have hurl := (horder.inner i _ hget hlt).1
    have hnext : net.deployment.stageAt (net.deployment.runtime i).shard.nextStageUrl = i + 1 :=
      horder.addresses.next i _ hget hlt hurl
    have hchain : ∀ {s response s'}, net.serve i frame.request s = .ok response s' →
        (frame.request.nativeStageChainingEnabled && !response.isFinalStage &&
          !(net.deployment.runtime i).shard.nextStageUrl.isEmpty) = true := by
      intro s response s' hserve
      rw [network_serve_final hserve, horder.endsRoute_inner hlt, hchaining,
        List.isEmpty_eq_false_iff.mpr hurl]
      rfl
    have hbehind : ∀ response, Serves net frame.request (List.range' (i + 1) (k + 1)) Answered
        (net.postBinary (i + 1) (responseFrame frame.request response).request
          (net.handleForwardBinary fuel (i + 1) (responseFrame frame.request response)))
        (serveSequence net.deployment k (i + 1)
          (responseFrame frame.request response).request) := by
      intro response
      have hflag : (responseFrame frame.request response).request.nativeStageChainingEnabled =
          true := hchaining
      have hserves := ih (show i + 1 + k + 1 = _ by omega) (show k ≤ fuel by omega) hflag
      exact (hserves.post hkeeps (i + 1)).behind
    have hfresh := not_mem_behind i (k + 1)
    rw [List.range'_succ]
    constructor
    · intro s
      have hsubset : [i] ⊆ i :: List.range' (i + 1) (k + 1) :=
        fun j hj => List.mem_singleton.mp hj ▸ List.mem_cons_self
      have hconfined := (confined_serve i frame.request s).weaken hsubset
      cases hserve : net.serve i frame.request s with
      | error message s' =>
        rw [handle_refused hserve]
        rw [hserve] at hconfined
        exact hconfined
      | ok response s' =>
        rw [hserve] at hconfined
        have hrest := ((hbehind response).confined s').weaken
          (List.subset_cons_self i (List.range' (i + 1) (k + 1)))
        rw [handle_chained hserve (hchain hserve) hnext]
        cases hpost : net.postBinary (i + 1) (responseFrame frame.request response).request
            (net.handleForwardBinary fuel (i + 1) (responseFrame frame.request response)) s' with
        | error message s'' =>
          rw [hpost] at hrest
          exact hconfined.trans hrest
        | ok answer s'' =>
          rw [hpost] at hrest
          dsimp only
          split
          · exact hconfined.trans hrest
          · exact hconfined.trans hrest
    · intro s t result s' halike hrun hsuccess
      cases hserve : net.serve i frame.request s with
      | error message s₁ =>
        rw [handle_refused hserve] at hrun
        cases hrun
        exact absurd hsuccess not_isSuccess_refused
      | ok response s₁ =>
        rw [handle_chained hserve (hchain hserve) hnext] at hrun
        have hhere : resetsSession frame.request = true ∨ Alike frame.request [i] s.states t :=
          halike.imp_right fun h j hj => h j (List.mem_singleton.mp hj ▸ List.mem_cons_self)
        obtain ⟨t₁, hserve', hvisited⟩ := serve_visited hhere hserve
        have hahead := hvisited.ahead hfresh halike
        cases hpost : net.postBinary (i + 1) (responseFrame frame.request response).request
            (net.handleForwardBinary fuel (i + 1) (responseFrame frame.request response)) s₁ with
        | error message s₂ =>
          rw [hpost] at hrun
          cases hrun
          exact absurd hsuccess not_isSuccess_refused
        | ok answer s₂ =>
          rw [hpost] at hrun
          dsimp only at hrun
          by_cases hanswer : isSuccess answer.httpStatus
          · rw [if_neg (not_not.mpr hanswer)] at hrun
            cases hrun
            obtain ⟨last, t', hsequence, hanswered, hrest⟩ :=
              (hbehind response).follows s₁ t₁ _ _ hahead hpost hsuccess
            refine ⟨last, t', ?_, hanswered, hvisited.append hrest hfresh⟩
            rw [serveSequence, bind_apply, hserve']
            exact hsequence
          · rw [if_pos hanswer] at hrun
            cases hrun
            exact absurd hsuccess not_isSuccess_downstream

end Handlers

end LayerInference.UnreliableStages
