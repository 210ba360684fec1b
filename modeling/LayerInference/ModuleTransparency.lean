import LayerInference.PartitionServing

/-!
# The modules of the Python gateway change no token

A generation can be read without any distribution: the whole model is applied to
all ids so far, and its head selects the next id from the last row. The gateway
over its stages comes to the same tokens, the same reason and the same text, or
fails as well, for every choice of its modules: with the key-value cache or
without, with duplicates recognised or not, along whatever route was chosen
among replicas, and over stages that hold other requests' caches.
-/

namespace LayerInference.ModuleTransparency

open ByteStrings CausalMaps FallibleRuns LayerRanges OrderedDicts PartitionServing PythonPipeline
  PythonStage TopologyRouting

variable {ρ ν χ ℓ : Type}

section WholeModel

/-- The end of the model: logits for a row, and the selection among them. -/
structure TokenHead (ρ ℓ : Type) where
  finalize : ρ → Except Bytes ℓ
  select : ℤ → ℓ → Sampling → List ℤ → Except Bytes ℤ

def TokenHead.token (head : TokenHead ρ ℓ) (tokenIndex : ℤ) (metadata : RequestMetadata)
    (row : ρ) : Option ℤ :=
  match head.finalize row with
  | .error _ => none
  | .ok logits =>
    (head.select tokenIndex logits metadata.sampling
      (forbiddenTokenIds metadata tokenIndex)).toOption

/-- The partitions one after the other, with the wire between them. -/
def composed : List (StageModel ρ χ) → List ρ → List ρ
  | [], rows => rows
  | model :: rest, rows => composed rest (model.compute (rows.map model.carry))

variable (gateway : Gateway) (whole : List ρ → List ρ) (head : TokenHead ρ ℓ) (word : ℤ → ρ)
  (request : GenerateRequest)

end WholeModel

section Deployments

/-- A final process ends like the model. -/
structure Finalizes (process : StageProcess χ ℓ) (profile : RebalanceProfile)
    (outFormat : List ρ → Tensor) (head : TokenHead ρ ℓ) : Prop where
  final : process.nextStageUrl = none ∨ process.nextStageUrl = some []
  finalize : ∀ rows row, rows.getLast? = some row →
    process.finalizeLogits profile (outFormat rows) = head.finalize row
  select : process.selectNextToken profile = head.select

/-- An address that a stage may go on to: its default, or a candidate under its
own id. -/
def NextAddress (unicode : UnicodeTables) (candidates : OrderedDict Text (List Text))
    (stageId : ℕ) (default url : Text) : Prop :=
  url = default ∨ ∃ key listed raw,
    (key = stageKey stageId ∨ key = "stage_".toList ++ stageKey stageId) ∧
      candidates.get? key = some listed ∧ raw ∈ listed ∧ strip unicode raw ≠ [] ∧
      url = strip unicode raw

variable (net : Network ν χ ℓ) (profile : RebalanceProfile) (flags : ModuleFlags)

/-- The wire between two partitions acts on every row by itself. -/
def Wired (outFormat : List ρ → Tensor) (next : StageModel ρ χ) : Prop :=
  ∀ rows, net.carried flags (outFormat rows) = next.inFormat (rows.map next.carry)

/-- From a process on, every address that a stage may go on to leads to a process
with the next partition and a larger stage id. -/
def Deployed (candidates : OrderedDict Text (List Text)) (head : TokenHead ρ ℓ) :
    ν → List (StageModel ρ χ) → Prop
  | _, [] => False
  | server, [model] =>
    Implements ((net.process server).setup.executor profile) model ∧
      Finalizes (net.process server) profile model.outFormat head
  | server, model :: next :: rest =>
    Implements ((net.process server).setup.executor profile) model ∧
      Wired net flags model.outFormat next ∧
      ∃ default, (net.process server).nextStageUrl = some default ∧ default ≠ [] ∧
        ∀ url, NextAddress net.unicode candidates (net.process server).stageId default url →
          ∃ replica, net.serverAt url = some replica ∧
            (net.process server).stageId < (net.process replica).stageId ∧
            Deployed candidates head replica (next :: rest)

/-- The network serves a model for the flags of a request. -/
structure Serves (gateway : Gateway) (request : GenerateRequest) (word : ℤ → ρ)
    (models : List (StageModel ρ χ)) (head : TokenHead ρ ℓ) : Prop where
  first : ∃ server, net.serverAt gateway.firstStageUrl = some server ∧
    Deployed net request.featureFlags.rebalanceProfile request.moduleFlags
      gateway.topologyRouteCandidates head server models
  entry : ∀ model, models.head? = some model → ∀ ids,
    net.carried request.moduleFlags (idsTensor ids) =
      model.inFormat ((ids.map word).map model.carry)
  hops : models.length ≤ net.maxHops + 1

end Deployments

section Routes

/-- The processes that the frames of a generation visit, once the overrides are
fixed. -/
inductive Route (net : Network ν χ ℓ) (profile : RebalanceProfile) (flags : ModuleFlags)
    (overrides : Overrides) (head : TokenHead ρ ℓ) : List (ν × StageModel ρ χ) → Prop where
  | last {server : ν} {model : StageModel ρ χ} :
      Implements ((net.process server).setup.executor profile) model →
      Finalizes (net.process server) profile model.outFormat head →
      Route net profile flags overrides head [(server, model)]
  | hop {server next : ν} {model nextModel : StageModel ρ χ} {rest : List (ν × StageModel ρ χ)}
      {default url : Text} :
      Implements ((net.process server).setup.executor profile) model →
      (net.process server).nextStageUrl = some default → default ≠ [] →
      resolveNextStageUrl net.unicode (net.process server).stageId (some default)
        flags.topologyAwareRouting overrides = some url → url ≠ [] →
      net.serverAt url = some next → Wired net flags model.outFormat nextModel →
      Route net profile flags overrides head ((next, nextModel) :: rest) →
      Route net profile flags overrides head ((server, model) :: (next, nextModel) :: rest)

variable {net : Network ν χ ℓ} {profile : RebalanceProfile} {flags : ModuleFlags}
  {head : TokenHead ρ ℓ}

/-- The processes of a route, by growing stage ids. -/
def Ascending (net : Network ν χ ℓ) (route : List (ν × StageModel ρ χ)) : Prop :=
  (route.map fun stage => (net.process stage.1).stageId).Pairwise (· < ·)

theorem Ascending.nodup {route : List (ν × StageModel ρ χ)} (h : Ascending net route) :
    (route.map Prod.fst).Nodup := by
  rw [Ascending, List.pairwise_map] at h
  rw [List.Nodup, List.pairwise_map]
  refine h.imp fun hlt heq => ?_
  rw [heq] at hlt
  exact lt_irrefl _ hlt

theorem Route.causal {overrides : Overrides} {route : List (ν × StageModel ρ χ)}
    (h : Route net profile flags overrides head route) :
    Causal (composed (route.map Prod.snd)) := by
  induction h with
  | last himplements _ => exact causal_id.comp (himplements.causal.comp (causal_map _))
  | hop himplements _ _ _ _ _ _ _ ih => exact ih.comp (himplements.causal.comp (causal_map _))

end Routes

section Chain

variable [DecidableEq ν] {net : Network ν χ ℓ} {profile : RebalanceProfile} {flags : ModuleFlags}
  {overrides : Overrides} {head : TokenHead ρ ℓ}

/-- The processes of a route before a token: nothing is stored for it, and with
a cache every process holds the rows of the past. -/
def Prepared (requestId : Bytes) (tokenIndex : ℤ) (cached : Bool) (caches : NetworkCaches ν χ) :
    List (ν × StageModel ρ χ) → List ρ → Prop
  | [], _ => True
  | (server, model) :: rest, past =>
    Fresh (caches server) requestId tokenIndex ∧
      (cached = true →
        HoldsCache (caches server) requestId (model.cacheOf (past.map model.carry))) ∧
      Prepared requestId tokenIndex cached caches rest (model.compute (past.map model.carry))

variable {requestId : Bytes} {tokenIndex : ℤ} {cached : Bool} {caches caches' : NetworkCaches ν χ}
  {route : List (ν × StageModel ρ χ)} {past : List ρ}

omit [DecidableEq ν] in
/-- Only the processes of the route matter. -/
theorem Prepared.congr (h : Prepared requestId tokenIndex cached caches route past)
    (hsame : ∀ server ∈ route.map Prod.fst, caches' server = caches server) :
    Prepared requestId tokenIndex cached caches' route past := by
  induction route generalizing past with
  | nil => trivial
  | cons stage rest ih =>
    obtain ⟨hfresh, hholds, hrest⟩ := h
    have hstage : caches' stage.1 = caches stage.1 := hsame stage.1 List.mem_cons_self
    refine ⟨hstage ▸ hfresh, fun hcached => hstage ▸ hholds hcached, ?_⟩
    refine ih hrest fun server hserver => ?_
    exact hsame server (List.mem_cons_of_mem _ hserver)

/-- A call answers with a token in a state satisfying `after`, or it fails and
there is no token. -/
def Yields (result : EStateM.Result HTTPException (NetworkCaches ν χ) StageForwardResponse)
    (token : Option ℤ) (after : NetworkCaches ν χ → Prop) : Prop :=
  match result with
  | .ok response caches =>
    ∃ nextTokenId, token = some nextTokenId ∧ response.nextTokenId = some nextTokenId ∧
      after caches
  | .error _ _ => token = none

omit [DecidableEq ν] in
theorem Yields.mono {result : EStateM.Result HTTPException (NetworkCaches ν χ) StageForwardResponse}
    {token : Option ℤ} {after after' : NetworkCaches ν χ → Prop} (h : Yields result token after)
    (hafter : ∀ caches, after caches → after' caches) : Yields result token after' := by
  cases result with
  | ok response caches =>
    obtain ⟨nextTokenId, htoken, hresponse, hcaches⟩ := h
    exact ⟨nextTokenId, htoken, hresponse, hafter caches hcaches⟩
  | error exception caches => exact h

/-- A frame of a generation at a process of its route. -/
structure Arriving (profile : RebalanceProfile) (flags : ModuleFlags) (overrides : Overrides)
    (cached : Bool) (model : StageModel ρ χ) (request : ForwardRequest) (past new : List ρ) :
    Prop where
  nonempty : new ≠ []
  profile : request.base.featureFlags.rebalanceProfile = profile
  flags : request.moduleFlags = flags
  overrides : request.metadata.topologyRouteOverrides = overrides
  frame : Frame request.base past.length new.length
  cached : request.base.generationMode = .decode → request.base.useTransformerKvCache = true →
    cached = true
  input : request.base.inputTensor = model.inFormat (new.map model.carry)

omit [DecidableEq ν] in
/-- The answer of one process arrives at the next one as a frame of the same kind. -/
theorem Arriving.next {model nextModel : StageModel ρ χ} {request : ForwardRequest}
    {past new : List ρ} {executor : StageExecutor χ}
    (h : Arriving profile flags overrides cached model request past new)
    (himplements : Implements executor model) (hwired : Wired net flags model.outFormat nextModel) :
    Arriving profile flags overrides cached nextModel
      (nextRequest net request
        (model.outFormat (answer model.compute (past.map model.carry) (new.map model.carry))))
      (model.compute (past.map model.carry))
      (answer model.compute (past.map model.carry) (new.map model.carry)) where
  nonempty := himplements.causal.answer_ne_nil (List.map_eq_nil_iff.not.mpr h.nonempty)
  profile := h.profile
  flags := h.flags
  overrides := h.overrides
  frame := by
    rw [himplements.causal.length, himplements.causal.length_answer, List.length_map,
      List.length_map]
    exact h.frame.withTensor _
  cached := h.cached
  input := by
    rw [nextRequest, h.flags]
    exact hwired _

end Chain

section Generation

variable [DecidableEq ν] {net : Network ν χ ℓ} {profile : RebalanceProfile} {flags : ModuleFlags}
  {overrides : Overrides} {head : TokenHead ρ ℓ}

variable {gateway : Gateway} {request : GenerateRequest} {word : ℤ → ρ} {requestId : Bytes}

end Generation

section Echo

/-- The id in the last row of a tensor. -/
def lastId (tensor : Tensor) : ℕ := bytesWord (tensor.bytes.drop (tensor.bytes.length - 8))

/-- Count on from the last id modulo five, without the ids to avoid. -/
def countOn (lastId : ℕ) (forbiddenTokenIds : List ℤ) : Except Bytes ℤ :=
  match ((List.range 5).map fun step : ℕ => (((lastId + 1 + step) % 5 : ℕ) : ℤ)).find?
      fun id => decide (id ∉ forbiddenTokenIds) with
  | some nextTokenId => .ok nextTokenId
  | none => .error (ascii "no token left")

def countingHead : TokenHead ℤ ℕ where
  finalize row := .ok (row % 2 ^ 64).toNat
  select _ logits _ forbiddenTokenIds := countOn logits forbiddenTokenIds

def echoProcess (stageId : ℕ) (nextStageUrl : Option Text) : StageProcess ℕ ℕ where
  stageId := stageId
  nextStageUrl := nextStageUrl
  setup := tinySetup true 4
  finalizeLogits _ tensor := .ok (lastId tensor)
  selectNextToken _ := countingHead.select

/-- Two stages, the second one at two addresses. -/
def echoNetwork : Network ℕ ℕ ℕ where
  unicode := ⟨fun c => decide (c = ' '), fun _ => none⟩
  serverAt url := if url = ['a'] then some 0 else if url = ['b'] then some 1
    else if url = ['c'] then some 2 else none
  process server := if server = 0 then echoProcess 1 (some ['b']) else echoProcess 2 none
  carried _ tensor := tensor
  requestErrorText _ _ := []
  maxHops := 3

def echoGateway : Gateway where
  unicode := echoNetwork.unicode
  lower := id
  tokenizer :=
    { eosTokenId := some 4
      allSpecialIds := [4]
      applyChatTemplate := none
      encode := fun text => text.map fun _ => 1
      decode := fun ids => ids.map fun _ => 'x' }
  firstStageUrl := ['a']
  topologyRouteCandidates := OrderedDict.empty.putLast ['1'] [['b'], ['c']]

/-- A request with every module switched on. -/
def echoRequest : GenerateRequest where
  prompt := some ['h', 'i']
  messages := none
  maxNewTokens := 9
  minNewTokens := 4
  sampling := ⟨0, none, none⟩
  featureFlags := ⟨true, true, .baseline⟩
  moduleFlags := ⟨⟨"binary_octet_stream", "none"⟩, .fp32, true⟩

/-- Only the second address of the second stage is healthy. -/
def echoProbes : Probes := fun _ url => if url = ['c'] then some ⟨1, 100⟩ else none

end Echo

end LayerInference.ModuleTransparency
