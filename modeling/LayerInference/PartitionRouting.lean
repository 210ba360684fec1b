import LayerInference.FallibleRuns
import LayerInference.ByteStrings

/-!
# Routing a frame through the partitions

The gateway keeps its partitions in a list. One pipeline call either visits
them in list order until a terminal one has answered, or hands the frame to
the first stage, which passes it on by itself. The address of a partition is
what its predecessor in the list names as next. Frames are left abstract here.
-/

namespace LayerInference.PartitionRouting

open ByteStrings FallibleRuns

variable {σ φ : Type}

/-- What a partition owns of the model. -/
structure PartitionComponents where
  layers : List ℤ := []
  embedding : Bool := false
  norm : Bool := false
  lmHead : Bool := false
  deriving DecidableEq

/-- One partition as the gateway knows it. -/
structure PartitionNodeConfig where
  partitionId : Bytes
  serviceName : Bytes
  nextStageUrl : Bytes := []
  components : PartitionComponents := {}
  deriving DecidableEq

/-- The part of the configuration that routing reads. -/
structure RouteConfig where
  firstStageUrl : Bytes
  partitions : List PartitionNodeConfig
  nativeStageChainingEnabled : Bool := false

/-- The answer to one forwarded frame. -/
structure StageClientResult (φ : Type) where
  httpStatus : ℕ
  responseFrame : φ
  errorBody : Bytes := []

/-- A client forwards a frame to a URL; the state is what lies behind it. -/
abbrev StageClient (σ φ : Type) := Bytes → φ → EStateM Bytes σ (StageClientResult φ)

def isTerminalPartition (partition : PartitionNodeConfig) : Bool :=
  partition.nextStageUrl.isEmpty || partition.components.lmHead

/-- The status class of a successful answer. -/
def isSuccess (httpStatus : ℕ) : Prop := 200 ≤ httpStatus ∧ httpStatus < 300

instance (httpStatus : ℕ) : Decidable (isSuccess httpStatus) :=
  inferInstanceAs (Decidable (_ ∧ _))

theorem isSuccess_answered : isSuccess 200 := by decide

theorem not_isSuccess_refused : ¬isSuccess 400 := by decide

theorem not_isSuccess_downstream : ¬isSuccess 502 := by decide

/-- The URL of a partition, as the one before it names it. -/
def stageUrlForPartition (config : RouteConfig) (index : ℕ) : Except Bytes Bytes :=
  if index = 0 then .ok config.firstStageUrl
  else
    match config.partitions[index]?, config.partitions[index - 1]? with
    | some partition, some previous =>
      if previous.nextStageUrl.isEmpty then
        .error (ascii "cannot route to partition " ++ partition.partitionId ++
          ascii " because previous partition has empty next_stage_url")
      else .ok previous.nextStageUrl
    | _, _ => .error (ascii "partition index out of range")

/-- Visit the remaining partitions in list order until a terminal one answers. -/
def orchestrate (config : RouteConfig) (client : StageClient σ φ) :
    ℕ → List PartitionNodeConfig → φ → EStateM Bytes σ (StageClientResult φ)
  | _, [], _ => stateless (.error (ascii "partition graph has no terminal partition"))
  | index, partition :: rest, frame => do
    let url ← stateless (stageUrlForPartition config index)
    let result ← client url frame
    if ¬isSuccess result.httpStatus then
      stateless (.error (ascii "partition " ++ partition.partitionId ++ ascii " returned HTTP " ++
        decimalNat result.httpStatus ++ ascii ": " ++ result.errorBody))
    else if isTerminalPartition partition then pure result
    else orchestrate config client (index + 1) rest result.responseFrame

/-- Call the first stage only. -/
def forwardChained (config : RouteConfig) (client : StageClient σ φ) (frame : φ) :
    EStateM Bytes σ (StageClientResult φ) := do
  let result ← client config.firstStageUrl frame
  if ¬isSuccess result.httpStatus then
    stateless (.error (ascii "native chained stage call failed with HTTP " ++
      decimalNat result.httpStatus ++ ascii ": " ++ result.errorBody))
  else pure result

/-- One pipeline call of the gateway. -/
def forwardThroughPartitionGraph (config : RouteConfig) (client : StageClient σ φ) (frame : φ) :
    EStateM Bytes σ (StageClientResult φ) :=
  if config.partitions.isEmpty then stateless (.error (ascii "gateway partition graph is empty"))
  else if config.nativeStageChainingEnabled then forwardChained config client frame
  else orchestrate config client 0 config.partitions frame

/-- A client that records the URLs it is given and always succeeds. -/
def recordingClient : StageClient (List Bytes) Unit := fun url _ urls =>
  .ok ⟨200, (), []⟩ (urls ++ [url])

/-- The URLs that one orchestrated call visits when every stage answers. -/
def orchestratedRoute (config : RouteConfig) : List Bytes :=
  finalState (orchestrate config recordingClient 0 config.partitions () [])

/-- The positions visited from `index` on: up to the first terminal partition. -/
def visitedFrom (index : ℕ) : List PartitionNodeConfig → List ℕ
  | [] => []
  | partition :: rest =>
    index :: if isTerminalPartition partition then [] else visitedFrom (index + 1) rest

/-- The URLs in the configuration lead where the list says: the first URL to
the first partition, each next URL to the partition behind it. -/
structure Addresses (config : RouteConfig) (stageAt : Bytes → ℕ) : Prop where
  first : stageAt config.firstStageUrl = 0
  next : ∀ index partition, config.partitions[index]? = some partition →
    index + 1 < config.partitions.length → partition.nextStageUrl ≠ [] →
      stageAt partition.nextStageUrl = index + 1

/-- The URL of a partition that is not behind an empty next URL. -/
theorem stageUrlForPartition_succ {config : RouteConfig} {index : ℕ}
    {partition previous : PartitionNodeConfig}
    (hpartition : config.partitions[index + 1]? = some partition)
    (hprevious : config.partitions[index]? = some previous) (hurl : previous.nextStageUrl ≠ []) :
    stageUrlForPartition config (index + 1) = .ok previous.nextStageUrl := by
  have hempty : previous.nextStageUrl.isEmpty = false := by simpa using hurl
  simp only [stageUrlForPartition, Nat.add_one_ne_zero, if_false, Nat.add_sub_cancel, hpartition,
    hprevious, hempty, Bool.false_eq_true]

/-- The URL of a partition leads to it, when the one before names a URL. -/
theorem stageUrlForPartition_at {config : RouteConfig} {stageAt : Bytes → ℕ}
    (haddr : Addresses config stageAt) {index : ℕ} (hlt : index < config.partitions.length)
    (hbefore : ∀ i previous, index = i + 1 → config.partitions[i]? = some previous →
      previous.nextStageUrl ≠ []) :
    ∃ url, stageUrlForPartition config index = .ok url ∧ stageAt url = index := by
  cases index with
  | zero => exact ⟨config.firstStageUrl, rfl, haddr.first⟩
  | succ i =>
    have hprevious : config.partitions[i]? = some (config.partitions.get ⟨i, by omega⟩) :=
      List.getElem?_eq_getElem _
    have hne := hbefore i _ rfl hprevious
    exact ⟨_, stageUrlForPartition_succ (List.getElem?_eq_getElem hlt) hprevious hne,
      haddr.next i _ hprevious hlt hne⟩

/-- The recorded URLs lead to the visited positions. The partition before the
current one, if any, names a next URL. -/
theorem orchestrate_recorded {config : RouteConfig} {stageAt : Bytes → ℕ}
    (haddr : Addresses config stageAt) (rest : List PartitionNodeConfig) (index : ℕ)
    (hrest : config.partitions.drop index = rest)
    (hbefore : ∀ i previous, index = i + 1 → config.partitions[i]? = some previous →
      previous.nextStageUrl ≠ []) (urls : List Bytes) :
    (finalState (orchestrate config recordingClient index rest () urls)).map stageAt =
      urls.map stageAt ++ visitedFrom index rest := by
  induction rest generalizing index urls with
  | nil => simp [orchestrate, visitedFrom, finalState]
  | cons partition rest ih =>
    have hlt : index < config.partitions.length := by
      by_contra hge
      rw [List.drop_eq_nil_of_le (Nat.le_of_not_lt hge)] at hrest
      cases hrest
    have hpartition : config.partitions[index]? = some partition := by
      rw [← List.head?_drop, hrest, List.head?_cons]
    obtain ⟨url, hurl, hat⟩ := stageUrlForPartition_at haddr hlt hbefore
    have hcall : orchestrate config recordingClient index (partition :: rest) () urls =
        if isTerminalPartition partition then .ok ⟨200, (), []⟩ (urls ++ [url])
        else orchestrate config recordingClient (index + 1) rest () (urls ++ [url]) := by
      rw [orchestrate, bind_apply, hurl, stateless_ok]
      dsimp only
      rw [bind_apply]
      dsimp only [recordingClient]
      rw [if_neg (by decide)]
      split <;> rfl
    rw [hcall, visitedFrom]
    by_cases hterminal : isTerminalPartition partition = true
    · simp [hterminal, finalState, hat]
    · rw [if_neg hterminal, if_neg hterminal]
      have hdrop : config.partitions.drop (index + 1) = rest := by
        rw [← List.tail_drop, hrest, List.tail_cons]
      rw [ih (index + 1) hdrop ?_, List.map_append, List.append_assoc]
      · simp [hat]
      · intro i previous hi hprevious
        obtain rfl : index = i := by omega
        rw [hpartition] at hprevious
        cases hprevious
        intro hempty
        simp [isTerminalPartition, hempty] at hterminal

/-- The positions that one orchestrated call visits. -/
theorem orchestratedRoute_positions {config : RouteConfig} {stageAt : Bytes → ℕ}
    (haddr : Addresses config stageAt) :
    (orchestratedRoute config).map stageAt = visitedFrom 0 config.partitions := by
  have h := orchestrate_recorded haddr config.partitions 0 rfl (fun _ _ h => by cases h) []
  exact h

/-- The visited positions are a prefix of the list, up to a terminal one. -/
theorem visitedFrom_eq_range (index : ℕ) (partitions : List PartitionNodeConfig) :
    visitedFrom index partitions = List.range' index (visitedFrom index partitions).length := by
  induction partitions generalizing index with
  | nil => rfl
  | cons partition rest ih =>
    unfold visitedFrom
    split
    · rfl
    · rw [List.length_cons, List.range'_succ, ← ih]

/-- Every partition is visited exactly when none before the last is terminal. -/
theorem visitedFrom_length_iff (index : ℕ) (partitions : List PartitionNodeConfig) :
    (visitedFrom index partitions).length = partitions.length ↔
      ∀ partition ∈ partitions.dropLast, isTerminalPartition partition = false := by
  induction partitions generalizing index with
  | nil => simp [visitedFrom]
  | cons partition rest ih =>
    cases rest with
    | nil =>
      unfold visitedFrom
      split <;> simp [visitedFrom]
    | cons second rest =>
      unfold visitedFrom
      rw [List.dropLast_cons_cons]
      split
      · next h => simp [h]
      · next h =>
        rw [List.length_cons, List.length_cons, Nat.add_right_cancel_iff, ih]
        simp [h]

end LayerInference.PartitionRouting
