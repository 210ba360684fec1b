import LayerInference.ConfigLines
import LayerInference.PartitionGraph

/-!
# Reading a stage map

The gateway reads all partitions of a stage map and validates their graph; a
stage reads the entry with its own stage id. Both go through the file line by
line and remember which section they are in. A section ends at a line with less
indent, in the gateway at some top-level keys only.
-/

namespace LayerInference.StageMapFiles

open ByteStrings hiding trimCopy
open TextStreams ConfigLines PartitionRouting PartitionGraph

/-- A partition as the gateway reads it. -/
structure GatewayPartition extends PartitionNodeConfig where
  stageId : ℤ := 0
  physicalNode : Bytes := []
  partitionFile : Bytes := []
  nativePartitionFile : Bytes := []
  backend : Bytes := []
  deriving DecidableEq

/-- The partition before any of its lines is read. -/
def emptyPartition : GatewayPartition := { partitionId := [], serviceName := [] }

structure GatewayConfig where
  configPath : Bytes
  serviceName : Bytes := ascii "dli-gateway-cpp"
  modelName : Bytes := []
  modelPath : Bytes := []
  firstStageUrl : Bytes := []
  port : ℤ := 8000
  numLayers : ℤ := 0
  partitions : List GatewayPartition := []
  partitionValidation : PartitionGraphValidation := {}
  deriving DecidableEq

/-- The gateway between two lines. -/
structure GatewayLoad where
  config : GatewayConfig
  insideGateway : Bool := false
  insideInferenceStages : Bool := false
  insideCurrentPartition : Bool := false
  insideComponents : Bool := false
  insideLayers : Bool := false
  gatewayIndent : ℤ := -1
  currentPartition : GatewayPartition := emptyPartition
  deriving DecidableEq

structure StageConfig where
  stageId : ℤ := 0
  port : ℤ := 8000
  configPath : Bytes
  serviceName : Bytes := ascii "dli-stage-cpp"
  physicalNode : Bytes := []
  partitionFile : Bytes := []
  nativePartitionFile : Bytes := []
  backend : Bytes := []
  nextStageUrl : Bytes := []
  components : PartitionComponents := {}
  deriving DecidableEq

/-- A stage between two lines. -/
structure StageLoad where
  config : StageConfig
  insideInferenceStages : Bool := false
  insideTargetStage : Bool := false
  insideComponents : Bool := false
  insideLayers : Bool := false
  deriving DecidableEq

section Components

/-- A line of the components, which both readers treat alike. -/
def componentLine (components : PartitionComponents) (insideLayers : Bool) (trimmed : Bytes) :
    Except Bytes (PartitionComponents × Bool) :=
  if startsWith trimmed (ascii "embedding:") then
    .ok ({ components with embedding := parseBoolValue (valueAfterColon trimmed) }, insideLayers)
  else if startsWith trimmed (ascii "norm:") then
    .ok ({ components with norm := parseBoolValue (valueAfterColon trimmed) }, insideLayers)
  else if startsWith trimmed (ascii "lm_head:") then
    .ok ({ components with lmHead := parseBoolValue (valueAfterColon trimmed) }, insideLayers)
  else if startsWith trimmed (ascii "layers:") then .ok (components, true)
  else if insideLayers && startsWith trimmed (ascii "-") then
    let item := trimCopy (trimmed.drop 1)
    if item.isEmpty then .ok (components, insideLayers)
    else do
      let layer ← stoiOrThrow item
      .ok ({ components with layers := components.layers ++ [layer] }, insideLayers)
  else .ok (components, insideLayers)

end Components

section Gateway

def defaultPartitionId (stageId : ℤ) : Bytes := ascii "partition-" ++ decimal stageId

def finishPartitionIfValid (load : GatewayLoad) : Except Bytes GatewayLoad :=
  if !load.insideCurrentPartition then .ok load
  else if load.currentPartition.stageId ≤ 0 then
    .error (ascii "partition entry has invalid stage_id")
  else
    let current := if load.currentPartition.partitionId.isEmpty then
        { load.currentPartition with
          partitionId := defaultPartitionId load.currentPartition.stageId }
      else load.currentPartition
    if current.serviceName.isEmpty then
      .error (ascii "partition " ++ current.partitionId ++ ascii " is missing service_name")
    else
      .ok { load with
        config := { load.config with partitions := load.config.partitions ++ [current] }
        currentPartition := emptyPartition
        insideCurrentPartition := false }

/-- A line of a stage outside its components. -/
def gatewayStageField (current : GatewayPartition) (trimmed : Bytes) : GatewayPartition :=
  if startsWith trimmed (ascii "partition_id:") then
    { current with partitionId := valueAfterColon trimmed }
  else if startsWith trimmed (ascii "service_name:") then
    { current with serviceName := valueAfterColon trimmed }
  else if startsWith trimmed (ascii "physical_node:") then
    { current with physicalNode := valueAfterColon trimmed }
  else if startsWith trimmed (ascii "partition_file:") then
    { current with partitionFile := valueAfterColon trimmed }
  else if startsWith trimmed (ascii "native_partition_file:") then
    { current with nativePartitionFile := valueAfterColon trimmed }
  else if startsWith trimmed (ascii "backend:") then
    { current with backend := valueAfterColon trimmed }
  else if startsWith trimmed (ascii "next_stage_url:") then
    { current with nextStageUrl := valueAfterColon trimmed }
  else current

/-- A line inside the list of stages. -/
def gatewayStageLine (load : GatewayLoad) (indent : ℕ) (trimmed : Bytes) :
    Except Bytes GatewayLoad :=
  if isStageListItem trimmed then do
    let load ← finishPartitionIfValid load
    let stageId ← parseStageIdFromListItem trimmed
    .ok { load with
      currentPartition :=
        { emptyPartition with stageId := stageId, partitionId := defaultPartitionId stageId }
      insideCurrentPartition := true
      insideComponents := false
      insideLayers := false }
  else if !load.insideCurrentPartition then .ok load
  else if startsWith trimmed (ascii "components:") then
    .ok { load with insideComponents := true, insideLayers := false }
  else
    let load := if load.insideComponents && decide (indent ≤ 2) &&
        !startsWith trimmed (ascii "components:") then
        { load with insideComponents := false, insideLayers := false }
      else load
    if !load.insideComponents then
      .ok { load with currentPartition := gatewayStageField load.currentPartition trimmed }
    else do
      let (components, insideLayers) ←
        componentLine load.currentPartition.components load.insideLayers trimmed
      .ok { load with
        currentPartition := { load.currentPartition with components := components }
        insideLayers := insideLayers }

/-- A line inside the section of the gateway; nothing for a line that is none of
its keys. -/
def gatewaySectionLine (load : GatewayLoad) (trimmed : Bytes) :
    Except Bytes (Option GatewayLoad) :=
  if !load.insideGateway then .ok none
  else if startsWith trimmed (ascii "service_name:") then
    .ok (some { load with config := { load.config with serviceName := valueAfterColon trimmed } })
  else if startsWith trimmed (ascii "first_stage_url:") then
    .ok (some { load with
      config := { load.config with firstStageUrl := valueAfterColon trimmed } })
  else if startsWith trimmed (ascii "port:") then
    match stoi (valueAfterColon trimmed) with
    | some port => .ok (some { load with config := { load.config with port := port } })
    | none => .error (ascii "invalid gateway port in config: " ++ valueAfterColon trimmed)
  else .ok none

/-- A line that is no top-level key. -/
def gatewayOtherLine (load : GatewayLoad) (indent : ℕ) (trimmed : Bytes) :
    Except Bytes GatewayLoad := do
  let load := if load.insideGateway && decide (indent ≤ load.gatewayIndent) &&
      !startsWith trimmed (ascii "inference_gateway:") then
      { load with insideGateway := false }
    else load
  let read ← gatewaySectionLine load trimmed
  match read with
  | some load => .ok load
  | none =>
    if !load.insideInferenceStages then .ok load
    else gatewayStageLine load indent trimmed

/-- A line that is neither blank nor a comment. -/
def gatewayKeyLine (load : GatewayLoad) (indent : ℕ) (trimmed : Bytes) :
    Except Bytes GatewayLoad :=
  if indent == 0 && startsWith trimmed (ascii "model_name:") then
    .ok { load with config := { load.config with modelName := valueAfterColon trimmed } }
  else if indent == 0 && startsWith trimmed (ascii "model_path:") then
    .ok { load with config := { load.config with modelPath := valueAfterColon trimmed } }
  else if indent == 0 && startsWith trimmed (ascii "num_layers:") then do
    let numLayers ← stoiOrThrow (valueAfterColon trimmed)
    .ok { load with config := { load.config with numLayers := numLayers } }
  else if indent == 0 && startsWith trimmed (ascii "inference_gateway:") then
    -- the partition that is being read is dropped here
    .ok { load with
      insideGateway := true
      insideInferenceStages := false
      insideCurrentPartition := false
      insideComponents := false
      insideLayers := false
      gatewayIndent := indent }
  else if indent == 0 && startsWith trimmed (ascii "inference_stages:") then do
    let load ← finishPartitionIfValid load
    .ok { load with
      insideGateway := false
      insideInferenceStages := true
      insideComponents := false
      insideLayers := false }
  else if load.insideInferenceStages && indent == 0 && !isStageListItem trimmed &&
      !startsWith trimmed (ascii "inference_stages:") then do
    let load ← finishPartitionIfValid load
    .ok { load with
      insideInferenceStages := false
      insideComponents := false
      insideLayers := false }
  else gatewayOtherLine load indent trimmed

def gatewayLine (load : GatewayLoad) (line : Bytes) : Except Bytes GatewayLoad :=
  let trimmed := trimCopy line
  if trimmed.isEmpty || startsWith trimmed (ascii "#") then .ok load
  else gatewayKeyLine load (indentWidth line) trimmed

/-- The file is given by its text, if it can be opened. -/
def loadGatewayConfigFromFile (configPath : Bytes) (file : Option Bytes) :
    Except Bytes GatewayConfig :=
  match file with
  | none => .error (ascii "failed to open gateway config file: " ++ configPath)
  | some text => do
    let load ← (getLines text).foldlM gatewayLine { config := { configPath := configPath } }
    let load ← finishPartitionIfValid load
    let validation := validatePartitionGraph
      (load.config.partitions.map GatewayPartition.toPartitionNodeConfig) load.config.numLayers
    if !validation.valid then .error (ascii "invalid partition graph: " ++ validation.error)
    else .ok { load.config with partitionValidation := validation }

end Gateway

section Stage

/-- A line of the wanted stage outside its components. -/
def stageField (config : StageConfig) (trimmed : Bytes) : StageConfig :=
  if startsWith trimmed (ascii "service_name:") then
    { config with serviceName := valueAfterColon trimmed }
  else if startsWith trimmed (ascii "physical_node:") then
    { config with physicalNode := valueAfterColon trimmed }
  else if startsWith trimmed (ascii "partition_file:") then
    { config with partitionFile := valueAfterColon trimmed }
  else if startsWith trimmed (ascii "native_partition_file:") then
    { config with nativePartitionFile := valueAfterColon trimmed }
  else if startsWith trimmed (ascii "backend:") then
    { config with backend := valueAfterColon trimmed }
  else if startsWith trimmed (ascii "next_stage_url:") then
    { config with nextStageUrl := valueAfterColon trimmed }
  else config

/-- A line inside the list of stages. -/
def stageEntryLine (wantedStageId : ℤ) (load : StageLoad) (indent : ℕ) (trimmed : Bytes) :
    Except Bytes StageLoad :=
  if isStageListItem trimmed then do
    let currentStageId ← parseStageIdFromListItem trimmed
    let load := { load with
      insideTargetStage := currentStageId == wantedStageId
      insideComponents := false
      insideLayers := false }
    if load.insideTargetStage then
      .ok { load with config := { load.config with
        stageId := currentStageId
        components := { load.config.components with layers := [] } } }
    else .ok load
  else if !load.insideTargetStage then .ok load
  else if startsWith trimmed (ascii "components:") then
    .ok { load with insideComponents := true, insideLayers := false }
  else
    let load := if load.insideComponents && decide (indent ≤ 2) &&
        !startsWith trimmed (ascii "components:") then
        { load with insideComponents := false, insideLayers := false }
      else load
    if !load.insideComponents then
      .ok { load with config := stageField load.config trimmed }
    else do
      let (components, insideLayers) ←
        componentLine load.config.components load.insideLayers trimmed
      .ok { load with
        config := { load.config with components := components }
        insideLayers := insideLayers }

/-- One line; nothing is returned where the reader stops. -/
def stageLine (wantedStageId : ℤ) (load : StageLoad) (line : Bytes) :
    Except Bytes (Option StageLoad) :=
  let trimmed := trimCopy line
  if trimmed.isEmpty || startsWith trimmed (ascii "#") then .ok (some load)
  else
    let indent := indentWidth line
    if !load.insideInferenceStages then
      if indent == 0 && startsWith trimmed (ascii "inference_stages:") then
        .ok (some { load with insideInferenceStages := true })
      else .ok (some load)
    else if indent == 0 && !isStageListItem trimmed &&
        !startsWith trimmed (ascii "inference_stages:") then
      .ok none
    else do
      let load ← stageEntryLine wantedStageId load indent trimmed
      .ok (some load)

/-- The lines up to the one where the reader stops. -/
def stageLines (wantedStageId : ℤ) : StageLoad → List Bytes → Except Bytes StageLoad
  | load, [] => .ok load
  | load, line :: lines => do
    match ← stageLine wantedStageId load line with
    | some load => stageLines wantedStageId load lines
    | none => .ok load

def loadStageConfigFromFile (configPath : Bytes) (file : Option Bytes) (wantedStageId : ℤ) :
    Except Bytes StageConfig :=
  match file with
  | none => .error (ascii "failed to open stage config file: " ++ configPath)
  | some text => do
    let load ← stageLines wantedStageId
      { config := { configPath := configPath, stageId := wantedStageId, serviceName := [] } }
      (getLines text)
    if load.config.serviceName.isEmpty then
      .error (ascii "stage_id=" ++ decimal wantedStageId ++
        ascii " not found or missing service_name in " ++ configPath)
    else .ok load.config

end Stage

end LayerInference.StageMapFiles
