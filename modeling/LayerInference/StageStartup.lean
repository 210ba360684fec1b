import LayerInference.PartialRuntime
import LayerInference.ShardCompleteness
import LayerInference.StageMapAgreement
import LayerInference.ManifestRoundTrip

/-!
# Stages start on their own shards

A stage process reads its entry of the stage map, opens a shard and compares
what the shard says about itself with the entry. The shard came a long way: the
gateway's reader of the stage map, a manifest, the shard writer and the
validator. A stage starts on a shard that the tools wrote exactly if the shard
was written for its own stage id, and then it serves the layers that the
gateway expects of it.
-/

namespace LayerInference.StageStartup

open ByteStrings FallibleRuns OrderedDicts PartitionRouting TextStreams
open StageMapFiles StageMapAgreement ManifestTexts ManifestRoundTrip ShardTools PartialRuntime

/-- All that a stage reads of its shard. -/
structure LoadedShard extends LlamaShardMetadata where
  format : Bytes
  formatVersion : ℤ
  partitionId : Bytes
  stageId : ℤ
  nextPartitionId : Bytes
  sourceModel : Bytes

structure LlamaPartialRuntimeConfig where
  modelPath : Bytes
  stageId : ℤ
  expectedLayers : List ℤ
  expectedOwnsEmbedding : Bool
  expectedOwnsNorm : Bool
  expectedOwnsLmHead : Bool
  expectedNextStageUrl : Bytes

/-- What stands under a path. A regular file may be none that the library reads. -/
inductive PathEntry where
  | absent
  | notRegular
  | regular (content : Option GgufFile)

structure Files where
  stageMap : Bytes → Option Bytes
  modelFile : Bytes → PathEntry

/-- Loading the vocabulary and the tensors of a file, which gives the metadata
as texts, empty where there is none. -/
abbrev LlamaLibrary := GgufFile → Option (Bytes → Bytes)

section Loading

def requireGgufKey (metadata : Metadata) (key : Bytes) : Except Bytes MetadataValue :=
  match metadata.get? key with
  | some value => .ok value
  | none => .error (ascii "missing required shard metadata key: " ++ key)

/-- The library ends the program at a value of another type. -/
def typeAssertion : Bytes := ascii "GGML_ASSERT"

def ggufStringRequired (metadata : Metadata) (key : Bytes) : Except Bytes Bytes := do
  match ← requireGgufKey metadata key with
  | .string value => .ok value
  | _ => .error typeAssertion

def ggufI32Required (metadata : Metadata) (key : Bytes) : Except Bytes ℤ := do
  match ← requireGgufKey metadata key with
  | .int32 value => .ok value
  | _ => .error typeAssertion

def ggufBoolRequired (metadata : Metadata) (key : Bytes) : Except Bytes Bool := do
  match ← requireGgufKey metadata key with
  | .bool value => .ok value
  | _ => .error typeAssertion

/-- As in the tools, an empty array is taken to have data. -/
def ggufI32ArrayRequired (metadata : Metadata) (key : Bytes) : Except Bytes (List ℤ) := do
  match ← requireGgufKey metadata key with
  | .int32Array values => .ok values
  | .other => .error (ascii "shard metadata key is not array<int32>: " ++ key)
  | _ => .error typeAssertion

def loadShardMetadataFromGguf (modelPath : Bytes) (content : Option GgufFile) :
    Except Bytes LoadedShard :=
  match content with
  | none => .error (ascii "failed to open GGUF shard for metadata: " ++ modelPath)
  | some file => do
    let format ← ggufStringRequired file.metadata (ascii "dli.format")
    let formatVersion ← ggufI32Required file.metadata (ascii "dli.format_version")
    let partitionId ← ggufStringRequired file.metadata (ascii "dli.partition_id")
    let stageId ← ggufI32Required file.metadata (ascii "dli.stage_id")
    let layers ← ggufI32ArrayRequired file.metadata (ascii "dli.layers")
    let ownsEmbedding ← ggufBoolRequired file.metadata (ascii "dli.owns_embedding")
    let ownsNorm ← ggufBoolRequired file.metadata (ascii "dli.owns_norm")
    let ownsLmHead ← ggufBoolRequired file.metadata (ascii "dli.owns_lm_head")
    let nextPartitionId ← ggufStringRequired file.metadata (ascii "dli.next_partition_id")
    let nextStageUrl ← ggufStringRequired file.metadata (ascii "dli.next_stage_url")
    let hiddenSize ← ggufI32Required file.metadata (ascii "dli.hidden_size")
    let sourceModel ← ggufStringRequired file.metadata (ascii "dli.source_model")
    require (decide (format = ascii "dli.gguf.stage_shard"))
      (ascii "invalid dli.format in shard: " ++ format)
    require (decide (formatVersion = 1))
      (ascii "unsupported dli.format_version: " ++ decimal formatVersion)
    .ok ⟨⟨true, layers, ownsEmbedding, ownsNorm, ownsLmHead, nextStageUrl, hiddenSize⟩,
      format, formatVersion, partitionId, stageId, nextPartitionId, sourceModel⟩

def stageIdMismatch (configured written : ℤ) : Bytes :=
  ascii "DLI shard stage_id mismatch: CLI/env stage_id=" ++ decimal configured ++
    ascii ", shard stage_id=" ++ decimal written

def validateShardAgainstStageConfig (shard : LoadedShard) (config : LlamaPartialRuntimeConfig) :
    Except Bytes Unit := do
  require shard.shardLoaded (ascii "cannot validate unloaded DLI GGUF shard metadata")
  require (decide (shard.stageId = config.stageId)) (stageIdMismatch config.stageId shard.stageId)
  require (decide (shard.layers = config.expectedLayers))
    (ascii "DLI shard layer allocation mismatch: expected " ++
      intVectorJson config.expectedLayers ++ ascii ", got " ++ intVectorJson shard.layers)
  require (decide (shard.ownsEmbedding = config.expectedOwnsEmbedding))
    (ascii "DLI shard owns_embedding does not match stage_map.yaml")
  require (decide (shard.ownsNorm = config.expectedOwnsNorm))
    (ascii "DLI shard owns_norm does not match stage_map.yaml")
  require (decide (shard.ownsLmHead = config.expectedOwnsLmHead))
    (ascii "DLI shard owns_lm_head does not match stage_map.yaml")
  require (decide (shard.nextStageUrl = config.expectedNextStageUrl))
    (ascii "DLI shard next_stage_url mismatch: expected '" ++ config.expectedNextStageUrl ++
      ascii "', got '" ++ shard.nextStageUrl ++ ascii "'")

/-- A number of the metadata; zero where its text is none. -/
def modelMetaInt (text : Bytes) : ℤ :=
  if text.isEmpty then 0 else (stoi text).getD 0

/-- The constructor of the runtime. Without a path there is no shard. -/
def newLlamaPartialRuntime (library : LlamaLibrary) (files : Files)
    (config : LlamaPartialRuntimeConfig) : Except Bytes (Option LoadedShard) :=
  if config.modelPath.isEmpty then .ok none
  else
    match files.modelFile config.modelPath with
    | .absent =>
      .error (ascii "LlamaPartialRuntime model path does not exist: " ++ config.modelPath)
    | .notRegular =>
      .error (ascii "LlamaPartialRuntime model path is not a regular file: " ++ config.modelPath)
    | .regular content => do
      let shard ← loadShardMetadataFromGguf config.modelPath content
      validateShardAgainstStageConfig shard config
      match content.bind library with
      | none =>
        .error (ascii "failed to load GGUF metadata/vocab for LlamaPartialRuntime: " ++
          config.modelPath)
      | some text =>
        let nEmbd := modelMetaInt (text (ascii "llama.embedding_length"))
        require (decide ¬(0 < shard.hiddenSize ∧ 0 < nEmbd ∧ shard.hiddenSize ≠ nEmbd))
          (ascii "DLI shard hidden_size does not match llama.embedding_length")
        .ok (some shard)

end Loading

section Process

/-- What the arguments and the environment say. -/
structure CliOptions where
  configPath : Bytes := ascii "/app/configs/stage_map.yaml"
  backend : Bytes := ascii "stub"
  modelPath : Bytes := []
  port : ℤ := 0
  stageId : ℤ := 0

def mergeStageConfig (fileConfig overrideConfig : StageConfig) : StageConfig where
  stageId := if 0 < overrideConfig.stageId then overrideConfig.stageId else fileConfig.stageId
  port := if 0 < overrideConfig.port then overrideConfig.port else fileConfig.port
  configPath :=
    if overrideConfig.configPath.isEmpty then fileConfig.configPath else overrideConfig.configPath
  serviceName :=
    if overrideConfig.serviceName.isEmpty then fileConfig.serviceName
    else overrideConfig.serviceName
  physicalNode :=
    if overrideConfig.physicalNode.isEmpty then fileConfig.physicalNode
    else overrideConfig.physicalNode
  partitionFile :=
    if overrideConfig.partitionFile.isEmpty then fileConfig.partitionFile
    else overrideConfig.partitionFile
  nativePartitionFile :=
    if overrideConfig.nativePartitionFile.isEmpty then fileConfig.nativePartitionFile
    else overrideConfig.nativePartitionFile
  backend := if overrideConfig.backend.isEmpty then fileConfig.backend else overrideConfig.backend
  nextStageUrl :=
    if overrideConfig.nextStageUrl.isEmpty then fileConfig.nextStageUrl
    else overrideConfig.nextStageUrl
  components := fileConfig.components

def isLlamaBackend (backend : Bytes) : Bool :=
  backend == ascii "llama" || backend == ascii "llama-partial"

/-- The options completed by an entry of the stage map. -/
def runtimeOptions (options : CliOptions) (backend nativePartitionFile partitionFile : Bytes) :
    CliOptions :=
  let options :=
    if options.backend == ascii "stub" && !backend.isEmpty then { options with backend := backend }
    else options
  if !options.modelPath.isEmpty then options
  else if isLlamaBackend options.backend && !nativePartitionFile.isEmpty then
    { options with modelPath := nativePartitionFile }
  else if !partitionFile.isEmpty then { options with modelPath := partitionFile }
  else options

inductive StageRuntime where
  | stub
  | llamaPartial (shard : Option LoadedShard)

def makeRuntime (library : LlamaLibrary) (files : Files) (options : CliOptions)
    (stageConfig : StageConfig) : Except Bytes StageRuntime :=
  if options.backend == ascii "stub" then .ok .stub
  else if isLlamaBackend options.backend then do
    let shard ← newLlamaPartialRuntime library files
      { modelPath := options.modelPath
        stageId := options.stageId
        expectedLayers := stageConfig.components.layers
        expectedOwnsEmbedding := stageConfig.components.embedding
        expectedOwnsNorm := stageConfig.components.norm
        expectedOwnsLmHead := stageConfig.components.lmHead
        expectedNextStageUrl := stageConfig.nextStageUrl }
    .ok (.llamaPartial shard)
  else
    .error (ascii "unknown stage backend '" ++ options.backend ++
      ascii "'; expected stub or llama")

/-- The process up to the start of its server. -/
def startStage (library : LlamaLibrary) (files : Files) (options : CliOptions) :
    Except Bytes (StageConfig × StageRuntime) := do
  let fileConfig ← loadStageConfigFromFile options.configPath (files.stageMap options.configPath)
    options.stageId
  let config := mergeStageConfig fileConfig
    { configPath := options.configPath
      serviceName := []
      stageId := options.stageId
      port := options.port }
  let runtime ← makeRuntime library files
    (runtimeOptions options config.backend config.nativePartitionFile config.partitionFile) config
  .ok (config, runtime)

end Process

section Shards

variable {metadata source : Metadata} {key : Bytes}

theorem ggufStringRequired_of_get? {value : Bytes} (h : metadata.get? key = some (.string value)) :
    ggufStringRequired metadata key = .ok value := by
  unfold ggufStringRequired requireGgufKey
  rw [h]
  rfl

theorem ggufI32Required_of_get? {value : ℤ} (h : metadata.get? key = some (.int32 value)) :
    ggufI32Required metadata key = .ok value := by
  unfold ggufI32Required requireGgufKey
  rw [h]
  rfl

theorem ggufBoolRequired_of_get? {value : Bool} (h : metadata.get? key = some (.bool value)) :
    ggufBoolRequired metadata key = .ok value := by
  unfold ggufBoolRequired requireGgufKey
  rw [h]
  rfl

theorem ggufI32ArrayRequired_of_get? {values : List ℤ}
    (h : metadata.get? key = some (.int32Array values)) :
    ggufI32ArrayRequired metadata key = .ok values := by
  unfold ggufI32ArrayRequired requireGgufKey
  rw [h]
  rfl

/-- The shard of a partition, as its stage reads it. -/
def ownShard (partition : PartitionEntry) (hiddenSize : ℤ) (sourceModel : Bytes) : LoadedShard where
  layers := partition.components.layers
  ownsEmbedding := partition.components.embedding
  ownsNorm := partition.components.norm
  ownsLmHead := partition.components.lmHead
  nextStageUrl := partition.nextStageUrl
  hiddenSize := hiddenSize
  format := ascii "dli.gguf.stage_shard"
  formatVersion := 1
  partitionId := partition.partitionId
  stageId := partition.stageId
  nextPartitionId := []
  sourceModel := sourceModel

/-- Of files with distinct names each one stays. -/
theorem write_get?_of_mem {α : Type} {directory : Directory α} {files : List (Bytes × α)}
    {name : Bytes} {value : α} (hdistinct : (files.map Prod.fst).Nodup)
    (hmem : (name, value) ∈ files) : (directory.write files).get? name = some value := by
  obtain ⟨found, hfound, hget⟩ := write_get?_mem (List.mem_map_of_mem (f := Prod.fst) hmem)
  have hsame : (name, found) = (name, value) :=
    List.inj_on_of_nodup_map hdistinct hfound hmem rfl
  rw [hget, (Prod.mk.inj hsame).2]

/-- The keys that the writer reads the width of the model from. -/
def widthKeys : List Bytes :=
  [ascii "llama.embedding_length", ascii "gptneox.embedding_length",
    ascii "mistral.embedding_length"]

/-- The keys that the writer adds. -/
def dliKeys : List Bytes :=
  [ascii "dli.format", ascii "dli.format_version", ascii "dli.partition_id", ascii "dli.stage_id",
    ascii "dli.layers", ascii "dli.owns_embedding", ascii "dli.owns_norm", ascii "dli.owns_lm_head",
    ascii "dli.next_partition_id", ascii "dli.next_stage_url", ascii "dli.hidden_size",
    ascii "dli.source_model"]

/-- The keys of the format have the values of a manifest. -/
structure WrittenFor (metadata : Metadata) (manifest : PartitionManifest) (hiddenSize : ℤ)
    (sourceModel : Bytes) : Prop where
  format : metadata.get? (ascii "dli.format") = some (.string (ascii "dli.gguf.stage_shard"))
  formatVersion : metadata.get? (ascii "dli.format_version") = some (.int32 1)
  partitionId : metadata.get? (ascii "dli.partition_id") = some (.string manifest.partitionId)
  stageId : metadata.get? (ascii "dli.stage_id") = some (.int32 manifest.stageId)
  layers : metadata.get? (ascii "dli.layers") = some (.int32Array manifest.layers)
  ownsEmbedding : metadata.get? (ascii "dli.owns_embedding") = some (.bool manifest.ownsEmbedding)
  ownsNorm : metadata.get? (ascii "dli.owns_norm") = some (.bool manifest.ownsNorm)
  ownsLmHead : metadata.get? (ascii "dli.owns_lm_head") = some (.bool manifest.ownsLmHead)
  nextPartitionId : metadata.get? (ascii "dli.next_partition_id") = some (.string [])
  nextStageUrl : metadata.get? (ascii "dli.next_stage_url") = some (.string manifest.nextStageUrl)
  hiddenSize : metadata.get? (ascii "dli.hidden_size") = some (.int32 hiddenSize)
  sourceModel : metadata.get? (ascii "dli.source_model") = some (.string sourceModel)

theorem writtenFor_of_addDliMetadata {manifest : PartitionManifest} {sourceModel : Bytes}
    (h : addDliMetadata source manifest sourceModel = .ok metadata) :
    ∃ hiddenSize, readI32MetadataOrDefault source (-1) widthKeys = .ok hiddenSize ∧
      WrittenFor metadata manifest hiddenSize sourceModel ∧
      metadata.get? (ascii "llama.embedding_length") =
        source.get? (ascii "llama.embedding_length") := by
  unfold addDliMetadata at h
  cases hwidth : readI32MetadataOrDefault source (-1) [ascii "llama.embedding_length",
      ascii "gptneox.embedding_length", ascii "mistral.embedding_length"] with
  | error e =>
    rw [hwidth] at h
    cases h
  | ok hiddenSize =>
    rw [hwidth] at h
    have hdistinct : dliKeys.Nodup := by decide
    have hother : ascii "llama.embedding_length" ∉ dliKeys := by decide
    rw [← Except.ok.inj h]
    refine ⟨hiddenSize, hwidth, ?_, write_get?_other source hother⟩
    exact
      { format := write_get?_of_mem hdistinct (List.mem_of_getElem? (i := 0) rfl)
        formatVersion := write_get?_of_mem hdistinct (List.mem_of_getElem? (i := 1) rfl)
        partitionId := write_get?_of_mem hdistinct (List.mem_of_getElem? (i := 2) rfl)
        stageId := write_get?_of_mem hdistinct (List.mem_of_getElem? (i := 3) rfl)
        layers := write_get?_of_mem hdistinct (List.mem_of_getElem? (i := 4) rfl)
        ownsEmbedding := write_get?_of_mem hdistinct (List.mem_of_getElem? (i := 5) rfl)
        ownsNorm := write_get?_of_mem hdistinct (List.mem_of_getElem? (i := 6) rfl)
        ownsLmHead := write_get?_of_mem hdistinct (List.mem_of_getElem? (i := 7) rfl)
        nextPartitionId := write_get?_of_mem hdistinct (List.mem_of_getElem? (i := 8) rfl)
        nextStageUrl := write_get?_of_mem hdistinct (List.mem_of_getElem? (i := 9) rfl)
        hiddenSize := write_get?_of_mem hdistinct (List.mem_of_getElem? (i := 10) rfl)
        sourceModel := write_get?_of_mem hdistinct (List.mem_of_getElem? (i := 11) rfl) }

/-- A manifest agrees with a partition in what its shard says. -/
structure Describes (manifest : PartitionManifest) (partition : PartitionEntry) : Prop where
  partitionId : manifest.partitionId = partition.partitionId
  stageId : manifest.stageId = partition.stageId
  layers : manifest.layers = partition.components.layers
  ownsEmbedding : manifest.ownsEmbedding = partition.components.embedding
  ownsNorm : manifest.ownsNorm = partition.components.norm
  ownsLmHead : manifest.ownsLmHead = partition.components.lmHead
  nextStageUrl : manifest.nextStageUrl = partition.nextStageUrl

/-- The stage reads what the writer has written. -/
theorem loadShardMetadataFromGguf_written {manifest : PartitionManifest}
    {partition : PartitionEntry} {hiddenSize : ℤ} {sourceModel : Bytes} {shard : GgufFile}
    (h : WrittenFor shard.metadata manifest hiddenSize sourceModel)
    (hsame : Describes manifest partition) (modelPath : Bytes) :
    loadShardMetadataFromGguf modelPath (some shard) =
      .ok (ownShard partition hiddenSize sourceModel) := by
  unfold loadShardMetadataFromGguf ownShard
  dsimp only
  rw [ggufStringRequired_of_get? h.format, ggufI32Required_of_get? h.formatVersion,
    ggufStringRequired_of_get? h.partitionId, ggufI32Required_of_get? h.stageId,
    ggufI32ArrayRequired_of_get? h.layers, ggufBoolRequired_of_get? h.ownsEmbedding,
    ggufBoolRequired_of_get? h.ownsNorm, ggufBoolRequired_of_get? h.ownsLmHead,
    ggufStringRequired_of_get? h.nextPartitionId, ggufStringRequired_of_get? h.nextStageUrl,
    ggufI32Required_of_get? h.hiddenSize, ggufStringRequired_of_get? h.sourceModel,
    hsame.partitionId, hsame.stageId, hsame.layers, hsame.ownsEmbedding, hsame.ownsNorm,
    hsame.ownsLmHead, hsame.nextStageUrl]
  rfl

theorem get?_of_requireValue {expected : MetadataValue} {message : Bytes} {result : Unit}
    (h : requireValue metadata key expected message = .ok result) :
    metadata.get? key = some expected := by
  unfold requireValue requireKey at h
  cases hget : metadata.get? key with
  | none =>
    rw [hget] at h
    cases h
  | some value =>
    rw [hget] at h
    rw [of_decide_eq_true (ok_of_require h)]

/-- What the validator compares besides the tensors. -/
theorem describes_of_validateMetadata {manifest : PartitionManifest} {partition : PartitionEntry}
    {hiddenSize : ℤ} {sourceModel : Bytes} {result : Unit}
    (h : WrittenFor metadata manifest hiddenSize sourceModel)
    (hid : partition.partitionId = manifest.partitionId)
    (hvalid : validateMetadata metadata manifest partition = .ok result) :
    Describes manifest partition := by
  unfold validateMetadata at hvalid
  obtain ⟨_, -, hvalid⟩ := ok_of_bind hvalid
  obtain ⟨_, -, hvalid⟩ := ok_of_bind hvalid
  obtain ⟨_, -, hvalid⟩ := ok_of_bind hvalid
  obtain ⟨_, -, hvalid⟩ := ok_of_bind hvalid
  obtain ⟨_, hstage, hvalid⟩ := ok_of_bind hvalid
  obtain ⟨_, hembedding, hvalid⟩ := ok_of_bind hvalid
  obtain ⟨_, hnorm, hvalid⟩ := ok_of_bind hvalid
  obtain ⟨_, hlmHead, hvalid⟩ := ok_of_bind hvalid
  obtain ⟨_, hlayers, hvalid⟩ := ok_of_bind hvalid
  obtain ⟨_, hurl, -⟩ := ok_of_bind hvalid
  have hembedding' := h.ownsEmbedding.symm.trans (get?_of_requireValue hembedding)
  have hnorm' := h.ownsNorm.symm.trans (get?_of_requireValue hnorm)
  have hlmHead' := h.ownsLmHead.symm.trans (get?_of_requireValue hlmHead)
  have hlayers' := h.layers.symm.trans (get?_of_requireValue hlayers)
  have hurl' := h.nextStageUrl.symm.trans (get?_of_requireValue hurl)
  exact
    { partitionId := hid.symm
      stageId := of_decide_eq_true (ok_of_require hstage)
      layers := MetadataValue.int32Array.inj (Option.some.inj hlayers')
      ownsEmbedding := MetadataValue.bool.inj (Option.some.inj hembedding')
      ownsNorm := MetadataValue.bool.inj (Option.some.inj hnorm')
      ownsLmHead := MetadataValue.bool.inj (Option.some.inj hlmHead')
      nextStageUrl := MetadataValue.string.inj (Option.some.inj hurl') }

theorem metadata_of_writeShardFile {model : GgufFile} {sourceModel : Bytes}
    {file : Bytes × Bytes} {shard : Bytes × GgufFile} {manifest : PartitionManifest}
    (hparse : parsePartitionManifestText file.2 = .ok manifest)
    (h : writeShardFile model sourceModel file = .ok shard) :
    shard.1 = shardFile manifest.partitionId ∧
      addDliMetadata model.metadata manifest sourceModel = .ok shard.2.metadata := by
  unfold writeShardFile writeOneShard at h
  rw [hparse] at h
  dsimp only at h
  cases hmetadata : addDliMetadata model.metadata manifest sourceModel with
  | error e =>
    rw [hmetadata] at h
    cases h
  | ok metadata =>
    rw [hmetadata] at h
    dsimp only at h
    cases hnames : manifest.tensorNames.foldlM (addTensor model.tensorNames) [] with
    | error e =>
      rw [hnames] at h
      cases h
    | ok names =>
      rw [hnames] at h
      cases h
      exact ⟨rfl, rfl⟩

theorem metadata_of_validateOneShard {partitions : List PartitionEntry} {dir : Bytes}
    {shards : Directory GgufFile} {file : Bytes × Bytes} {manifest : PartitionManifest}
    {shard : GgufFile} (hparse : parsePartitionManifestText file.2 = .ok manifest)
    (hshard : shards.get? (shardFile manifest.partitionId) = some shard)
    (h : validateOneShard partitions dir shards file = .ok ()) :
    ∃ partition ∈ partitions, partition.partitionId = manifest.partitionId ∧
      validateMetadata shard.metadata manifest partition = .ok () := by
  unfold validateOneShard at h
  obtain ⟨found, hfound, h⟩ := ok_of_bind h
  rw [hparse] at hfound
  cases hfound
  obtain ⟨partition, hpartition, h⟩ := ok_of_bind h
  rw [hshard] at h
  dsimp only at h
  obtain ⟨_, hvalid, -⟩ := ok_of_bind h
  unfold findPartitionConfig at hpartition
  split at hpartition
  · next other hfind =>
    cases hpartition
    have hbeq : (partition.partitionId == manifest.partitionId) = true :=
      List.find?_some (p := fun other : PartitionEntry => other.partitionId == manifest.partitionId)
        hfind
    exact ⟨partition, List.mem_of_find?_eq_some hfind, beq_iff_eq.mp hbeq, hvalid⟩
  · cases hpartition

variable {partitions : List PartitionEntry} {model : GgufFile}
  {sourceModel manifestDir shardDir : Bytes} {manifestsBefore : Directory Bytes}
  {shardsBefore : Directory GgufFile} {manifests : List (Bytes × Bytes)}
  {shards : List (Bytes × GgufFile)}

/-- Every shard that passed the three tools is the shard of a partition. -/
theorem written_of_toolsSucceed (h : ToolsSucceed partitions model sourceModel manifestDir shardDir
    manifestsBefore shardsBefore manifests shards) {name : Bytes} {shard : GgufFile}
    (hshard : (produced shards).get? name = some shard) :
    ∃ partition ∈ partitions, name = shardFile partition.partitionId ∧
      ∃ manifest, addDliMetadata model.metadata manifest sourceModel = .ok shard.metadata ∧
        partition.partitionId = manifest.partitionId ∧
        validateMetadata shard.metadata manifest partition = .ok () := by
  have hname : name ∈ shards.map Prod.fst := by
    by_contra hname
    have hnone : (produced shards).get? name = none := write_get?_other _ hname
    rw [hnone] at hshard
    cases hshard
  obtain ⟨value, hvalue, hget⟩ := write_get?_mem hname
  have hsame : value = shard := Option.some.inj ((hget OrderedDict.empty).symm.trans hshard)
  subst hsame
  have hwritten := h.written
  unfold writeShards at hwritten
  split at hwritten
  · cases hwritten
  · next files hfiles =>
    obtain ⟨file, hfile, hwrite⟩ := (mem_of_mapM hwritten).2 _ hvalue
    obtain ⟨manifest, hparse, -⟩ := writeShardFile_ok hwrite
    obtain ⟨rfl, hmetadata⟩ := metadata_of_writeShardFile hparse hwrite
    obtain ⟨listed, hlisted, hchecks⟩ := ok_of_bind h.validated
    rw [hfiles] at hlisted
    cases hlisted
    obtain ⟨partition, hmem, hid, hvalid⟩ :=
      metadata_of_validateOneShard hparse (hget shardsBefore) (ok_of_forM hchecks file hfile)
    exact ⟨partition, hmem, by rw [hid], manifest, hmetadata, hid, hvalid⟩

end Shards

section Starting

/-- What the tools take of a partition that the gateway has read. -/
def partitionEntry (p : GatewayPartition) : PartitionEntry where
  toPartitionNodeConfig := p.toPartitionNodeConfig
  stageId := p.stageId
  physicalNode := p.physicalNode
  partitionFile := p.partitionFile
  nativePartitionFile := p.nativePartitionFile
  backend := p.backend

theorem partitionEntry_injective : Function.Injective partitionEntry := by
  rintro ⟨⟩ ⟨⟩ h
  unfold partitionEntry at h
  cases h
  rfl

/-- The library writes a number of the metadata in decimal. -/
structure Prints (library : LlamaLibrary) : Prop where
  absent : ∀ {file text key}, library file = some text → file.metadata.get? key = none →
    text key = []
  int32 : ∀ {file text key value}, library file = some text →
    file.metadata.get? key = some (.int32 value) → IsInt value ∧ text key = decimal value
  uint32 : ∀ {file text key value}, library file = some text →
    file.metadata.get? key = some (.uint32 value) → text key = decimal value

variable {library : LlamaLibrary} {files : Files}

theorem modelMetaInt_decimal {value : ℤ} (h : IsInt value) :
    modelMetaInt (decimal value) = value := by
  unfold modelMetaInt
  rw [stoi_decimal h]
  split
  · next hempty =>
    have hread := stoi_decimal h
    rw [List.isEmpty_iff.mp hempty] at hread
    cases hread
  · rfl

/-- The width that the writer took over is the one that the library reports. -/
theorem width_fits (hlibrary : Prints library) {source : Metadata} {hiddenSize : ℤ}
    (hwidth : readI32MetadataOrDefault source (-1) widthKeys = .ok hiddenSize) {shard : GgufFile}
    (hsame : shard.metadata.get? (ascii "llama.embedding_length") =
      source.get? (ascii "llama.embedding_length")) {text : Bytes → Bytes}
    (htext : library shard = some text) :
    ¬(0 < hiddenSize ∧ 0 < modelMetaInt (text (ascii "llama.embedding_length")) ∧
      hiddenSize ≠ modelMetaInt (text (ascii "llama.embedding_length"))) := by
  unfold widthKeys at hwidth
  rw [readI32MetadataOrDefault] at hwidth
  cases hget : source.get? (ascii "llama.embedding_length") with
  | none =>
    rw [hlibrary.absent htext (hsame.trans hget)]
    exact fun h => lt_irrefl 0 h.2.1
  | some value =>
    rw [hget] at hwidth
    cases value with
    | int32 value =>
      cases hwidth
      obtain ⟨hint, hprinted⟩ := hlibrary.int32 htext (hsame.trans hget)
      rw [hprinted, modelMetaInt_decimal hint]
      exact fun h => h.2.2 rfl
    | uint32 value =>
      dsimp only at hwidth
      split at hwidth
      · cases hwidth
      · next hsmall =>
        cases hwidth
        have hint : IsInt (value : ℤ) := ⟨by omega, by exact_mod_cast not_le.mp hsmall⟩
        rw [hlibrary.uint32 htext (hsame.trans hget), modelMetaInt_decimal hint]
        exact fun h => h.2.2 rfl
    | string value => cases hwidth
    | bool value => cases hwidth
    | int32Array values => cases hwidth
    | other => cases hwidth

/-- A stage process for the entry of a partition, in front of a shard. -/
structure Launched (library : LlamaLibrary) (files : Files) (options : CliOptions)
    (configPath text : Bytes) (p : GatewayPartition) (shard : GgufFile) : Prop where
  stageMap : files.stageMap configPath = some text
  mapPath : options.configPath = configPath
  stageId : options.stageId = p.stageId
  backend : isLlamaBackend
    (runtimeOptions options p.backend p.nativePartitionFile p.partitionFile).backend = true
  path : (runtimeOptions options p.backend p.nativePartitionFile p.partitionFile).modelPath ≠ []
  model : files.modelFile (runtimeOptions options p.backend p.nativePartitionFile
    p.partitionFile).modelPath = .regular (some shard)
  loads : (library shard).isSome = true

theorem runtimeOptions_stageId (options : CliOptions)
    (backend nativePartitionFile partitionFile : Bytes) :
    (runtimeOptions options backend nativePartitionFile partitionFile).stageId =
      options.stageId := by
  unfold runtimeOptions
  dsimp only
  split_ifs <;> rfl

/-- What a stage of a partition expects of its shard. -/
structure Expects (config : LlamaPartialRuntimeConfig) (p : GatewayPartition) : Prop where
  stageId : config.stageId = p.stageId
  layers : config.expectedLayers = p.components.layers
  ownsEmbedding : config.expectedOwnsEmbedding = p.components.embedding
  ownsNorm : config.expectedOwnsNorm = p.components.norm
  ownsLmHead : config.expectedOwnsLmHead = p.components.lmHead
  nextStageUrl : config.expectedNextStageUrl = p.nextStageUrl

variable {text configPath : Bytes} {p q : GatewayPartition} {shard : GgufFile}
  {options : CliOptions} {hiddenSize : ℤ} {sourceModel : Bytes}
  {config : LlamaPartialRuntimeConfig}

/-- A shard of the own stage id passes the check, if the entries agree. -/
theorem validate_own (h : Expects config p) (hstage : p.stageId = q.stageId)
    (hcomponents : q.components = p.components) (hurl : q.nextStageUrl = p.nextStageUrl) :
    validateShardAgainstStageConfig (ownShard (partitionEntry q) hiddenSize sourceModel) config =
      .ok () := by
  have hlayers : q.components.layers = config.expectedLayers := by rw [h.layers, hcomponents]
  have hembedding : q.components.embedding = config.expectedOwnsEmbedding := by
    rw [h.ownsEmbedding, hcomponents]
  have hnorm : q.components.norm = config.expectedOwnsNorm := by rw [h.ownsNorm, hcomponents]
  have hlmHead : q.components.lmHead = config.expectedOwnsLmHead := by
    rw [h.ownsLmHead, hcomponents]
  unfold validateShardAgainstStageConfig ownShard partitionEntry
  dsimp only
  rw [decide_eq_true (hstage.symm.trans h.stageId.symm), decide_eq_true hlayers,
    decide_eq_true hembedding, decide_eq_true hnorm, decide_eq_true hlmHead,
    decide_eq_true (hurl.trans h.nextStageUrl.symm)]
  rfl

/-- A shard of another stage id does not pass. -/
theorem validate_other (h : Expects config p) (hstage : p.stageId ≠ q.stageId) :
    validateShardAgainstStageConfig (ownShard (partitionEntry q) hiddenSize sourceModel) config =
      .error (stageIdMismatch p.stageId q.stageId) := by
  have hother : q.stageId ≠ config.stageId := fun heq => hstage (h.stageId.symm.trans heq.symm)
  unfold validateShardAgainstStageConfig ownShard partitionEntry
  dsimp only
  rw [decide_eq_false hother, h.stageId]
  rfl

/-- What the stage compares its shard with. -/
theorem newLlamaPartialRuntime_regular {loaded : LoadedShard} {printed : Bytes → Bytes}
    (hpath : config.modelPath ≠ [])
    (hmodel : files.modelFile config.modelPath = .regular (some shard))
    (hloaded : loadShardMetadataFromGguf config.modelPath (some shard) = .ok loaded)
    (htext : library shard = some printed)
    (hwidth : ¬(0 < loaded.hiddenSize ∧
      0 < modelMetaInt (printed (ascii "llama.embedding_length")) ∧
      loaded.hiddenSize ≠ modelMetaInt (printed (ascii "llama.embedding_length")))) :
    newLlamaPartialRuntime library files config =
      (validateShardAgainstStageConfig loaded config).map fun _ => some loaded := by
  unfold newLlamaPartialRuntime
  rw [if_neg (by rwa [List.isEmpty_iff]), hmodel]
  dsimp only [Option.bind_some]
  rw [hloaded, htext]
  cases hvalid : validateShardAgainstStageConfig loaded config with
  | error e =>
    change (validateShardAgainstStageConfig loaded config >>= _) = _
    rw [hvalid]
    rfl
  | ok checked =>
    set width := modelMetaInt (printed (ascii "llama.embedding_length"))
    change (validateShardAgainstStageConfig loaded config >>= fun _ =>
      require (decide ¬(0 < loaded.hiddenSize ∧ 0 < width ∧ loaded.hiddenSize ≠ width)) _ >>=
        fun _ => .ok (some loaded)) = _
    rw [hvalid, decide_eq_true hwidth]
    rfl

/-- The entry of a partition is what its stage reads, with the port of its own. -/
theorem agrees_merged {config : StageConfig} (options : CliOptions) (h : Agrees config p) :
    Agrees (mergeStageConfig config
      { configPath := options.configPath
        serviceName := []
        stageId := options.stageId
        port := options.port }) p :=
  ⟨h.serviceName, h.physicalNode, h.partitionFile, h.nativePartitionFile, h.backend,
    h.nextStageUrl, h.components⟩

/-- A launched stage ends where its check of the shard ends. -/
theorem startStage_launched {config : StageConfig}
    (hconfig : loadStageConfigFromFile configPath (some text) p.stageId = .ok config)
    (hagrees : Agrees config p) (h : Launched library files options configPath text p shard)
    (hloaded : ∀ path, loadShardMetadataFromGguf path (some shard) =
      .ok (ownShard (partitionEntry q) hiddenSize sourceModel))
    (hwidth : ∀ printed, library shard = some printed →
      ¬(0 < hiddenSize ∧ 0 < modelMetaInt (printed (ascii "llama.embedding_length")) ∧
        hiddenSize ≠ modelMetaInt (printed (ascii "llama.embedding_length")))) :
    ∃ merged runtimeConfig, (∀ r, Agrees config r → Agrees merged r) ∧
      Expects runtimeConfig p ∧ startStage library files options =
        (validateShardAgainstStageConfig (ownShard (partitionEntry q) hiddenSize sourceModel)
          runtimeConfig).map fun _ => (merged,
            .llamaPartial (some (ownShard (partitionEntry q) hiddenSize sourceModel))) := by
  obtain ⟨printed, hprinted⟩ := Option.isSome_iff_exists.mp h.loads
  have hmerged := agrees_merged options hagrees
  set merged := mergeStageConfig config
    { configPath := options.configPath
      serviceName := []
      stageId := options.stageId
      port := options.port } with hmergedEq
  set chosen := runtimeOptions options p.backend p.nativePartitionFile p.partitionFile
    with hchosen
  have hstub : (chosen.backend == ascii "stub") = false := by
    have hllama := h.backend
    rw [← hchosen] at hllama
    unfold isLlamaBackend at hllama
    rw [Bool.or_eq_true, beq_iff_eq, beq_iff_eq] at hllama
    rcases hllama with hllama | hllama <;> rw [hllama] <;> decide
  have hstageId : chosen.stageId = p.stageId := by
    rw [hchosen, runtimeOptions_stageId, h.stageId]
  refine ⟨merged,
    { modelPath := chosen.modelPath
      stageId := chosen.stageId
      expectedLayers := merged.components.layers
      expectedOwnsEmbedding := merged.components.embedding
      expectedOwnsNorm := merged.components.norm
      expectedOwnsLmHead := merged.components.lmHead
      expectedNextStageUrl := merged.nextStageUrl },
    fun r hr => agrees_merged options hr, ?_, ?_⟩
  · exact ⟨hstageId, by rw [hmerged.components], by rw [hmerged.components],
      by rw [hmerged.components], by rw [hmerged.components], hmerged.nextStageUrl⟩
  · have hread : loadStageConfigFromFile options.configPath (files.stageMap options.configPath)
        options.stageId = .ok config := by
      rw [h.mapPath, h.stageMap, h.stageId]
      exact hconfig
    unfold startStage
    rw [hread]
    change (makeRuntime library files (runtimeOptions options merged.backend
      merged.nativePartitionFile merged.partitionFile) merged >>= fun runtime =>
        .ok (merged, runtime)) = _
    rw [hmerged.backend, hmerged.nativePartitionFile, hmerged.partitionFile, ← hchosen]
    unfold makeRuntime
    rw [hstub, if_neg Bool.false_ne_true, if_pos h.backend,
      newLlamaPartialRuntime_regular h.path h.model (hloaded _) hprinted (hwidth _ hprinted)]
    generalize validateShardAgainstStageConfig _ _ = checked
    cases checked with
    | error e => rfl
    | ok result => rfl

/-- A process in front of the shard of `q` starts exactly if it has the stage id
of `q`. -/
structure StartsFor (library : LlamaLibrary) (configPath text : Bytes) (shard : GgufFile)
    (sourceModel : Bytes) (hiddenSize : ℤ) (p q : GatewayPartition) : Prop where
  own : p.stageId = q.stageId → ∀ files options,
    Launched library files options configPath text p shard → ∃ config, Agrees config p ∧
      Agrees config q ∧ startStage library files options =
        .ok (config, .llamaPartial (some (ownShard (partitionEntry q) hiddenSize sourceModel)))
  other : p.stageId ≠ q.stageId → ∀ files options,
    Launched library files options configPath text p shard →
      startStage library files options = .error (stageIdMismatch p.stageId q.stageId)

variable {gateway : GatewayConfig} {model : GgufFile} {manifestDir shardDir : Bytes}
  {manifestsBefore : Directory Bytes} {shardsBefore : Directory GgufFile}
  {manifests : List (Bytes × Bytes)} {shards : List (Bytes × GgufFile)}

theorem startsFor_of_written (htogether : StagesTogether text)
    (hload : loadGatewayConfigFromFile configPath (some text) = .ok gateway)
    (hlibrary : Prints library) (hq : q ∈ gateway.partitions) {manifest : PartitionManifest}
    (hmetadata : addDliMetadata model.metadata manifest sourceModel = .ok shard.metadata)
    (hid : (partitionEntry q).partitionId = manifest.partitionId)
    (hvalid : validateMetadata shard.metadata manifest (partitionEntry q) = .ok ()) :
    ∃ hiddenSize, ∀ p ∈ gateway.partitions,
      StartsFor library configPath text shard sourceModel hiddenSize p q := by
  obtain ⟨before, header, body, scalars, rest, hsection⟩ := htogether
  obtain ⟨hiddenSize, hwidth, hwritten, hkept⟩ := writtenFor_of_addDliMetadata hmetadata
  have hdescribes := describes_of_validateMetadata hwritten hid hvalid
  have hloaded := loadShardMetadataFromGguf_written hwritten hdescribes
  refine ⟨hiddenSize, fun p hp => ?_⟩
  obtain ⟨config, hconfig, hagrees⟩ := agrees_of_oneSection hsection hload hp
  constructor
  · intro hstage files options hlaunched
    obtain ⟨config', hconfig', hagrees'⟩ := agrees_of_oneSection hsection hload hq
    rw [← hstage, hconfig] at hconfig'
    cases hconfig'
    obtain ⟨merged, runtimeConfig, hmerged, hexpects, hstart⟩ :=
      startStage_launched hconfig hagrees hlaunched hloaded
        fun printed hprinted => width_fits hlibrary hwidth hkept hprinted
    have hcomponents : q.components = p.components :=
      hagrees'.components.symm.trans hagrees.components
    have hurl : q.nextStageUrl = p.nextStageUrl :=
      hagrees'.nextStageUrl.symm.trans hagrees.nextStageUrl
    rw [validate_own hexpects hstage hcomponents hurl] at hstart
    exact ⟨merged, hmerged p hagrees, hmerged q hagrees', hstart⟩
  · intro hstage files options hlaunched
    obtain ⟨merged, runtimeConfig, -, hexpects, hstart⟩ :=
      startStage_launched hconfig hagrees hlaunched hloaded
        fun printed hprinted => width_fits hlibrary hwidth hkept hprinted
    rw [validate_other hexpects hstage] at hstart
    exact hstart

/-- A stage starts on a shard that the tools wrote exactly if the shard was
written for its stage id, and then with the layers that the gateway knows of.
Complete shards have one for every stage. -/
theorem stages_start_on_own_shards (htogether : StagesTogether text)
    (hload : loadGatewayConfigFromFile configPath (some text) = .ok gateway)
    (htools : ToolsSucceed (gateway.partitions.map partitionEntry) model sourceModel manifestDir
      shardDir manifestsBefore shardsBefore manifests shards)
    (hlibrary : Prints library) :
    (∀ name shard, (produced shards).get? name = some shard → ∃ q ∈ gateway.partitions,
      name = shardFile q.partitionId ∧ ∃ hiddenSize, ∀ p ∈ gateway.partitions,
        StartsFor library configPath text shard sourceModel hiddenSize p q) ∧
    (CompleteAllocation (gateway.partitions.map partitionEntry) model.tensorNames →
      ∀ p ∈ gateway.partitions, ∃ shard,
        (produced shards).get? (shardFile p.partitionId) = some shard ∧ ∃ hiddenSize,
          StartsFor library configPath text shard sourceModel hiddenSize p p) := by
  have hwritten : ∀ name shard, (produced shards).get? name = some shard →
      ∃ q ∈ gateway.partitions, name = shardFile q.partitionId ∧ ∃ hiddenSize,
        ∀ p ∈ gateway.partitions,
          StartsFor library configPath text shard sourceModel hiddenSize p q := by
    intro name shard hshard
    obtain ⟨entry, hentry, hname, manifest, hmetadata, hid, hvalid⟩ :=
      written_of_toolsSucceed htools hshard
    obtain ⟨q, hq, rfl⟩ := List.mem_map.mp hentry
    exact ⟨q, hq, hname, startsFor_of_written htogether hload hlibrary hq hmetadata hid hvalid⟩
  refine ⟨hwritten, fun hcomplete p hp => ?_⟩
  have hentry : partitionEntry p ∈ gateway.partitions.map partitionEntry :=
    List.mem_map_of_mem hp
  obtain ⟨shard, hshard, -⟩ := htools.ownShard hcomplete hentry
  obtain ⟨q, hq, hname, hiddenSize, hstarts⟩ := hwritten _ shard hshard
  have hsame : p = q := partitionEntry_injective (List.inj_on_of_nodup_map hcomplete.distinct
    hentry (List.mem_map_of_mem hq) (shardFile_injective hname))
  subst hsame
  exact ⟨shard, hshard, hiddenSize, hstarts p hp⟩

end Starting

section Examples

/-- The stage map of a model in two halves. -/
def halvesMap : Bytes :=
  unlines ([ascii "num_layers: 2", ascii "inference_stages:"] ++
    [ascii "- stage_id: 1", ascii "  partition_id: partition-1", ascii "  service_name: stage-1",
      ascii "  next_stage_url: http://stage-2", ascii "  components:", ascii "    embedding: true",
      ascii "    layers:", ascii "    - 0"] ++
    [ascii "- stage_id: 2", ascii "  partition_id: partition-2", ascii "  service_name: stage-2",
      ascii "  components:", ascii "    layers:", ascii "    - 1", ascii "    norm: true",
      ascii "    lm_head: true"])

/-- A library that reads every file and prints numbers. -/
def printingLibrary : LlamaLibrary := fun file =>
  if file.metadata.entries.all fun entry => match entry.2 with
    | .int32 value => decide (-2 ^ 31 ≤ value ∧ value < 2 ^ 31)
    | _ => true
  then some fun key => match file.metadata.get? key with
    | some (.int32 value) => decimal value
    | some (.uint32 value) => decimal value
    | _ => []
  else none

theorem printingLibrary_some {file : GgufFile} {text : Bytes → Bytes}
    (h : printingLibrary file = some text) :
    (∀ key value, file.metadata.get? key = some (.int32 value) → IsInt value) ∧
      text = fun key => match file.metadata.get? key with
        | some (.int32 value) => decimal value
        | some (.uint32 value) => decimal value
        | _ => [] := by
  unfold printingLibrary at h
  split at h
  · next hall =>
    refine ⟨fun key value hget => ?_, (Option.some.inj h).symm⟩
    have hentry : decide (-2 ^ 31 ≤ value ∧ value < 2 ^ 31) = true :=
      List.all_eq_true.mp hall _ (OrderedDict.mem_of_get? hget)
    rw [decide_eq_true_eq] at hentry
    exact hentry
  · cases h

theorem prints_printingLibrary : Prints printingLibrary where
  absent htext hget := by
    rw [(printingLibrary_some htext).2]
    dsimp only
    rw [hget]
  int32 htext hget := by
    refine ⟨(printingLibrary_some htext).1 _ _ hget, ?_⟩
    rw [(printingLibrary_some htext).2]
    dsimp only
    rw [hget]
  uint32 htext hget := by
    rw [(printingLibrary_some htext).2]
    dsimp only
    rw [hget]

/-- The shard of a half. -/
def halfShard (partitionId : Bytes) : Option GgufFile :=
  (produced (smallShards [])).get? (shardFile partitionId)

/-- Both halves under their paths. -/
def halvesFiles : Files where
  stageMap path := if path = ascii "map.yaml" then some halvesMap else none
  modelFile path :=
    if path = ascii "first.gguf" then .regular (halfShard (ascii "partition-1"))
    else if path = ascii "second.gguf" then .regular (halfShard (ascii "partition-2"))
    else .absent

/-- The options of a stage with a shard. -/
def halfOptions (stageId : ℤ) (modelPath : Bytes) : CliOptions where
  configPath := ascii "map.yaml"
  backend := ascii "llama"
  modelPath := modelPath
  stageId := stageId

theorem stagesTogether_halvesMap : StagesTogether halvesMap := by
  refine ⟨[ascii "num_layers: 2"], ascii "inference_stages:",
    (getLines halvesMap).drop 2, [], [], ?_⟩
  exact ⟨by decide +kernel, by decide +kernel, by decide +kernel, by decide +kernel,
    by decide +kernel, by decide +kernel, by decide +kernel, by decide +kernel⟩

/-- The first stage in front of the second shard is a launched stage. -/
theorem launched_halves {p : GatewayPartition} (hp : p.stageId = 1) {shard : GgufFile}
    (hshard : halfShard (ascii "partition-2") = some shard) :
    Launched printingLibrary halvesFiles (halfOptions 1 (ascii "second.gguf"))
      (ascii "map.yaml") halvesMap p shard where
  stageMap := rfl
  mapPath := rfl
  stageId := hp.symm
  backend := rfl
  path := by
    change ascii "second.gguf" ≠ []
    decide
  model := by
    rw [← hshard]
    rfl
  loads := by
    have hloads : ((halfShard (ascii "partition-2")).bind printingLibrary).isSome = true := by
      decide +kernel
    rw [hshard] at hloads
    exact hloads

/-- The tools split the model in two halves; the first stage does not start on the
second shard. -/
theorem stages_start_on_own_shards_halves :
    ∃ gateway, loadGatewayConfigFromFile (ascii "map.yaml") (some halvesMap) = .ok gateway ∧
      (∀ p ∈ gateway.partitions, ∃ shard,
        (produced (smallShards [])).get? (shardFile p.partitionId) = some shard ∧ ∃ hiddenSize,
          StartsFor printingLibrary (ascii "map.yaml") halvesMap shard (ascii "model.gguf")
            hiddenSize p p) ∧
      startStage printingLibrary halvesFiles (halfOptions 1 (ascii "second.gguf")) =
        .error (stageIdMismatch 1 2) := by
  have hentries : ((loadGatewayConfigFromFile (ascii "map.yaml") (some halvesMap)).toOption.map
      fun config => config.partitions.map partitionEntry) = some [firstHalf, secondHalf] := by
    decide +kernel
  cases hload : loadGatewayConfigFromFile (ascii "map.yaml") (some halvesMap) with
  | error message =>
    rw [hload] at hentries
    cases hentries
  | ok gateway =>
    rw [hload] at hentries
    have hpartitions : gateway.partitions.map partitionEntry = [firstHalf, secondHalf] :=
      Option.some.inj hentries
    have htools : ToolsSucceed (gateway.partitions.map partitionEntry) (smallModel [])
        (ascii "model.gguf") (ascii "manifests") (ascii "shards") OrderedDict.empty
        OrderedDict.empty (smallManifests []) (smallShards []) := by
      rw [hpartitions]
      exact smallRun_complete
    obtain ⟨hwritten, hown⟩ := stages_start_on_own_shards stagesTogether_halvesMap hload htools
      prints_printingLibrary
    refine ⟨gateway, rfl, hown (by rw [hpartitions]; exact small_allocation), ?_⟩
    have hsome : (halfShard (ascii "partition-2")).isSome = true := by decide +kernel
    obtain ⟨shard, hshard⟩ := Option.isSome_iff_exists.mp hsome
    obtain ⟨q, hq, hname, hiddenSize, hstarts⟩ := hwritten _ shard hshard
    have hqEntry : partitionEntry q ∈ [firstHalf, secondHalf] :=
      hpartitions ▸ List.mem_map_of_mem hq
    have hfirst : firstHalf ∈ gateway.partitions.map partitionEntry := by
      rw [hpartitions]
      exact List.mem_cons_self
    obtain ⟨p, hp, hpEntry⟩ := List.mem_map.mp hfirst
    have hpStage : p.stageId = 1 := congrArg PartitionEntry.stageId hpEntry
    have hqStage : q.stageId = 2 := by
      rcases List.mem_pair.mp hqEntry with hentry | hentry
      · have hid : q.partitionId = ascii "partition-1" :=
          congrArg (fun entry : PartitionEntry => entry.partitionId) hentry
        have hother := (shardFile_injective hname).trans hid
        exact absurd hother (by decide)
      · exact congrArg PartitionEntry.stageId hentry
    have hrefused := (hstarts p hp).other (by rw [hpStage, hqStage]; decide) halvesFiles
      (halfOptions 1 (ascii "second.gguf")) (launched_halves hpStage hshard)
    rw [hpStage, hqStage] at hrefused
    exact hrefused

example : (startStage printingLibrary halvesFiles
    (halfOptions 1 (ascii "first.gguf"))).isOk = true := by
  decide +kernel

end Examples

end LayerInference.StageStartup
