import LayerInference.ManifestTexts
import LayerInference.OrderedDicts

/-!
# The shard tools

Three programs turn a model file into one shard for each partition: the first
writes a manifest for each partition, the second writes a shard for each
manifest that it finds, the third compares shards, manifests and stage map. A
directory is a dictionary of file names. A name with a slash lies in another
directory and is not listed. Tensor lists and summaries, which no program
reads, are left out.
-/

namespace LayerInference.ShardTools

open ByteStrings PartitionRouting OrderedDicts ManifestTexts TensorPlans

/-- A value of the metadata, as far as its type matters here. -/
inductive MetadataValue where
  | string (value : Bytes)
  | int32 (value : ℤ)
  | uint32 (value : ℕ)
  | bool (value : Bool)
  | int32Array (values : List ℤ)
  | other
  deriving DecidableEq

abbrev Metadata := OrderedDict Bytes MetadataValue

/-- A model file or a shard, without the contents of its tensors. -/
structure GgufFile where
  metadata : Metadata
  tensorNames : List Bytes

abbrev Directory (α : Type) := OrderedDict Bytes α

/-- Write files one after the other. -/
def Directory.write {α : Type} (directory : Directory α) (files : List (Bytes × α)) : Directory α :=
  files.foldl (fun d file => d.putLast file.1 file.2) directory

def require (condition : Bool) (message : Bytes) : Except Bytes Unit :=
  if condition then .ok () else .error message

section Manifests

def manifestFile (partitionId : Bytes) : Bytes := partitionId ++ ascii ".manifest.json"

def shardFile (partitionId : Bytes) : Bytes := partitionId ++ ascii ".dli.gguf"

def partitionPlan (partition : PartitionEntry) : TensorNamePlan :=
  buildLlamaTensorNamePlan partition.partitionId partition.components

/-- The files that the first program writes. -/
def generateManifests (allowMissing : Bool) (partitions : List PartitionEntry)
    (model : GgufFile) : Except Bytes (List (Bytes × Bytes)) :=
  let assignment (partition : PartitionEntry) :=
    assignTensorsToPartition model.tensorNames (partitionPlan partition)
  if (partitions.any fun partition => hasMissingTensors (assignment partition)) && !allowMissing then
    .error (ascii "dli-partition-manifest refused to write because some tensors are missing.\n")
  else
    .ok (partitions.map fun partition =>
      (manifestFile partition.partitionId,
        partitionManifestJson partition (assignment partition) ++ ascii "\n"))

def isPartitionManifest (filename : Bytes) : Bool :=
  !filename.contains 47 && (ascii "partition-").isPrefixOf filename &&
    (ascii ".manifest.json").isSuffixOf filename

def listPartitionManifestFiles (dir : Bytes) (manifests : Directory Bytes) :
    Except Bytes (List (Bytes × Bytes)) :=
  let files := (manifests.entries.filter fun file => isPartitionManifest file.1).insertionSort
    fun a b => a.1 ≤ b.1
  if files.isEmpty then .error (ascii "no partition-*.manifest.json files found in: " ++ dir)
  else .ok files

end Manifests

section Writer

def readI32MetadataOrDefault (metadata : Metadata) (defaultValue : ℤ) :
    List Bytes → Except Bytes ℤ
  | [] => .ok defaultValue
  | key :: candidateKeys =>
    match metadata.get? key with
    | none => readI32MetadataOrDefault metadata defaultValue candidateKeys
    | some (.int32 value) => .ok value
    | some (.uint32 value) =>
      if 2 ^ 31 ≤ value then .error (ascii "GGUF metadata value is too large for int: " ++ key)
      else .ok value
    | some _ =>
      .error (ascii "GGUF metadata key has unsupported integer type for this writer: " ++ key)

/-- The metadata of a shard: those of the model and the keys of this format. -/
def addDliMetadata (source : Metadata) (manifest : PartitionManifest) (sourceModel : Bytes) :
    Except Bytes Metadata :=
  match readI32MetadataOrDefault source (-1)
    [ascii "llama.embedding_length", ascii "gptneox.embedding_length",
      ascii "mistral.embedding_length"] with
  | .error e => .error e
  | .ok hiddenSize => .ok (Directory.write source
    [(ascii "dli.format", .string (ascii "dli.gguf.stage_shard")),
      (ascii "dli.format_version", .int32 1),
      (ascii "dli.partition_id", .string manifest.partitionId),
      (ascii "dli.stage_id", .int32 manifest.stageId),
      (ascii "dli.layers", .int32Array manifest.layers),
      (ascii "dli.owns_embedding", .bool manifest.ownsEmbedding),
      (ascii "dli.owns_norm", .bool manifest.ownsNorm),
      (ascii "dli.owns_lm_head", .bool manifest.ownsLmHead),
      (ascii "dli.next_partition_id", .string []),
      (ascii "dli.next_stage_url", .string manifest.nextStageUrl),
      (ascii "dli.hidden_size", .int32 hiddenSize),
      (ascii "dli.source_model", .string sourceModel)])

/-- Add a tensor of the model. The library does not take a name twice. -/
def addTensor (modelNames names : List Bytes) (name : Bytes) : Except Bytes (List Bytes) :=
  if modelNames.contains name = false then
    .error (ascii "manifest tensor not found in source GGUF data context: " ++ name)
  else if names.contains name then .error (ascii "duplicate tensor name: " ++ name)
  else .ok (names ++ [name])

def writeOneShard (model : GgufFile) (sourceModel manifestText : Bytes) : Except Bytes GgufFile :=
  match parsePartitionManifestText manifestText with
  | .error e => .error e
  | .ok manifest =>
    match addDliMetadata model.metadata manifest sourceModel with
    | .error e => .error e
    | .ok metadata =>
      match manifest.tensorNames.foldlM (addTensor model.tensorNames) [] with
      | .error e => .error e
      | .ok names => .ok ⟨metadata, names⟩

/-- The shard file for a manifest. -/
def writeShardFile (model : GgufFile) (sourceModel : Bytes) (file : Bytes × Bytes) :
    Except Bytes (Bytes × GgufFile) :=
  match parsePartitionManifestText file.2 with
  | .error e => .error e
  | .ok manifest =>
    match writeOneShard model sourceModel file.2 with
    | .error e => .error e
    | .ok shard => .ok (shardFile manifest.partitionId, shard)

/-- The files that the second program writes, in their order. -/
def writeShards (model : GgufFile) (sourceModel dir : Bytes) (manifests : Directory Bytes) :
    Except Bytes (List (Bytes × GgufFile)) :=
  match listPartitionManifestFiles dir manifests with
  | .error e => .error e
  | .ok files => files.mapM (writeShardFile model sourceModel)

end Writer

section Validation

def findPartitionConfig (partitions : List PartitionEntry) (partitionId : Bytes) :
    Except Bytes PartitionEntry :=
  match partitions.find? fun partition => partition.partitionId == partitionId with
  | some partition => .ok partition
  | none => .error (ascii "partition not found in stage_map.yaml: " ++ partitionId)

/-- One name of `std::set_difference`: skip what is smaller in the second range. -/
def differenceStep (a : Bytes) (next : List Bytes → List Bytes) : List Bytes → List Bytes
  | [] => a :: next []
  | b :: bs =>
    if a < b then a :: next (b :: bs)
    else if b < a then differenceStep a next bs
    else next bs

/-- `std::set_difference` on sorted ranges. -/
def setDifference : List Bytes → List Bytes → List Bytes
  | [], _ => []
  | a :: as, bs => differenceStep a (setDifference as) bs

def joinStrings (values : List Bytes) : Bytes := (ascii ", ").intercalate values

def requireTensorSetsEqual (actual expected : List Bytes) (label : Bytes) : Except Bytes Unit :=
  let a := sortNames actual
  let e := sortNames expected
  let missing := setDifference e a
  let extra := setDifference a e
  require (missing.isEmpty && extra.isEmpty)
    (label ++ ascii " tensor set mismatch; missing=[" ++ joinStrings missing ++
      ascii "], extra=[" ++ joinStrings extra ++ ascii "]")

def requireKey (metadata : Metadata) (key : Bytes) : Except Bytes MetadataValue :=
  match metadata.get? key with
  | some value => .ok value
  | none => .error (ascii "missing required GGUF metadata key: " ++ key)

/-- A key that has to have a given value. The library ends the program when the
type is another one; an empty array is taken to have data. -/
def requireValue (metadata : Metadata) (key : Bytes) (expected : MetadataValue)
    (message : Bytes) : Except Bytes Unit :=
  match requireKey metadata key with
  | .error e => .error e
  | .ok value => require (decide (value = expected)) message

def hasTokenizerMetadata (metadata : Metadata) : Bool :=
  metadata.entries.any fun entry => (ascii "tokenizer.ggml.").isPrefixOf entry.1

def validateMetadata (metadata : Metadata) (manifest : PartitionManifest)
    (partition : PartitionEntry) : Except Bytes Unit := do
  requireValue metadata (ascii "dli.format") (.string (ascii "dli.gguf.stage_shard"))
    (ascii "invalid dli.format")
  requireValue metadata (ascii "dli.format_version") (.int32 1)
    (ascii "unsupported dli.format_version")
  requireValue metadata (ascii "dli.partition_id") (.string manifest.partitionId)
    (ascii "dli.partition_id does not match manifest")
  requireValue metadata (ascii "dli.stage_id") (.int32 manifest.stageId)
    (ascii "dli.stage_id does not match manifest")
  require (decide (manifest.stageId = partition.stageId))
    (ascii "manifest stage_id does not match stage_map partition")
  requireValue metadata (ascii "dli.owns_embedding") (.bool partition.components.embedding)
    (ascii "dli.owns_embedding does not match stage_map")
  requireValue metadata (ascii "dli.owns_norm") (.bool partition.components.norm)
    (ascii "dli.owns_norm does not match stage_map")
  requireValue metadata (ascii "dli.owns_lm_head") (.bool partition.components.lmHead)
    (ascii "dli.owns_lm_head does not match stage_map")
  requireValue metadata (ascii "dli.layers") (.int32Array partition.components.layers)
    (ascii "dli.layers does not match stage_map")
  requireValue metadata (ascii "dli.next_stage_url") (.string partition.nextStageUrl)
    (ascii "dli.next_stage_url does not match stage_map")
  let _ ← requireKey metadata (ascii "dli.next_partition_id")
  let _ ← requireKey metadata (ascii "dli.hidden_size")
  let _ ← requireKey metadata (ascii "dli.source_model")
  let _ ← requireKey metadata (ascii "general.architecture")
  require (hasTokenizerMetadata metadata)
    (ascii "shard does not preserve tokenizer.ggml.* metadata")

/-- The checks of the third program for one manifest. -/
def validateOneShard (partitions : List PartitionEntry) (dir : Bytes)
    (shards : Directory GgufFile) (file : Bytes × Bytes) : Except Bytes Unit := do
  let manifest ← parsePartitionManifestText file.2
  let partition ← findPartitionConfig partitions manifest.partitionId
  match shards.get? (shardFile manifest.partitionId) with
  | none =>
    .error (ascii "failed to open GGUF shard: " ++ dir ++ ascii "/" ++
      shardFile manifest.partitionId)
  | some shard =>
    validateMetadata shard.metadata manifest partition
    requireTensorSetsEqual shard.tensorNames manifest.tensorNames
      (manifest.partitionId ++ ascii " manifest")
    let assignment := assignTensorsToPartition shard.tensorNames
      (buildLlamaTensorNamePlan manifest.partitionId partition.components)
    require assignment.missingRequiredNames.isEmpty
      (manifest.partitionId ++ ascii " missing required tensor names: " ++
        joinStrings assignment.missingRequiredNames)
    require assignment.missingRequiredPrefixes.isEmpty
      (manifest.partitionId ++ ascii " missing required tensor prefixes: " ++
        joinStrings assignment.missingRequiredPrefixes)
    requireTensorSetsEqual shard.tensorNames assignment.tensorNames
      (manifest.partitionId ++ ascii " stage_map")

/-- The third program. -/
def validateShards (partitions : List PartitionEntry) (manifestDir shardDir : Bytes)
    (manifests : Directory Bytes) (shards : Directory GgufFile) : Except Bytes Unit := do
  let files ← listPartitionManifestFiles manifestDir manifests
  files.forM (validateOneShard partitions shardDir shards)

end Validation

end LayerInference.ShardTools
