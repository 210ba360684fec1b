import LayerInference.ShardTools

/-!
# Completeness of the shards

No tool compares the shards with the whole model. When the three tools succeed
one after the other, the shards split the tensors of the model exactly if the
stage map gives every partition a name of its own that the tools list, has at
most one owner of the norm, and gives every tensor an owner.
-/

namespace LayerInference.ShardTools

open ByteStrings FallibleRuns PartitionRouting PartitionGraph OrderedDicts ManifestTexts TensorPlans

variable {partitions : List PartitionEntry} {model : GgufFile}

section Differences

theorem eq_of_not_lt {a b : Bytes} (h : ¬a < b) (h' : ¬b < a) : a = b :=
  List.le_antisymm (List.not_lt.mp h') (List.not_lt.mp h)

/-- Nothing is missing when the difference is empty. -/
theorem subset_of_setDifference {as bs : List Bytes} (h : setDifference as bs = []) :
    ∀ name ∈ as, name ∈ bs := by
  induction as generalizing bs with
  | nil => exact fun name hname => absurd hname List.not_mem_nil
  | cons a as ih =>
    rw [setDifference] at h
    induction bs with
    | nil => cases h
    | cons b bs ihb =>
      rw [differenceStep] at h
      by_cases hlt : a < b
      · rw [if_pos hlt] at h
        cases h
      rw [if_neg hlt] at h
      by_cases hgt : b < a
      · rw [if_pos hgt] at h
        exact fun name hname => List.mem_cons_of_mem b (ihb h name hname)
      rw [if_neg hgt] at h
      intro name hname
      rcases List.mem_cons.mp hname with rfl | hname
      · exact eq_of_not_lt hlt hgt ▸ List.mem_cons_self
      · exact List.mem_cons_of_mem b (ih h name hname)

theorem mem_iff_of_tensorSetsEqual {actual expected : List Bytes} {label : Bytes} {result : Unit}
    (h : requireTensorSetsEqual actual expected label = .ok result) (name : Bytes) :
    name ∈ actual ↔ name ∈ expected := by
  unfold requireTensorSetsEqual require at h
  dsimp only at h
  split at h
  · next hboth =>
    rw [Bool.and_eq_true, List.isEmpty_iff, List.isEmpty_iff] at hboth
    have hmissing := subset_of_setDifference hboth.1 name
    have hextra := subset_of_setDifference hboth.2 name
    rw [mem_sortNames, mem_sortNames] at hmissing hextra
    exact ⟨hextra, hmissing⟩
  · cases h

end Differences

section Directories

variable {α : Type}

theorem write_append (directory : Directory α) (files more : List (Bytes × α)) :
    directory.write (files ++ more) = (directory.write files).write more :=
  List.foldl_append

theorem write_get?_other (directory : Directory α) {files : List (Bytes × α)} {name : Bytes}
    (h : name ∉ files.map Prod.fst) : (directory.write files).get? name = directory.get? name := by
  induction files generalizing directory with
  | nil => rfl
  | cons file files ih =>
    rw [List.map_cons, List.mem_cons, not_or] at h
    change (Directory.write (directory.putLast file.1 file.2) files).get? name = _
    rw [ih _ h.2, OrderedDict.get?_putLast_other _ _ h.1]

/-- The last file of a name stays. -/
theorem write_get?_last (directory : Directory α) (before after : List (Bytes × α)) {name : Bytes}
    (value : α) (h : name ∉ after.map Prod.fst) :
    (directory.write (before ++ (name, value) :: after)).get? name = some value := by
  rw [write_append]
  change (Directory.write ((directory.write before).putLast name value) after).get? name = some value
  rw [write_get?_other _ h, OrderedDict.get?_putLast_self]

/-- A name that was written holds one of the files written under it, whatever
was there before. -/
theorem write_get?_mem {files : List (Bytes × α)} {name : Bytes} (h : name ∈ files.map Prod.fst) :
    ∃ value, (name, value) ∈ files ∧
      ∀ directory : Directory α, (directory.write files).get? name = some value := by
  induction files using List.reverseRecOn with
  | nil => exact absurd h List.not_mem_nil
  | append_singleton files file ih =>
    obtain ⟨key, value⟩ := file
    by_cases hname : name = key
    · subst hname
      exact ⟨value, List.mem_append_right _ List.mem_cons_self, fun directory =>
        write_get?_last directory files [] value List.not_mem_nil⟩
    · rw [List.map_append, List.mem_append, List.map_singleton, List.mem_singleton] at h
      obtain ⟨found, hmem, hget⟩ := ih (h.resolve_right hname)
      refine ⟨found, List.mem_append_left _ hmem, fun directory => ?_⟩
      rw [write_append]
      change ((directory.write files).putLast key value).get? name = some found
      rw [OrderedDict.get?_putLast_other _ _ hname, hget]

end Directories

section Programs

/-- The tensors that the first program assigns to a partition. -/
def assignedNames (model : GgufFile) (partition : PartitionEntry) : List Bytes :=
  (assignTensorsToPartition model.tensorNames (partitionPlan partition)).tensorNames

theorem mem_assignedNames {partition : PartitionEntry} {name : Bytes} :
    name ∈ assignedNames model partition ↔
      name ∈ model.tensorNames ∧ ∃ part, Owns partition.components part ∧ part.Holds name := by
  unfold assignedNames assignTensorsToPartition partitionPlan
  dsimp only
  rw [mem_sortNames, List.mem_filter, tensorMatchesPlan_iff]

/-- The text of the manifest of a partition. -/
def manifestText (model : GgufFile) (partition : PartitionEntry) : Bytes :=
  partitionManifestJson partition
    (assignTensorsToPartition model.tensorNames (partitionPlan partition)) ++ ascii "\n"

/-- What the first program writes when it does not refuse. -/
theorem generateManifests_ok {files : List (Bytes × Bytes)}
    (h : generateManifests false partitions model = .ok files) :
    files = partitions.map (fun partition =>
      (manifestFile partition.partitionId, manifestText model partition)) ∧
    ∀ partition ∈ partitions, hasMissingTensors
      (assignTensorsToPartition model.tensorNames (partitionPlan partition)) = false := by
  unfold generateManifests at h
  dsimp only at h
  rw [Bool.not_false, Bool.and_true] at h
  split at h
  · cases h
  · next hmissing =>
    rw [List.any_eq_true] at hmissing
    cases h
    refine ⟨rfl, fun partition hmem => ?_⟩
    rw [← Bool.not_eq_true]
    exact fun hhas => hmissing ⟨partition, hmem, hhas⟩

theorem missing_eq_nil {assignment : PartitionTensorAssignment}
    (h : hasMissingTensors assignment = false) :
    assignment.missingRequiredNames = [] ∧ assignment.missingRequiredPrefixes = [] := by
  unfold hasMissingTensors at h
  rw [Bool.or_eq_false_iff, Bool.not_eq_false', Bool.not_eq_false', List.isEmpty_iff,
    List.isEmpty_iff] at h
  exact h

theorem mem_of_listed {dir : Bytes} {manifests : Directory Bytes} {files : List (Bytes × Bytes)}
    (h : listPartitionManifestFiles dir manifests = .ok files) (file : Bytes × Bytes) :
    file ∈ files ↔ manifests.get? file.1 = some file.2 ∧ isPartitionManifest file.1 = true := by
  unfold listPartitionManifestFiles at h
  dsimp only at h
  split at h
  · cases h
  · cases h
    rw [(List.perm_insertionSort _ _).mem_iff, List.mem_filter]
    exact and_congr_left' ⟨OrderedDict.get?_of_mem, OrderedDict.mem_of_get?⟩

/-- Adding tensors gives all of them. -/
theorem addTensor_foldlM {modelNames names start result : List Bytes}
    (h : names.foldlM (addTensor modelNames) start = .ok result) : result = start ++ names := by
  induction names generalizing start with
  | nil =>
    cases h
    exact (List.append_nil _).symm
  | cons name names ih =>
    rw [List.foldlM_cons] at h
    obtain ⟨next, hnext, hrest⟩ := ok_of_bind h
    unfold addTensor at hnext
    split at hnext
    · cases hnext
    · split at hnext
      · cases hnext
      · cases hnext
        rw [ih hrest, List.append_assoc]
        rfl

/-- What the second program writes for a manifest. -/
structure ShardOf (manifest : PartitionManifest) (shard : Bytes × GgufFile) : Prop where
  name : shard.1 = shardFile manifest.partitionId
  partitionId : shard.2.metadata.get? (ascii "dli.partition_id") =
    some (.string manifest.partitionId)
  tensorNames : shard.2.tensorNames = manifest.tensorNames

theorem addDliMetadata_partitionId {source metadata : Metadata} {manifest : PartitionManifest}
    {sourceModel : Bytes} (h : addDliMetadata source manifest sourceModel = .ok metadata) :
    metadata.get? (ascii "dli.partition_id") = some (.string manifest.partitionId) := by
  unfold addDliMetadata at h
  split at h
  · cases h
  · next hiddenSize _ =>
    rw [← Except.ok.inj h]
    have hlater : ascii "dli.partition_id" ∉
        [ascii "dli.stage_id", ascii "dli.layers", ascii "dli.owns_embedding",
          ascii "dli.owns_norm", ascii "dli.owns_lm_head", ascii "dli.next_partition_id",
          ascii "dli.next_stage_url", ascii "dli.hidden_size", ascii "dli.source_model"] := by
      decide
    exact write_get?_last source
      [(ascii "dli.format", .string (ascii "dli.gguf.stage_shard")),
        (ascii "dli.format_version", .int32 1)] _ _ hlater

theorem writeShardFile_ok {sourceModel : Bytes} {file : Bytes × Bytes} {shard : Bytes × GgufFile}
    (h : writeShardFile model sourceModel file = .ok shard) :
    ∃ manifest, parsePartitionManifestText file.2 = .ok manifest ∧ ShardOf manifest shard := by
  unfold writeShardFile at h
  cases hparse : parsePartitionManifestText file.2 with
  | error e =>
    rw [hparse] at h
    cases h
  | ok manifest =>
    rw [hparse] at h
    unfold writeOneShard at h
    rw [hparse] at h
    dsimp only at h
    cases hmetadata : addDliMetadata model.metadata manifest sourceModel with
    | error e =>
      rw [hmetadata] at h
      cases h
    | ok metadata =>
      rw [hmetadata] at h
      dsimp only at h
      cases hnames : manifest.tensorNames.foldlM (addTensor model.tensorNames) [] with
      | error e =>
        rw [hnames] at h
        cases h
      | ok names =>
        rw [hnames] at h
        cases h
        exact ⟨manifest, rfl, rfl, addDliMetadata_partitionId hmetadata,
          (addTensor_foldlM hnames).trans (List.nil_append _)⟩

theorem ok_of_require {condition : Bool} {message : Bytes} {result : Unit}
    (h : require condition message = .ok result) : condition = true := by
  unfold require at h
  split at h
  · assumption
  · cases h

/-- What the third program has compared for a manifest. -/
theorem validateOneShard_ok {dir : Bytes} {shards : Directory GgufFile} {file : Bytes × Bytes}
    {manifest : PartitionManifest} (hparse : parsePartitionManifestText file.2 = .ok manifest)
    (h : validateOneShard partitions dir shards file = .ok ()) :
    (∃ partition ∈ partitions, partition.partitionId = manifest.partitionId) ∧
      ∃ shard, shards.get? (shardFile manifest.partitionId) = some shard ∧
        ∀ name, name ∈ shard.tensorNames ↔ name ∈ manifest.tensorNames := by
  unfold validateOneShard at h
  obtain ⟨found, hfound, h⟩ := ok_of_bind h
  rw [hparse] at hfound
  cases hfound
  obtain ⟨partition, hpartition, h⟩ := ok_of_bind h
  have hmember : partition ∈ partitions ∧ partition.partitionId = manifest.partitionId := by
    unfold findPartitionConfig at hpartition
    split at hpartition
    · next other hfind =>
      cases hpartition
      have hbeq : (partition.partitionId == manifest.partitionId) = true :=
        List.find?_some (p := fun other : PartitionEntry => other.partitionId == manifest.partitionId)
          hfind
      exact ⟨List.mem_of_find?_eq_some hfind, beq_iff_eq.mp hbeq⟩
    · cases hpartition
  refine ⟨⟨partition, hmember⟩, ?_⟩
  cases hget : shards.get? (shardFile manifest.partitionId) with
  | none =>
    rw [hget] at h
    cases h
  | some shard =>
    rw [hget] at h
    dsimp only at h
    obtain ⟨_, -, h⟩ := ok_of_bind h
    obtain ⟨_, hequal, h⟩ := ok_of_bind h
    exact ⟨shard, rfl, mem_iff_of_tensorSetsEqual hequal⟩

end Programs

/-- The three programs succeed one after the other, whatever the directories
held before. -/
structure ToolsSucceed (partitions : List PartitionEntry) (model : GgufFile)
    (sourceModel manifestDir shardDir : Bytes) (manifestsBefore : Directory Bytes)
    (shardsBefore : Directory GgufFile) (manifests : List (Bytes × Bytes))
    (shards : List (Bytes × GgufFile)) : Prop where
  generated : generateManifests false partitions model = .ok manifests
  written : writeShards model sourceModel manifestDir (manifestsBefore.write manifests) =
    .ok shards
  validated : validateShards partitions manifestDir shardDir (manifestsBefore.write manifests)
    (shardsBefore.write shards) = .ok ()

/-- The files that the second program has written. -/
def produced (shards : List (Bytes × GgufFile)) : Directory GgufFile :=
  Directory.write OrderedDict.empty shards

/-- The shards split the tensors of the model, one shard for each partition.
The identity of a shard is the one in its metadata. -/
structure ShardsComplete (partitions : List PartitionEntry) (modelNames : List Bytes)
    (shards : Directory GgufFile) : Prop where
  onePerPartition :
    (shards.entries.map fun shard => shard.2.metadata.get? (ascii "dli.partition_id")).Perm
      (partitions.map fun partition => some (.string partition.partitionId))
  disjoint : shards.entries.Pairwise fun a b => a.2.tensorNames.Disjoint b.2.tensorNames
  union : ∀ name, (∃ shard ∈ shards.entries, name ∈ shard.2.tensorNames) ↔ name ∈ modelNames

/-- An identifier that makes a file name which the tools list. -/
structure FileName (partitionId : Bytes) : Prop where
  start : ascii "partition-" <+: partitionId
  noSlash : 47 ∉ partitionId
  noNul : 0 ∉ partitionId

/-- What the stage map has to give for complete shards. -/
structure CompleteAllocation (partitions : List PartitionEntry) (modelNames : List Bytes) :
    Prop where
  distinct : (partitions.map fun partition => partition.partitionId).Nodup
  fileNames : ∀ partition ∈ partitions, FileName partition.partitionId
  normOwner : partitions.countP (fun partition => partition.components.norm) ≤ 1
  owned : ∀ name ∈ modelNames, ∃ partition ∈ partitions, ∃ part,
    Owns partition.components part ∧ part.Holds name

theorem isPartitionManifest_of_fileName {partitionId : Bytes} (h : FileName partitionId) :
    isPartitionManifest (manifestFile partitionId) = true := by
  have hslash : (manifestFile partitionId).contains 47 = false := by
    rw [← Bool.not_eq_true, List.contains_iff_mem]
    unfold manifestFile
    rw [List.mem_append, not_or]
    exact ⟨h.noSlash, by decide⟩
  have hstart : (ascii "partition-").isPrefixOf (manifestFile partitionId) = true :=
    List.isPrefixOf_iff_prefix.mpr (h.start.trans (List.prefix_append _ _))
  have hend : (ascii ".manifest.json").isSuffixOf (manifestFile partitionId) = true :=
    List.isSuffixOf_iff_suffix.mpr (List.suffix_append _ _)
  unfold isPartitionManifest
  rw [hslash, hstart, hend]
  rfl

/-- A prefix that cannot reach into the second part lies in the first. -/
theorem prefix_of_prefix_append {start first second : Bytes} {b : UInt8} (hb : b ∉ start)
    (h : start <+: first ++ b :: second) : start <+: first := by
  induction first generalizing start with
  | nil =>
    cases start with
    | nil => exact List.nil_prefix
    | cons c start =>
      obtain ⟨rest, hrest⟩ := h
      exact absurd ((List.cons.inj hrest).1 ▸ List.mem_cons_self) hb
  | cons a first ih =>
    cases start with
    | nil => exact List.nil_prefix
    | cons c start =>
      obtain ⟨rest, hrest⟩ := h
      obtain ⟨hhead, htail⟩ := List.cons.inj hrest
      rw [hhead, List.prefix_cons_inj]
      exact ih (fun hmem => hb (List.mem_cons_of_mem c hmem)) ⟨rest, htail⟩

theorem fileName_of_listed {partitionId : Bytes} (hzero : 0 ∉ partitionId)
    (h : isPartitionManifest (manifestFile partitionId) = true) : FileName partitionId := by
  unfold isPartitionManifest at h
  rw [Bool.and_eq_true, Bool.and_eq_true, Bool.not_eq_true', ← Bool.not_eq_true,
    List.contains_iff_mem, List.isPrefixOf_iff_prefix] at h
  obtain ⟨⟨hslash, hstart⟩, -⟩ := h
  refine ⟨?_, fun hmem => hslash (List.mem_append_left _ hmem), hzero⟩
  exact prefix_of_prefix_append (by decide) hstart

theorem shardFile_injective {a b : Bytes} (h : shardFile a = shardFile b) : a = b :=
  List.append_cancel_right h

theorem manifestFile_injective {a b : Bytes} (h : manifestFile a = manifestFile b) : a = b :=
  List.append_cancel_right h

section Runs

variable {sourceModel manifestDir shardDir : Bytes} {manifestsBefore : Directory Bytes}
  {shardsBefore : Directory GgufFile} {manifests : List (Bytes × Bytes)}
  {shards : List (Bytes × GgufFile)}

/-- A manifest that the second and the third program have read. -/
def Listed (manifestsBefore : Directory Bytes) (manifests : List (Bytes × Bytes))
    (file : Bytes × Bytes) : Prop :=
  (manifestsBefore.write manifests).get? file.1 = some file.2 ∧ isPartitionManifest file.1 = true

/-- Each shard comes from a manifest that was read. -/
theorem ToolsSucceed.origin (h : ToolsSucceed partitions model sourceModel manifestDir shardDir
    manifestsBefore shardsBefore manifests shards) {name : Bytes} {shard : GgufFile}
    (hshard : (produced shards).get? name = some shard) :
    ∃ file manifest, Listed manifestsBefore manifests file ∧
      parsePartitionManifestText file.2 = .ok manifest ∧ ShardOf manifest (name, shard) := by
  have hwritten := h.written
  unfold writeShards at hwritten
  split at hwritten
  · cases hwritten
  · next files hfiles =>
    have hmem : (name, shard) ∈ shards := by
      by_cases hname : name ∈ shards.map Prod.fst
      · obtain ⟨value, hvalue, hget⟩ := write_get?_mem hname
        have hsame := (hget OrderedDict.empty).symm.trans hshard
        rwa [← Option.some.inj hsame]
      · have hnone : (produced shards).get? name = none := write_get?_other _ hname
        rw [hnone] at hshard
        cases hshard
    obtain ⟨file, hfile, hwrite⟩ := (mem_of_mapM hwritten).2 _ hmem
    obtain ⟨manifest, hparse, hof⟩ := writeShardFile_ok hwrite
    exact ⟨file, manifest, (mem_of_listed hfiles file).mp hfile, hparse, hof⟩

/-- Each manifest that was read has a shard with its tensors, and belongs to a
partition of the stage map. -/
theorem ToolsSucceed.shard (h : ToolsSucceed partitions model sourceModel manifestDir shardDir
    manifestsBefore shardsBefore manifests shards) {file : Bytes × Bytes}
    (hfile : Listed manifestsBefore manifests file) :
    ∃ manifest, parsePartitionManifestText file.2 = .ok manifest ∧
      (∃ partition ∈ partitions, partition.partitionId = manifest.partitionId) ∧
      ∃ shard, (produced shards).get? (shardFile manifest.partitionId) = some shard ∧
        ∀ name, name ∈ shard.tensorNames ↔ name ∈ manifest.tensorNames := by
  have hwritten := h.written
  unfold writeShards at hwritten
  split at hwritten
  · cases hwritten
  · next files hfiles =>
    have hmem : file ∈ files := (mem_of_listed hfiles file).mpr hfile
    obtain ⟨written, hshards, hwrite⟩ := (mem_of_mapM hwritten).1 file hmem
    obtain ⟨manifest, hparse, hof⟩ := writeShardFile_ok hwrite
    have hname : shardFile manifest.partitionId ∈ shards.map Prod.fst :=
      hof.name ▸ List.mem_map_of_mem hshards
    obtain ⟨shard, -, hget⟩ := write_get?_mem hname
    obtain ⟨listed, hlisted, hchecks⟩ := ok_of_bind h.validated
    rw [hfiles] at hlisted
    cases hlisted
    obtain ⟨hpartition, compared, hcompared, hsame⟩ :=
      validateOneShard_ok hparse (ok_of_forM hchecks file hmem)
    rw [hget] at hcompared
    cases hcompared
    exact ⟨manifest, hparse, hpartition, shard, hget _, hsame⟩

/-- What is read back from the manifest of a partition. -/
theorem ToolsSucceed.read (h : ToolsSucceed partitions model sourceModel manifestDir shardDir
    manifestsBefore shardsBefore manifests shards) {partition : PartitionEntry}
    (hmem : partition ∈ partitions) {manifest : PartitionManifest}
    (hparse : parsePartitionManifestText (manifestText model partition) = .ok manifest) :
    manifest.partitionId = partition.partitionId ∧ 0 ∉ partition.partitionId ∧
      manifest.tensorNames = assignedNames model partition := by
  obtain ⟨hnames, hprefixes⟩ := missing_eq_nil ((generateManifests_ok h.generated).2 _ hmem)
  exact manifest_read hnames hprefixes hparse

/-- No tensor is assigned to two partitions. -/
theorem assigned_disjoint {numLayers : ℤ}
    (hvalid : (validatePartitionGraph (partitions.map PartitionEntry.toPartitionNodeConfig)
      numLayers).valid = true)
    (hnorm : partitions.countP (fun partition => partition.components.norm) ≤ 1) :
    partitions.Pairwise fun p q => (assignedNames model p).Disjoint (assignedNames model q) := by
  have hmap : (partitions.map PartitionEntry.toPartitionNodeConfig).countP
      (fun p => p.components.norm) ≤ 1 := by
    rw [List.countP_map]
    exact hnorm
  have hparts := (unshared_of_valid hvalid).pairwise hmap
  rw [List.pairwise_map] at hparts
  refine hparts.imp ?_
  intro p q hnot name hp hq
  obtain ⟨-, part, howns, hholds⟩ := mem_assignedNames.mp hp
  obtain ⟨-, part', howns', hholds'⟩ := mem_assignedNames.mp hq
  have hsame := part_unique hholds hholds'
  subst hsame
  exact hnot part ⟨howns, howns'⟩

/-- With distinct identifiers the manifest of a partition is the one that is read. -/
theorem ToolsSucceed.ownShard (h : ToolsSucceed partitions model sourceModel manifestDir shardDir
    manifestsBefore shardsBefore manifests shards)
    (hc : CompleteAllocation partitions model.tensorNames) {partition : PartitionEntry}
    (hmem : partition ∈ partitions) :
    ∃ shard, (produced shards).get? (shardFile partition.partitionId) = some shard ∧
      ∀ name, name ∈ shard.tensorNames ↔ name ∈ assignedNames model partition := by
  have hlisted : Listed manifestsBefore manifests
      (manifestFile partition.partitionId, manifestText model partition) := by
    refine ⟨?_, isPartitionManifest_of_fileName (hc.fileNames partition hmem)⟩
    have hmanifests := (generateManifests_ok h.generated).1
    have hname : manifestFile partition.partitionId ∈ manifests.map Prod.fst := by
      rw [hmanifests, List.map_map]
      exact List.mem_map.mpr ⟨partition, hmem, rfl⟩
    obtain ⟨text, htext, hget⟩ := write_get?_mem hname
    rw [hmanifests] at htext
    obtain ⟨other, hother, heq⟩ := List.mem_map.mp htext
    obtain ⟨hfile, htextEq⟩ := Prod.mk.inj heq
    have hsame : other = partition :=
      List.inj_on_of_nodup_map hc.distinct hother hmem (manifestFile_injective hfile)
    rw [hget, ← htextEq, hsame]
  obtain ⟨manifest, hparse, -, shard, hget, hsame⟩ := h.shard hlisted
  obtain ⟨hid, -, hnames⟩ := h.read hmem hparse
  rw [hid] at hget
  rw [hnames] at hsame
  exact ⟨shard, hget, hsame⟩

/-- Every shard that was written is the shard of a partition. -/
theorem ToolsSucceed.entry (h : ToolsSucceed partitions model sourceModel manifestDir shardDir
    manifestsBefore shardsBefore manifests shards)
    (hc : CompleteAllocation partitions model.tensorNames) {entry : Bytes × GgufFile}
    (hentry : entry ∈ (produced shards).entries) :
    ∃ partition ∈ partitions, entry.1 = shardFile partition.partitionId ∧
      entry.2.metadata.get? (ascii "dli.partition_id") = some (.string partition.partitionId) ∧
      ∀ name, name ∈ entry.2.tensorNames ↔ name ∈ assignedNames model partition := by
  obtain ⟨name, shard⟩ := entry
  have hget := OrderedDict.get?_of_mem hentry
  obtain ⟨file, manifest, hfile, hparse, hof⟩ := h.origin hget
  obtain ⟨manifest', hparse', ⟨partition, hmem, hid⟩, -⟩ := h.shard hfile
  rw [hparse] at hparse'
  cases hparse'
  obtain ⟨own, hown, hnames⟩ := h.ownShard hc hmem
  have hname : name = shardFile partition.partitionId := by
    rw [hid]
    exact hof.name
  rw [hname, hown] at hget
  cases hget
  refine ⟨partition, hmem, hname, ?_, hnames⟩
  rw [hid]
  exact hof.partitionId

theorem ToolsSucceed.complete {numLayers : ℤ}
    (h : ToolsSucceed partitions model sourceModel manifestDir shardDir manifestsBefore
      shardsBefore manifests shards)
    (hvalid : (validatePartitionGraph (partitions.map PartitionEntry.toPartitionNodeConfig)
      numLayers).valid = true)
    (hc : CompleteAllocation partitions model.tensorNames) :
    ShardsComplete partitions model.tensorNames (produced shards) := by
  have hdistinct := (produced shards).distinct
  have hentries : (produced shards).entries.Nodup := List.Nodup.of_map _ hdistinct
  have hown : ∀ partition ∈ partitions, ∃ shard,
      (shardFile partition.partitionId, shard) ∈ (produced shards).entries ∧
        ∀ name, name ∈ shard.tensorNames ↔ name ∈ assignedNames model partition := by
    intro partition hmem
    obtain ⟨shard, hget, hnames⟩ := h.ownShard hc hmem
    exact ⟨shard, OrderedDict.mem_of_get? hget, hnames⟩
  constructor
  · refine (List.perm_ext_iff_of_nodup ?_ ?_).mpr fun value => ?_
    · refine List.Nodup.map_on (fun a ha b hb heq => ?_) hentries
      obtain ⟨p, -, hnameA, hidA, -⟩ := h.entry hc ha
      obtain ⟨q, -, hnameB, hidB, -⟩ := h.entry hc hb
      rw [hidA, hidB] at heq
      have hid : p.partitionId = q.partitionId := MetadataValue.string.inj (Option.some.inj heq)
      refine List.inj_on_of_nodup_map hdistinct ha hb ?_
      rw [hnameA, hnameB, hid]
    · refine List.Nodup.map_on (fun p hp q hq heq => ?_) (List.Nodup.of_map _ hc.distinct)
      exact List.inj_on_of_nodup_map hc.distinct hp hq
        (MetadataValue.string.inj (Option.some.inj heq))
    · rw [List.mem_map, List.mem_map]
      constructor
      · rintro ⟨entry, hentry, rfl⟩
        obtain ⟨partition, hmem, -, hid, -⟩ := h.entry hc hentry
        exact ⟨partition, hmem, hid.symm⟩
      · rintro ⟨partition, hmem, rfl⟩
        obtain ⟨shard, hshard, -⟩ := hown partition hmem
        obtain ⟨other, -, hname, hid, -⟩ := h.entry hc hshard
        exact ⟨_, hshard, by rw [hid, shardFile_injective hname]⟩
  · refine hentries.pairwise_of_forall_ne fun a ha b hb hne name hnameA hnameB => ?_
    obtain ⟨p, hp, hfileA, -, hnamesA⟩ := h.entry hc ha
    obtain ⟨q, hq, hfileB, -, hnamesB⟩ := h.entry hc hb
    have hpq : p ≠ q := by
      rintro rfl
      exact hne (List.inj_on_of_nodup_map hdistinct ha hb (hfileA.trans hfileB.symm))
    have hsymm : Std.Symm fun x y : PartitionEntry =>
        (assignedNames model x).Disjoint (assignedNames model y) :=
      ⟨fun _ _ hxy => List.disjoint_symm hxy⟩
    have hassigned : partitions.Pairwise fun x y =>
        (assignedNames model x).Disjoint (assignedNames model y) :=
      assigned_disjoint hvalid hc.normOwner
    have hdisjoint := hassigned.forall hp hq hpq
    exact hdisjoint ((hnamesA name).mp hnameA) ((hnamesB name).mp hnameB)
  · intro name
    constructor
    · rintro ⟨entry, hentry, hname⟩
      obtain ⟨partition, -, -, -, hnames⟩ := h.entry hc hentry
      exact (mem_assignedNames.mp ((hnames name).mp hname)).1
    · intro hname
      obtain ⟨partition, hmem, howned⟩ := hc.owned name hname
      obtain ⟨shard, hshard, hnames⟩ := hown partition hmem
      exact ⟨_, hshard, (hnames name).mpr (mem_assignedNames.mpr ⟨hname, howned⟩)⟩

/-- In a directory without earlier manifests only those of the partitions are read. -/
theorem ToolsSucceed.ownManifest (h : ToolsSucceed partitions model sourceModel manifestDir shardDir
    manifestsBefore shardsBefore manifests shards)
    (hfresh : ∀ file ∈ manifestsBefore.entries, isPartitionManifest file.1 = false)
    {file : Bytes × Bytes} (hfile : Listed manifestsBefore manifests file) :
    ∃ partition ∈ partitions,
      file = (manifestFile partition.partitionId, manifestText model partition) := by
  obtain ⟨name, text⟩ := file
  obtain ⟨hget, hlisted⟩ := hfile
  have hmanifests := (generateManifests_ok h.generated).1
  by_cases hname : name ∈ manifests.map Prod.fst
  · obtain ⟨value, hvalue, hgetValue⟩ := write_get?_mem hname
    dsimp only at hget
    rw [hgetValue] at hget
    cases hget
    rw [hmanifests] at hvalue
    obtain ⟨partition, hmem, heq⟩ := List.mem_map.mp hvalue
    exact ⟨partition, hmem, heq.symm⟩
  · dsimp only at hget hlisted
    rw [write_get?_other _ hname] at hget
    have hnot := hfresh _ (OrderedDict.mem_of_get? hget)
    rw [hlisted] at hnot
    cases hnot

/-- Without earlier manifests every shard has the tensors of its partition. -/
theorem ToolsSucceed.freshEntry (h : ToolsSucceed partitions model sourceModel manifestDir shardDir
    manifestsBefore shardsBefore manifests shards)
    (hfresh : ∀ file ∈ manifestsBefore.entries, isPartitionManifest file.1 = false)
    {entry : Bytes × GgufFile} (hentry : entry ∈ (produced shards).entries) :
    ∃ partition ∈ partitions, entry.1 = shardFile partition.partitionId ∧
      entry.2.metadata.get? (ascii "dli.partition_id") = some (.string partition.partitionId) ∧
      entry.2.tensorNames = assignedNames model partition ∧ FileName partition.partitionId := by
  obtain ⟨name, shard⟩ := entry
  obtain ⟨file, manifest, hfile, hparse, hof⟩ := h.origin (OrderedDict.get?_of_mem hentry)
  obtain ⟨partition, hmem, rfl⟩ := h.ownManifest hfresh hfile
  obtain ⟨hid, hzero, hnames⟩ := h.read hmem hparse
  refine ⟨partition, hmem, ?_, ?_, hof.tensorNames.trans hnames, fileName_of_listed hzero hfile.2⟩
  · rw [← hid]
    exact hof.name
  · rw [← hid]
    exact hof.partitionId

/-- The tensor of the norm is there when a partition owns the norm. -/
theorem ToolsSucceed.normAssigned (h : ToolsSucceed partitions model sourceModel manifestDir
    shardDir manifestsBefore shardsBefore manifests shards) {partition : PartitionEntry}
    (hmem : partition ∈ partitions) (hnorm : partition.components.norm = true) :
    ascii "output_norm.weight" ∈ assignedNames model partition := by
  obtain ⟨hnames, -⟩ := missing_eq_nil ((generateManifests_ok h.generated).2 _ hmem)
  refine mem_assignedNames.mpr ⟨?_, .norm, hnorm, rfl⟩
  unfold assignTensorsToPartition at hnames
  rw [sortNames_eq_nil, List.filter_eq_nil_iff] at hnames
  have hrequired : ascii "output_norm.weight" ∈ (partitionPlan partition).requiredTensorNames := by
    unfold partitionPlan buildLlamaTensorNamePlan
    dsimp only
    rw [hnorm]
    exact List.mem_append_left _ (List.mem_append_right _ (List.mem_singleton_self _))
  have hcontains := hnames _ hrequired
  rw [Bool.not_eq_true', Bool.not_eq_false, List.contains_iff_mem] at hcontains
  exact hcontains

theorem ToolsSucceed.allocation (h : ToolsSucceed partitions model sourceModel manifestDir shardDir
    manifestsBefore shardsBefore manifests shards)
    (hfresh : ∀ file ∈ manifestsBefore.entries, isPartitionManifest file.1 = false)
    (hs : ShardsComplete partitions model.tensorNames (produced shards)) :
    CompleteAllocation partitions model.tensorNames := by
  have hkeys := (produced shards).distinct
  have hentries : (produced shards).entries.Nodup := List.Nodup.of_map _ hkeys
  have hids : ((produced shards).entries.map fun shard =>
      shard.2.metadata.get? (ascii "dli.partition_id")).Nodup := by
    refine List.Nodup.map_on (fun a ha b hb heq => ?_) hentries
    obtain ⟨p, -, hnameA, hidA, -⟩ := h.freshEntry hfresh ha
    obtain ⟨q, -, hnameB, hidB, -⟩ := h.freshEntry hfresh hb
    rw [hidA, hidB] at heq
    have hid : p.partitionId = q.partitionId := MetadataValue.string.inj (Option.some.inj heq)
    refine List.inj_on_of_nodup_map hkeys ha hb ?_
    rw [hnameA, hnameB, hid]
  have hdistinct : (partitions.map fun partition => partition.partitionId).Nodup := by
    have hmapped := hs.onePerPartition.nodup_iff.mp hids
    have hcomposed : partitions.map (fun partition =>
        some (MetadataValue.string partition.partitionId)) =
          (partitions.map fun partition => partition.partitionId).map
            fun partitionId => some (.string partitionId) := by
      rw [List.map_map]
      rfl
    rw [hcomposed] at hmapped
    exact List.Nodup.of_map _ hmapped
  have hshard : ∀ partition ∈ partitions, FileName partition.partitionId ∧
      ∃ entry ∈ (produced shards).entries, entry.1 = shardFile partition.partitionId ∧
        entry.2.tensorNames = assignedNames model partition := by
    intro partition hmem
    have hvalue := hs.onePerPartition.mem_iff.mpr (List.mem_map.mpr ⟨partition, hmem, rfl⟩)
    obtain ⟨entry, hentry, hid⟩ := List.mem_map.mp hvalue
    obtain ⟨owner, howner, hname, hownerId, hnames, hfile⟩ := h.freshEntry hfresh hentry
    rw [hownerId] at hid
    have hsame : owner = partition := List.inj_on_of_nodup_map hdistinct howner hmem
      (MetadataValue.string.inj (Option.some.inj hid))
    subst hsame
    exact ⟨hfile, entry, hentry, hname, hnames⟩
  refine ⟨hdistinct, fun partition hmem => (hshard partition hmem).1, ?_, fun name hname => ?_⟩
  · by_contra hmany
    rw [List.countP_eq_length_filter, not_le] at hmany
    have howners : (partitions.filter fun partition => partition.components.norm).Nodup :=
      (List.Nodup.of_map _ hdistinct).filter _
    obtain ⟨p, q, rest, hfilter⟩ : ∃ p q rest,
        (partitions.filter fun partition => partition.components.norm) = p :: q :: rest := by
      cases hlist : partitions.filter fun partition => partition.components.norm with
      | nil =>
        rw [hlist, List.length_nil] at hmany
        omega
      | cons p tail =>
        cases tail with
        | nil =>
          rw [hlist, List.length_singleton] at hmany
          omega
        | cons q rest => exact ⟨p, q, rest, rfl⟩
    rw [hfilter] at howners
    have hne : p ≠ q := fun heq => (List.nodup_cons.mp howners).1 (heq ▸ List.mem_cons_self)
    obtain ⟨hp, hpNorm⟩ := List.mem_filter.mp (hfilter ▸ List.mem_cons_self : p ∈ _)
    obtain ⟨hq, hqNorm⟩ := List.mem_filter.mp
      (hfilter ▸ List.mem_cons_of_mem _ List.mem_cons_self : q ∈ _)
    obtain ⟨-, a, ha, hnameA, hnamesA⟩ := hshard p hp
    obtain ⟨-, b, hb, hnameB, hnamesB⟩ := hshard q hq
    have hab : a ≠ b := by
      rintro rfl
      exact hne (List.inj_on_of_nodup_map hdistinct hp hq
        (shardFile_injective (hnameA.symm.trans hnameB)))
    have hsymm : Std.Symm fun x y : Bytes × GgufFile =>
        x.2.tensorNames.Disjoint y.2.tensorNames := ⟨fun _ _ hxy => List.disjoint_symm hxy⟩
    have hdisjoint := hs.disjoint.forall ha hb hab
    rw [hnamesA, hnamesB] at hdisjoint
    exact hdisjoint (h.normAssigned hp hpNorm) (h.normAssigned hq hqNorm)
  · obtain ⟨entry, hentry, hin⟩ := (hs.union name).mpr hname
    obtain ⟨partition, hmem, -, -, hnames, -⟩ := h.freshEntry hfresh hentry
    rw [hnames] at hin
    exact ⟨partition, hmem, (mem_assignedNames.mp hin).2⟩

/-- When the three tools succeed, the shards are complete if the allocation
is, and in a directory without earlier manifests only then. -/
theorem shards_complete_iff_allocation {numLayers : ℤ}
    (hvalid : (validatePartitionGraph (partitions.map PartitionEntry.toPartitionNodeConfig)
      numLayers).valid = true)
    (h : ToolsSucceed partitions model sourceModel manifestDir shardDir manifestsBefore
      shardsBefore manifests shards) :
    (CompleteAllocation partitions model.tensorNames →
      ShardsComplete partitions model.tensorNames (produced shards)) ∧
    ((∀ file ∈ manifestsBefore.entries, isPartitionManifest file.1 = false) →
      (ShardsComplete partitions model.tensorNames (produced shards) ↔
        CompleteAllocation partitions model.tensorNames)) :=
  ⟨h.complete hvalid, fun hfresh => ⟨h.allocation hfresh, h.complete hvalid⟩⟩

end Runs

section Small

/-- The first half of a model of two layers. -/
def firstHalf : PartitionEntry where
  partitionId := ascii "partition-1"
  serviceName := ascii "stage-1"
  nextStageUrl := ascii "http://stage-2"
  components := { layers := [0], embedding := true }
  stageId := 1

/-- The second half of this model. -/
def secondHalf : PartitionEntry where
  partitionId := ascii "partition-2"
  serviceName := ascii "stage-2"
  components := { layers := [1], norm := true, lmHead := true }
  stageId := 2

/-- A model with the tensors of the two halves and some more. -/
def smallModel (more : List Bytes) : GgufFile where
  metadata := Directory.write OrderedDict.empty
    [(ascii "general.architecture", .string (ascii "llama")),
      (ascii "tokenizer.ggml.model", .string (ascii "gpt2"))]
  tensorNames :=
    [ascii "token_embd.weight", ascii "blk.0.attn_q.weight", ascii "blk.1.attn_q.weight",
      ascii "output_norm.weight", ascii "output.weight"] ++ more

def writtenFiles {α : Type} (result : Except Bytes (List α)) : List α :=
  match result with
  | .ok files => files
  | .error _ => []

theorem eq_ok_of_isOk {α : Type} {result : Except Bytes (List α)} (h : result.isOk = true) :
    result = .ok (writtenFiles result) := by
  cases result with
  | error e => cases h
  | ok files => rfl

def smallManifests (more : List Bytes) : List (Bytes × Bytes) :=
  writtenFiles (generateManifests false [firstHalf, secondHalf] (smallModel more))

def smallShards (more : List Bytes) : List (Bytes × GgufFile) :=
  writtenFiles (writeShards (smallModel more) (ascii "model.gguf") (ascii "manifests")
    (Directory.write OrderedDict.empty (smallManifests more)))

def SmallRun (more : List Bytes) : Prop :=
  ToolsSucceed [firstHalf, secondHalf] (smallModel more) (ascii "model.gguf") (ascii "manifests")
    (ascii "shards") OrderedDict.empty OrderedDict.empty (smallManifests more) (smallShards more)

theorem small_valid : (validatePartitionGraph
    ([firstHalf, secondHalf].map PartitionEntry.toPartitionNodeConfig) 2).valid = true := by
  decide +kernel

theorem unit_ok_of_isOk {result : Except Bytes Unit} (h : result.isOk = true) :
    result = .ok () := by
  cases result with
  | error e => cases h
  | ok _ => rfl

theorem smallRun_complete : SmallRun [] where
  generated := eq_ok_of_isOk (by decide +kernel)
  written := eq_ok_of_isOk (by decide +kernel)
  validated := unit_ok_of_isOk (by decide +kernel)

theorem smallRun_unowned : SmallRun [ascii "rope_freqs.weight"] where
  generated := eq_ok_of_isOk (by decide +kernel)
  written := eq_ok_of_isOk (by decide +kernel)
  validated := unit_ok_of_isOk (by decide +kernel)

theorem small_allocation :
    CompleteAllocation [firstHalf, secondHalf] (smallModel []).tensorNames where
  distinct := by decide +kernel
  fileNames := by
    have hnames : ∀ partition ∈ [firstHalf, secondHalf],
        ascii "partition-" <+: partition.partitionId ∧ 47 ∉ partition.partitionId ∧
          0 ∉ partition.partitionId := by
      decide +kernel
    intro partition hmem
    obtain ⟨hstart, hslash, hzero⟩ := hnames partition hmem
    exact ⟨hstart, hslash, hzero⟩
  normOwner := by decide +kernel
  owned := by
    have hmatches : ∀ name ∈ (smallModel []).tensorNames,
        ∃ partition ∈ [firstHalf, secondHalf],
          tensorMatchesPlan (partitionPlan partition) name = true := by
      decide +kernel
    intro name hname
    obtain ⟨partition, hmem, hmatch⟩ := hmatches name hname
    exact ⟨partition, hmem, (tensorMatchesPlan_iff _ _ name).mp hmatch⟩

/-- The two halves share all five tensors. -/
theorem shards_complete_two_halves :
    ShardsComplete [firstHalf, secondHalf] (smallModel []).tensorNames (produced (smallShards [])) :=
  (shards_complete_iff_allocation small_valid smallRun_complete).1 small_allocation

/-- A tensor that no part of the model claims is in no shard, and no tool
notices. -/
theorem unowned_tensor_lost :
    (validatePartitionGraph ([firstHalf, secondHalf].map PartitionEntry.toPartitionNodeConfig)
      2).valid = true ∧
    SmallRun [ascii "rope_freqs.weight"] ∧
    ¬ShardsComplete [firstHalf, secondHalf] (smallModel [ascii "rope_freqs.weight"]).tensorNames
      (produced (smallShards [ascii "rope_freqs.weight"])) := by
  refine ⟨small_valid, smallRun_unowned, fun h => ?_⟩
  have hmember : ascii "rope_freqs.weight" ∈
      (smallModel [ascii "rope_freqs.weight"]).tensorNames := by
    decide +kernel
  obtain ⟨shard, hshard, hname⟩ := (h.union _).mpr hmember
  have hnone : ∀ shard ∈ (produced (smallShards [ascii "rope_freqs.weight"])).entries,
      ascii "rope_freqs.weight" ∉ shard.2.tensorNames := by
    decide +kernel
  exact hnone shard hshard hname

end Small

end LayerInference.ShardTools
