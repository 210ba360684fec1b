import LayerInference.StageMapAgreement
import LayerInference.StageMapText

/-!
# Reading what the generators write

A stage map that the controller or the operations UI has generated is accepted by
the gateway, which gets one partition for every stage, with the values that the
generator chose. The stages stand together in the text, so that every stage reads
the values of its own partition.
-/

namespace LayerInference.StageMapRoundTrip

open ByteStrings hiding trimCopy
open TextStreams ConfigLines FallibleRuns PartitionRouting PartitionGraph StageCounts
  StageMapFiles StageMapAgreement StageMapText

section Lines

/-- A text that is written as a key. -/
def isKey (key : Bytes) : Bool :=
  match key with
  | [] => false
  | b :: _ => decide (32 < b) && b != 35 && !key.contains 58

/-- A line with a key and its value. -/
def keyLine (indent : ℕ) (key value : Bytes) : Bytes :=
  List.replicate indent 32 ++ (key ++ ascii ": " ++ value)

theorem isKey_parts {key : Bytes} (h : isKey key = true) :
    ∃ b rest, key = b :: rest ∧ 32 < b ∧ b ≠ 35 ∧ 58 ∉ key := by
  cases key with
  | nil => cases h
  | cons b rest =>
    rw [isKey, Bool.and_eq_true_iff, Bool.and_eq_true_iff, decide_eq_true_eq, bne_iff_ne,
      Bool.not_eq_true'] at h
    refine ⟨b, rest, rfl, h.1.1, h.1.2, fun hmem => ?_⟩
    rw [List.contains_iff_mem.mpr hmem] at h
    cases h.2

theorem trimCopy_keyLine (indent : ℕ) {key value : Bytes} (hkey : isKey key = true)
    (hvalue : Plain value) : trimCopy (keyLine indent key value) = keyed key value := by
  obtain ⟨b, rest, rfl, hvisible, -, -⟩ := isKey_parts hkey
  exact trimCopy_keyed indent (by rintro b ⟨⟩; exact hvisible) (List.cons_ne_nil _ _) hvalue

theorem indentWidth_keyLine (indent : ℕ) {key : Bytes} (hkey : isKey key = true) (value : Bytes) :
    indentWidth (keyLine indent key value) = indent := by
  obtain ⟨b, rest, rfl, hvisible, -, -⟩ := isKey_parts hkey
  refine indentWidth_replicate indent ?_
  rintro b ⟨⟩ rfl
  exact absurd hvisible (by decide)

theorem skippedLine_keyLine (indent : ℕ) {key value : Bytes} (hkey : isKey key = true)
    (hvalue : Plain value) : skippedLine (keyLine indent key value) = false := by
  rw [skippedLine, trimCopy_keyLine indent hkey hvalue]
  obtain ⟨b, rest, rfl, -, hcomment, -⟩ := isKey_parts hkey
  change (35 == b && _) = false
  rw [beq_false_of_ne hcomment.symm]
  rfl

/-- A value that holds a byte which `null` does not hold is read back as it is. -/
theorem readBack_of_mem {value : Bytes} {b : UInt8} (hmem : b ∈ value)
    (hnot : b ∉ ascii "null") : readBack value = value := by
  refine if_neg ?_
  rintro rfl
  exact hnot hmem

theorem readBack_decimalNat (n : ℕ) : readBack (decimalNat n) = decimalNat n := by
  refine if_neg fun heq => ?_
  have hmem : (110 : UInt8) ∈ decimalNat n := by
    rw [heq]
    exact List.mem_cons_self
  exact absurd (decimalNat_digits n 110 hmem) (by decide)

/-- A line of the gateway whose key sets a value. -/
theorem gatewayLine_keyLine (load : GatewayLoad) (indent : ℕ) {key value : Bytes}
    (hkey : isKey key = true) (hvalue : Plain value) :
    gatewayLine load (keyLine indent key value) = gatewayKeyLine load indent (keyed key value) := by
  rw [gatewayLine_read (skippedLine_keyLine indent hkey hvalue), indentWidth_keyLine indent hkey,
    trimCopy_keyLine indent hkey hvalue]

theorem gatewayLine_value {load : GatewayLoad} {indent : ℕ} {key value : Bytes}
    (next : Bytes → GatewayLoad) (hkey : isKey key = true) (hvalue : Plain value)
    (hnext : gatewayKeyLine load indent (keyed key value) =
      .ok (next (valueAfterColon (keyed key value)))) :
    gatewayLine load (keyLine indent key value) = .ok (next (readBack value)) := by
  obtain ⟨b, rest, -, -, -, hcolon⟩ := isKey_parts hkey
  rw [gatewayLine_keyLine load indent hkey hvalue, hnext, valueAfterColon_keyed hcolon hvalue]

theorem foldlM_cons_ok {α β ε : Type} {f : β → α → Except ε β} {b b' : β} {x : α} {xs : List α}
    (h : f b x = .ok b') : (x :: xs).foldlM f b = xs.foldlM f b' := by
  rw [List.foldlM_cons, h]
  rfl

end Lines

section Values

/-- Values whose texts hold no blanks and no quotes. -/
structure Written (v : StageMapValues) : Prop where
  modelName : Plain v.modelName
  slug : Plain v.slug
  fullGgufFile : Plain v.fullGgufFile
  modelRoot : Plain v.modelRoot
  gatewayServiceName : Plain v.gatewayServiceName
  stageServicePrefix : Plain v.stageServicePrefix
  physicalNodes : ∀ node ∈ v.physicalNodes, Plain node
  layers : 0 ≤ v.numLayers ∧ v.numLayers < 2 ^ 31
  stages : (v.numStages : ℤ) ≤ v.numLayers
  ranges : Balanced v.numLayers.toNat v.numStages v.ranges
  some_stage : 1 ≤ v.numStages

variable {v : StageMapValues}

theorem Written.node (h : Written v) (index : ℕ) : Plain (v.physicalNodes.getD index []) := by
  rw [List.getD_eq_getElem?_getD]
  cases hnode : v.physicalNodes[index]? with
  | none => exact plain_nil
  | some node => exact h.physicalNodes node (List.mem_of_getElem? hnode)

theorem Written.stageServiceName (h : Written v) (stageId : ℕ) :
    Plain (stageServiceName v.stageServicePrefix stageId) :=
  plain_append (plain_append h.stageServicePrefix (plain_of_all (by decide)))
    (plain_decimalNat stageId)

theorem Written.stageUrl (h : Written v) (stageId : ℕ) :
    Plain (stageUrl v.stageServicePrefix stageId) :=
  plain_append (plain_append (plain_of_all (by decide)) (h.stageServiceName stageId))
    (plain_of_all (by decide))

theorem Written.modelDir (h : Written v) : Plain (modelDir v) :=
  plain_append (plain_append h.modelRoot (plain_of_all (by decide))) h.slug

theorem readBack_stageUrl (stageServicePrefix : Bytes) (stageId : ℕ) :
    readBack (stageUrl stageServicePrefix stageId) = stageUrl stageServicePrefix stageId := rfl

/-- The configuration behind the head of the text. -/
def headConfig (v : StageMapValues) (configPath : Bytes) : GatewayConfig :=
  { configPath := configPath
    serviceName := readBack v.gatewayServiceName
    modelName := readBack v.modelName
    modelPath := readBack (v.modelRoot ++ ascii "/" ++ v.slug ++ ascii "/" ++ v.fullGgufFile)
    firstStageUrl := stageUrl v.stageServicePrefix 1
    numLayers := v.numLayers }

/-- The gateway before the stages. -/
def headLoad (v : StageMapValues) (configPath : Bytes) : GatewayLoad :=
  { config := headConfig v configPath, insideInferenceStages := true, gatewayIndent := 0 }

theorem decimal_numLayers (h : Written v) : decimal v.numLayers = decimalNat v.numLayers.toNat := by
  rw [decimal, if_neg (not_lt.mpr h.layers.1)]
  congr 1
  have hnonneg := h.layers.1
  omega

theorem gateway_head (h : Written v) (configPath : Bytes) :
    (headLines v).foldlM gatewayLine { config := { configPath := configPath } } =
      .ok (headLoad v configPath) := by
  have hpath : Plain (v.modelRoot ++ ascii "/" ++ v.slug ++ ascii "/" ++ v.fullGgufFile) :=
    plain_append (plain_append h.modelDir (plain_of_all (by decide))) h.fullGgufFile
  have hlayers : stoiOrThrow (valueAfterColon (keyed (ascii "num_layers") (decimal v.numLayers))) =
      .ok v.numLayers := by
    rw [decimal_numLayers h, valueAfterColon_keyed (by decide) (plain_decimalNat _),
      readBack_decimalNat, stoiOrThrow_decimalNat (by have := h.layers; omega),
      Int.toNat_of_nonneg h.layers.1]
  have hlines : headLines v =
      [keyLine 0 (ascii "model_name") v.modelName,
        keyLine 0 (ascii "model_slug") v.slug,
        keyLine 0 (ascii "model_path")
          (v.modelRoot ++ ascii "/" ++ v.slug ++ ascii "/" ++ v.fullGgufFile),
        keyLine 0 (ascii "num_layers") (decimal v.numLayers),
        [],
        ascii "inference_gateway:",
        keyLine 2 (ascii "service_name") v.gatewayServiceName,
        keyLine 2 (ascii "port") (ascii "8000"),
        keyLine 2 (ascii "first_stage_url") (stageUrl v.stageServicePrefix 1),
        [],
        ascii "inference_stages:"] := rfl
  have hnumber (load : GatewayLoad) :
      gatewayLine load (keyLine 0 (ascii "num_layers") (decimal v.numLayers)) =
        .ok { load with config := { load.config with numLayers := v.numLayers } } := by
    rw [gatewayLine_keyLine load 0 (by decide) (by rw [decimal_numLayers h]
                                                   exact plain_decimalNat _)]
    change (stoiOrThrow _).bind _ = _
    rw [hlayers]
    rfl
  rw [hlines]
  refine (foldlM_cons_ok (gatewayLine_value (fun value =>
    { config := { configPath := configPath, modelName := value } })
    (by decide) h.modelName rfl)).trans ?_
  refine (foldlM_cons_ok (gatewayLine_value (fun _ =>
    { config := { configPath := configPath, modelName := readBack v.modelName } })
    (by decide) h.slug rfl)).trans ?_
  refine (foldlM_cons_ok (gatewayLine_value (fun value =>
    { config :=
        { configPath := configPath, modelName := readBack v.modelName, modelPath := value } })
    (by decide) hpath rfl)).trans ?_
  refine (foldlM_cons_ok (hnumber _)).trans ?_
  refine (foldlM_cons_ok (gatewayLine_skipped rfl)).trans ?_
  have hgateway (config : GatewayConfig) :
      gatewayLine { config := config } (ascii "inference_gateway:") =
        .ok { config := config, insideGateway := true, gatewayIndent := 0 } := rfl
  refine (foldlM_cons_ok (hgateway _)).trans ?_
  refine (foldlM_cons_ok (gatewayLine_value (fun value =>
    { config :=
        { configPath := configPath, modelName := readBack v.modelName
          modelPath := readBack (v.modelRoot ++ ascii "/" ++ v.slug ++ ascii "/" ++ v.fullGgufFile)
          numLayers := v.numLayers, serviceName := value }
      insideGateway := true, gatewayIndent := 0 })
    (by decide) h.gatewayServiceName rfl)).trans ?_
  have hport (config : GatewayConfig) (hdefault : config.port = 8000) :
      gatewayLine { config := config, insideGateway := true, gatewayIndent := 0 }
        (keyLine 2 (ascii "port") (ascii "8000")) =
          .ok { config := config, insideGateway := true, gatewayIndent := 0 } := by
    obtain ⟨_, _, _, _, _, port, _, _, _⟩ := config
    cases hdefault
    rfl
  refine (foldlM_cons_ok (hport _ rfl)).trans ?_
  refine (foldlM_cons_ok (gatewayLine_value (fun value =>
    { config := { headConfig v configPath with firstStageUrl := value }
      insideGateway := true, gatewayIndent := 0 })
    (by decide) (h.stageUrl 1) rfl)).trans ?_
  refine (foldlM_cons_ok (gatewayLine_skipped rfl)).trans ?_
  rfl

end Values

section Entries

variable {v : StageMapValues} {config : GatewayConfig} {p : GatewayPartition}

/-- The partition of a stage as the gateway reads it. -/
def gatewayEntry (v : StageMapValues) (index : ℕ) : GatewayPartition :=
  { stageEntry v.stageServicePrefix v.numStages index (v.ranges.getD index []) with
    stageId := (index + 1 : ℕ)
    physicalNode := readBack (v.physicalNodes.getD index [])
    partitionFile := modelDir v ++ ascii "/stage_" ++ decimalNat (index + 1) ++ ascii ".pt"
    nativePartitionFile := modelDir v ++ ascii "/partition-" ++ decimalNat (index + 1) ++
      ascii ".dli.gguf"
    backend := ascii "llama" }

/-- The gateway between two entries. -/
def ready (config : GatewayConfig) : GatewayLoad :=
  { config := config, insideInferenceStages := true, gatewayIndent := 0 }

/-- The gateway in an entry. -/
def inEntry (config : GatewayConfig) (p : GatewayPartition) : GatewayLoad :=
  { config := config
    insideInferenceStages := true
    insideCurrentPartition := true
    gatewayIndent := 0
    currentPartition := p }

/-- The gateway in the components of an entry. -/
def inComponents (config : GatewayConfig) (p : GatewayPartition) (insideLayers : Bool) :
    GatewayLoad :=
  { inEntry config p with insideComponents := true, insideLayers := insideLayers }

/-- A layer of a list is read. -/
theorem componentLine_layer (components : PartitionComponents) {n : ℕ} (hn : n < 2 ^ 31) :
    componentLine components true (ascii "- " ++ decimalNat n) =
      .ok ({ components with layers := components.layers ++ [(n : ℤ)] }, true) := by
  have hitem : trimCopy ((ascii "- " ++ decimalNat n).drop 1) = decimalNat n := by
    change trimCopy (List.replicate 1 32 ++ decimalNat n) = decimalNat n
    rw [trimCopy_replicate, trimCopy_plain (plain_decimalNat n)]
  have hempty : (decimalNat n).isEmpty = false := by
    simpa using decimalNat_ne_nil n
  have hread : componentLine components true (ascii "- " ++ decimalNat n) =
      if (trimCopy ((ascii "- " ++ decimalNat n).drop 1)).isEmpty then .ok (components, true)
      else (stoiOrThrow (trimCopy ((ascii "- " ++ decimalNat n).drop 1))).bind fun layer =>
        .ok ({ components with layers := components.layers ++ [layer] }, true) := rfl
  rw [hread, hitem, hempty, stoiOrThrow_decimalNat hn]
  rfl

/-- The line of a layer. -/
theorem layerRow_eq (n : ℕ) : layerRow n = List.replicate 4 32 ++ (ascii "- " ++ decimalNat n) := by
  have hdecimal : decimal (n : ℤ) = decimalNat n := by
    rw [decimal, if_neg (by omega), Int.natAbs_natCast]
  rw [layerRow, hdecimal]
  generalize decimalNat n = digits
  rfl

theorem trimCopy_layerRow (n : ℕ) : trimCopy (layerRow n) = ascii "- " ++ decimalNat n := by
  have hends := plain_decimalNat n
  have hne := decimalNat_ne_nil n
  rw [layerRow_eq, trimCopy_replicate]
  generalize decimalNat n = digits at hends hne
  refine trimCopy_of_ends (by rintro b ⟨⟩; decide) fun b hb => ?_
  rw [List.getLast?_append_of_ne_nil _ hne] at hb
  exact (hends b (List.mem_of_getLast? hb)).1

theorem indentWidth_layerRow (n : ℕ) : indentWidth (layerRow n) = 4 := by
  rw [layerRow_eq]
  generalize decimalNat n = digits
  exact indentWidth_replicate 4 (by rintro b ⟨⟩; decide)

theorem skippedLine_layerRow (n : ℕ) : skippedLine (layerRow n) = false := by
  rw [skippedLine, trimCopy_layerRow]
  generalize decimalNat n = digits
  rfl

theorem isStageListItem_layer (n : ℕ) : isStageListItem (ascii "- " ++ decimalNat n) = false := by
  have hdigits := decimalNat_digits n
  generalize decimalNat n = digits at hdigits
  refine Bool.eq_false_iff.mpr fun hitem => ?_
  have htext : ascii "- stage_id:" = ascii "- " ++ ascii "stage_id:" := rfl
  unfold isStageListItem startsWith at hitem
  rw [htext] at hitem
  have hprefix := (List.prefix_append_right_inj _).mp (List.isPrefixOf_iff_prefix.mp hitem)
  have hmem : (115 : UInt8) ∈ digits := hprefix.subset List.mem_cons_self
  exact absurd (hdigits 115 hmem) (by decide)

/-- The gateway reads a layer. -/
theorem gateway_layer {n : ℕ} (hn : n < 2 ^ 31) :
    gatewayLine (inComponents config p true) (layerRow n) =
      .ok (inComponents config { p with
        components := { p.components with layers := p.components.layers ++ [(n : ℤ)] } } true) := by
  have hitem := isStageListItem_layer n
  have hroute : gatewayKeyLine (inComponents config p true) 4 (ascii "- " ++ decimalNat n) =
      gatewayStageLine (inComponents config p true) 4 (ascii "- " ++ decimalNat n) := rfl
  have hstage : gatewayStageLine (inComponents config p true) 4 (ascii "- " ++ decimalNat n) =
      (componentLine p.components true (ascii "- " ++ decimalNat n)).bind fun read =>
        .ok (inComponents config { p with components := read.1 } read.2) := by
    rw [gatewayStageLine, if_neg (by rw [hitem]; decide)]
    rfl
  rw [gatewayLine_read (skippedLine_layerRow n), indentWidth_layerRow, trimCopy_layerRow, hroute,
    hstage, componentLine_layer _ hn]
  rfl

/-- The gateway reads a list of layers. -/
theorem gateway_layers {layers : List ℤ} (h : ∀ layer ∈ layers, 0 ≤ layer ∧ layer < 2 ^ 31) :
    (layers.map layerRow).foldlM gatewayLine (inComponents config p true) =
      .ok (inComponents config { p with
        components := { p.components with layers := p.components.layers ++ layers } } true) := by
  induction layers generalizing p with
  | nil =>
    rw [List.append_nil]
    rfl
  | cons layer layers ih =>
    obtain ⟨hnonneg, hlt⟩ := h layer List.mem_cons_self
    obtain ⟨n, rfl⟩ := Int.eq_ofNat_of_zero_le hnonneg
    rw [List.map_cons, foldlM_cons_ok (gateway_layer (by omega)),
      ih fun layer' hmem => h layer' (List.mem_cons_of_mem _ hmem)]
    simp only [List.append_assoc, List.singleton_append]

/-- A partition that can be finished. -/
structure Finishable (p : GatewayPartition) : Prop where
  id : 0 < p.stageId
  partitionId : p.partitionId ≠ []
  serviceName : p.serviceName ≠ []

theorem finish_inEntry (h : Finishable p) : finishPartitionIfValid (inEntry config p) =
    .ok (ready { config with partitions := config.partitions ++ [p] }) := by
  have hpartitionId : p.partitionId.isEmpty = false := by simpa using h.partitionId
  have hserviceName : p.serviceName.isEmpty = false := by simpa using h.serviceName
  have hid : ¬p.stageId ≤ 0 := not_le.mpr h.id
  simp only [finishPartitionIfValid, inEntry, hpartitionId, hserviceName, hid, Bool.not_true,
    Bool.false_eq_true, if_false]
  rfl

theorem finishable_gatewayEntry (v : StageMapValues) (index : ℕ) :
    Finishable (gatewayEntry v index) where
  id := by
    change (0 : ℤ) < (index + 1 : ℕ)
    omega
  partitionId := List.append_ne_nil_of_right_ne_nil _ (decimalNat_ne_nil _)
  serviceName := List.append_ne_nil_of_right_ne_nil _ (decimalNat_ne_nil _)

/-- The partition behind the first line of an entry. -/
def begun (index : ℕ) : GatewayPartition :=
  { emptyPartition with
    stageId := (index + 1 : ℕ)
    partitionId := defaultPartitionId (index + 1 : ℕ) }

/-- The id of an entry is read back. -/
theorem parseStageId_keyed {stageId : ℕ} (h : stageId < 2 ^ 31) :
    parseStageIdFromListItem (keyed (ascii "- stage_id") (decimalNat stageId)) =
      .ok (stageId : ℤ) := by
  have hne : (decimalNat stageId).isEmpty = false := by simpa using decimalNat_ne_nil _
  rw [parseStageIdFromListItem, valueAfterColon_keyed (by decide) (plain_decimalNat _),
    readBack_decimalNat, hne, stoiOrThrow_decimalNat h]
  rfl

/-- The first line of an entry finishes the entry before. -/
theorem gateway_begin {load : GatewayLoad} {index : ℕ} (hindex : index + 1 < 2 ^ 31)
    (hroute : ∀ value, gatewayKeyLine load 0 (keyed (ascii "- stage_id") value) =
      gatewayStageLine load 0 (keyed (ascii "- stage_id") value))
    (hfinish : finishPartitionIfValid load = .ok (ready config)) :
    gatewayLine load (keyLine 0 (ascii "- stage_id") (decimalNat (index + 1))) =
      .ok (inEntry config (begun index)) := by
  have hstage (value : Bytes) : gatewayStageLine load 0 (keyed (ascii "- stage_id") value) =
      (finishPartitionIfValid load).bind fun load =>
        (parseStageIdFromListItem (keyed (ascii "- stage_id") value)).bind fun stageId =>
          .ok { load with
            currentPartition :=
              { emptyPartition with stageId := stageId, partitionId := defaultPartitionId stageId }
            insideCurrentPartition := true
            insideComponents := false
            insideLayers := false } := rfl
  rw [gatewayLine_keyLine load 0 (by decide) (plain_decimalNat _), hroute, hstage, hfinish]
  change (parseStageIdFromListItem _).bind _ = _
  rw [parseStageId_keyed hindex]
  rfl

theorem parseBoolValue_boolWord (b : Bool) : parseBoolValue (readBack (boolWord b)) = b := by
  cases b <;> rfl

theorem plain_boolWord (b : Bool) : Plain (boolWord b) := by
  cases b <;> exact plain_of_all (by decide)

/-- A line of an entry outside its components. -/
theorem gateway_field (set : GatewayPartition → Bytes → GatewayPartition) {key value : Bytes}
    (hkey : isKey key = true)
    (hroute : ∀ value, gatewayKeyLine (inEntry config p) 2 (keyed key value) =
      .ok (inEntry config (gatewayStageField p (keyed key value))))
    (hset : ∀ value, gatewayStageField p (keyed key value) =
      set p (valueAfterColon (keyed key value)))
    (hvalue : Plain value) :
    gatewayLine (inEntry config p) (keyLine 2 key value) =
      .ok (inEntry config (set p (readBack value))) := by
  obtain ⟨b, rest, -, -, -, hcolon⟩ := isKey_parts hkey
  rw [gatewayLine_keyLine _ 2 hkey hvalue, hroute, hset, valueAfterColon_keyed hcolon hvalue]

theorem gateway_partitionId {value : Bytes} (hvalue : Plain value) :
    gatewayLine (inEntry config p) (keyLine 2 (ascii "partition_id") value) =
      .ok (inEntry config { p with partitionId := readBack value }) :=
  gateway_field (fun p value => { p with partitionId := value }) (by decide) (fun _ => rfl)
    (fun _ => rfl) hvalue

theorem gateway_serviceName {value : Bytes} (hvalue : Plain value) :
    gatewayLine (inEntry config p) (keyLine 2 (ascii "service_name") value) =
      .ok (inEntry config { p with serviceName := readBack value }) :=
  gateway_field (fun p value => { p with serviceName := value }) (by decide) (fun _ => rfl)
    (fun _ => rfl) hvalue

theorem gateway_physicalNode {value : Bytes} (hvalue : Plain value) :
    gatewayLine (inEntry config p) (keyLine 2 (ascii "physical_node") value) =
      .ok (inEntry config { p with physicalNode := readBack value }) :=
  gateway_field (fun p value => { p with physicalNode := value }) (by decide) (fun _ => rfl)
    (fun _ => rfl) hvalue

theorem gateway_partitionFile {value : Bytes} (hvalue : Plain value) :
    gatewayLine (inEntry config p) (keyLine 2 (ascii "partition_file") value) =
      .ok (inEntry config { p with partitionFile := readBack value }) :=
  gateway_field (fun p value => { p with partitionFile := value }) (by decide) (fun _ => rfl)
    (fun _ => rfl) hvalue

theorem gateway_nativePartitionFile {value : Bytes} (hvalue : Plain value) :
    gatewayLine (inEntry config p) (keyLine 2 (ascii "native_partition_file") value) =
      .ok (inEntry config { p with nativePartitionFile := readBack value }) :=
  gateway_field (fun p value => { p with nativePartitionFile := value }) (by decide)
    (fun _ => rfl) (fun _ => rfl) hvalue

theorem gateway_backend {value : Bytes} (hvalue : Plain value) :
    gatewayLine (inEntry config p) (keyLine 2 (ascii "backend") value) =
      .ok (inEntry config { p with backend := readBack value }) :=
  gateway_field (fun p value => { p with backend := value }) (by decide) (fun _ => rfl)
    (fun _ => rfl) hvalue

theorem gateway_components :
    gatewayLine (inEntry config p) (ascii "  components:") =
      .ok (inComponents config p false) := rfl

theorem gateway_layersKey :
    gatewayLine (inComponents config p false) (ascii "    layers:") =
      .ok (inComponents config p true) := rfl

/-- A line of the components of an entry. -/
theorem gateway_component {insideLayers : Bool}
    (set : PartitionComponents → Bytes → PartitionComponents) {key value : Bytes} (hkey : isKey key = true)
    (hroute : ∀ value, gatewayKeyLine (inComponents config p insideLayers) 4 (keyed key value) =
      (componentLine p.components insideLayers (keyed key value)).bind fun read =>
        .ok (inComponents config { p with components := read.1 } read.2))
    (hset : ∀ value, componentLine p.components insideLayers (keyed key value) =
      .ok (set p.components (valueAfterColon (keyed key value)), insideLayers))
    (hvalue : Plain value) :
    gatewayLine (inComponents config p insideLayers) (keyLine 4 key value) =
      .ok (inComponents config { p with components := set p.components (readBack value) }
        insideLayers) := by
  obtain ⟨b, rest, -, -, -, hcolon⟩ := isKey_parts hkey
  rw [gatewayLine_keyLine _ 4 hkey hvalue, hroute, hset, valueAfterColon_keyed hcolon hvalue]
  rfl

theorem gateway_embedding (value : Bool) :
    gatewayLine (inComponents config p false) (keyLine 4 (ascii "embedding") (boolWord value)) =
      .ok (inComponents config { p with
        components := { p.components with embedding := value } } false) := by
  refine (gateway_component (fun components text =>
    { components with embedding := parseBoolValue text }) (by decide) (fun _ => rfl) (fun _ => rfl)
    (plain_boolWord value)).trans ?_
  rw [parseBoolValue_boolWord]

theorem gateway_norm (value : Bool) :
    gatewayLine (inComponents config p true) (keyLine 4 (ascii "norm") (boolWord value)) =
      .ok (inComponents config { p with
        components := { p.components with norm := value } } true) := by
  refine (gateway_component (fun components text =>
    { components with norm := parseBoolValue text }) (by decide) (fun _ => rfl) (fun _ => rfl)
    (plain_boolWord value)).trans ?_
  rw [parseBoolValue_boolWord]

theorem gateway_lmHead (value : Bool) :
    gatewayLine (inComponents config p true) (keyLine 4 (ascii "lm_head") (boolWord value)) =
      .ok (inComponents config { p with
        components := { p.components with lmHead := value } } true) := by
  refine (gateway_component (fun components text =>
    { components with lmHead := parseBoolValue text }) (by decide) (fun _ => rfl) (fun _ => rfl)
    (plain_boolWord value)).trans ?_
  rw [parseBoolValue_boolWord]

/-- The line behind the components leaves them. -/
theorem gateway_nextStage {value : Bytes} (hvalue : Plain value) :
    gatewayLine (inComponents config p true) (keyLine 2 (ascii "next_stage_url") value) =
      .ok (inEntry config { p with nextStageUrl := readBack value }) := by
  have hroute (value : Bytes) :
      gatewayKeyLine (inComponents config p true) 2 (keyed (ascii "next_stage_url") value) =
        .ok (inEntry config
          { p with nextStageUrl := valueAfterColon (keyed (ascii "next_stage_url") value) }) := rfl
  rw [gatewayLine_keyLine _ 2 (by decide) hvalue, hroute,
    valueAfterColon_keyed (by decide) hvalue]

end Entries

section Blocks

variable {v : StageMapValues} {config : GatewayConfig} {index : ℕ}

/-- The layers of a stage are numbers of an `int`. -/
theorem Written.layer_range (h : Written v) (index : ℕ) :
    ∀ layer ∈ v.ranges.getD index [], 0 ≤ layer ∧ layer < 2 ^ 31 := by
  intro layer hlayer
  rw [List.getD_eq_getElem?_getD] at hlayer
  cases hrange : v.ranges[index]? with
  | none =>
    rw [hrange] at hlayer
    cases hlayer
  | some layers =>
    rw [hrange, Option.getD_some] at hlayer
    have hmem : layer ∈ v.ranges.flatten :=
      List.mem_flatten.mpr ⟨layers, List.mem_of_getElem? hrange, hlayer⟩
    rw [h.ranges.cover] at hmem
    obtain ⟨n, hn, rfl⟩ := List.mem_map.mp hmem
    have hlt := List.mem_range.mp hn
    have hlayers := h.layers
    omega

/-- The partition before the layers of its entry. -/
def beforeLayers (v : StageMapValues) (index : ℕ) : GatewayPartition :=
  { gatewayEntry v index with
    nextStageUrl := []
    components := { embedding := index + 1 == 1 } }

/-- The gateway reads a stage up to its layers. -/
theorem gateway_stageStart (h : Written v) (hindex : index + 1 < 2 ^ 31) {load : GatewayLoad}
    (hroute : ∀ value, gatewayKeyLine load 0 (keyed (ascii "- stage_id") value) =
      gatewayStageLine load 0 (keyed (ascii "- stage_id") value))
    (hfinish : finishPartitionIfValid load = .ok (ready config)) :
    (stageStart v index).foldlM gatewayLine load =
      .ok (inComponents config (beforeLayers v index) true) := by
  have hfile (name last : Bytes) (hname : Plain name) (hlast : Plain last) :
      Plain (modelDir v ++ name ++ decimalNat (index + 1) ++ last) :=
    plain_append (plain_append (plain_append h.modelDir hname) (plain_decimalNat _)) hlast
  have hlines : stageStart v index =
      [keyLine 0 (ascii "- stage_id") (decimalNat (index + 1)),
        keyLine 2 (ascii "partition_id") (ascii "partition-" ++ decimalNat (index + 1)),
        keyLine 2 (ascii "service_name") (stageServiceName v.stageServicePrefix (index + 1)),
        keyLine 2 (ascii "physical_node") (v.physicalNodes.getD index []),
        keyLine 2 (ascii "partition_file") (modelDir v ++ ascii "/stage_" ++
          decimalNat (index + 1) ++ ascii ".pt"),
        keyLine 2 (ascii "native_partition_file") (modelDir v ++ ascii "/partition-" ++
          decimalNat (index + 1) ++ ascii ".dli.gguf"),
        keyLine 2 (ascii "backend") (ascii "llama"),
        ascii "  components:",
        keyLine 4 (ascii "embedding") (boolWord (index + 1 == 1)),
        ascii "    layers:"] := rfl
  have hid : readBack (ascii "partition-" ++ decimalNat (index + 1)) =
      ascii "partition-" ++ decimalNat (index + 1) :=
    readBack_of_mem (b := 45) (List.mem_append_left _ (by decide)) (by decide)
  have hname : readBack (stageServiceName v.stageServicePrefix (index + 1)) =
      stageServiceName v.stageServicePrefix (index + 1) :=
    readBack_of_mem (b := 45) (List.mem_append_left _ (List.mem_append_right _ List.mem_cons_self))
      (by decide)
  have hpath (name last : Bytes) (hslash : 47 ∈ name) :
      readBack (modelDir v ++ name ++ decimalNat (index + 1) ++ last) =
        modelDir v ++ name ++ decimalNat (index + 1) ++ last :=
    readBack_of_mem (b := 47) (List.mem_append_left _ (List.mem_append_left _
      (List.mem_append_right _ hslash))) (by decide)
  rw [hlines, foldlM_cons_ok (gateway_begin hindex hroute hfinish),
    foldlM_cons_ok (gateway_partitionId
      (plain_append (plain_of_all (by decide)) (plain_decimalNat _))),
    foldlM_cons_ok (gateway_serviceName (h.stageServiceName (index + 1))),
    foldlM_cons_ok (gateway_physicalNode (h.node index)),
    foldlM_cons_ok (gateway_partitionFile (hfile _ _ (plain_of_all (by decide))
      (plain_of_all (by decide)))),
    foldlM_cons_ok (gateway_nativePartitionFile (hfile _ _ (plain_of_all (by decide))
      (plain_of_all (by decide)))),
    foldlM_cons_ok (gateway_backend (plain_of_all (by decide))),
    foldlM_cons_ok gateway_components, foldlM_cons_ok (gateway_embedding _),
    foldlM_cons_ok gateway_layersKey,
    hid, hname, hpath (ascii "/stage_") (ascii ".pt") List.mem_cons_self,
    hpath (ascii "/partition-") (ascii ".dli.gguf") List.mem_cons_self]
  rfl

/-- The gateway reads a stage behind its layers. -/
theorem gateway_stageEnd (h : Written v) {p : GatewayPartition} :
    (stageEnd v index).foldlM gatewayLine (inComponents config p true) =
      .ok (inEntry config { p with
        components := { p.components with
          norm := index + 1 == v.numStages
          lmHead := index + 1 == v.numStages }
        nextStageUrl := readBack (nextStage v (index + 1)) }) := by
  have hnext : Plain (nextStage v (index + 1)) := by
    rw [nextStage]
    split
    · exact h.stageUrl _
    · exact plain_of_all (by decide)
  have hlines : stageEnd v index =
      [keyLine 4 (ascii "norm") (boolWord (index + 1 == v.numStages)),
        keyLine 4 (ascii "lm_head") (boolWord (index + 1 == v.numStages)),
        keyLine 2 (ascii "next_stage_url") (nextStage v (index + 1)),
        []] := rfl
  rw [hlines, foldlM_cons_ok (gateway_norm _), foldlM_cons_ok (gateway_lmHead _),
    foldlM_cons_ok (gateway_nextStage hnext), foldlM_cons_ok (gatewayLine_skipped rfl)]
  rfl

theorem readBack_nextStage (v : StageMapValues) (stageId : ℕ) :
    readBack (nextStage v stageId) =
      if stageId < v.numStages then stageUrl v.stageServicePrefix (stageId + 1) else [] := by
  rw [nextStage]
  split
  · exact readBack_stageUrl _ _
  · rfl

/-- The gateway reads a stage. -/
theorem gateway_block (h : Written v) (hindex : index + 1 < 2 ^ 31) {load : GatewayLoad}
    (hroute : ∀ value, gatewayKeyLine load 0 (keyed (ascii "- stage_id") value) =
      gatewayStageLine load 0 (keyed (ascii "- stage_id") value))
    (hfinish : finishPartitionIfValid load = .ok (ready config)) :
    (blockRows v index).foldlM gatewayLine load = .ok (inEntry config (gatewayEntry v index)) := by
  rw [blockRows, List.foldlM_append, List.foldlM_append, gateway_stageStart h hindex hroute hfinish]
  change ((List.map layerRow _).foldlM gatewayLine _).bind _ = _
  rw [gateway_layers (h.layer_range index)]
  change (stageEnd v index).foldlM gatewayLine _ = _
  rw [gateway_stageEnd h, readBack_nextStage]
  rfl

/-- The partitions of the first stages. -/
def firstEntries (v : StageMapValues) (config : GatewayConfig) (n : ℕ) : GatewayConfig :=
  { config with partitions := config.partitions ++ (List.range n).map (gatewayEntry v) }

/-- The gateway behind the first stages, in the entry of the last of them. -/
def behindStages (v : StageMapValues) (config : GatewayConfig) : ℕ → GatewayLoad
  | 0 => ready config
  | n + 1 => inEntry (firstEntries v config n) (gatewayEntry v n)

theorem finish_behindStages (v : StageMapValues) (config : GatewayConfig) (n : ℕ) :
    finishPartitionIfValid (behindStages v config n) = .ok (ready (firstEntries v config n)) := by
  cases n with
  | zero =>
    rw [behindStages, firstEntries, List.range_zero, List.map_nil, List.append_nil]
    rfl
  | succ n =>
    rw [behindStages, finish_inEntry (finishable_gatewayEntry v n)]
    simp only [firstEntries, List.range_succ, List.map_append, List.map_singleton,
      List.append_assoc]

/-- The gateway reads the stages one after the other. -/
theorem gateway_stages (h : Written v) {n : ℕ} (hn : n < 2 ^ 31) :
    ((List.range n).flatMap (blockRows v)).foldlM gatewayLine (ready config) =
      .ok (behindStages v config n) := by
  induction n with
  | zero => rfl
  | succ n ih =>
    have hroute (value : Bytes) :
        gatewayKeyLine (behindStages v config n) 0 (keyed (ascii "- stage_id") value) =
          gatewayStageLine (behindStages v config n) 0 (keyed (ascii "- stage_id") value) := by
      cases n <;> rfl
    rw [List.range_succ, List.flatMap_append, List.foldlM_append, ih (by omega),
      List.flatMap_singleton]
    exact gateway_block h (by omega) hroute (finish_behindStages v config n)

end Blocks

section Behind

variable {v : StageMapValues} {config : GatewayConfig}

/-- The gateway behind the stages. -/
def leftStages (config : GatewayConfig) : GatewayLoad :=
  { config := config, gatewayIndent := 0 }

/-- The line behind the stages finishes the last of them. -/
theorem gateway_topology (n : ℕ) :
    gatewayLine (behindStages v config n) (ascii "topology:") =
      .ok (leftStages (firstEntries v config n)) := by
  have hleave : gatewayLine (behindStages v config n) (ascii "topology:") =
      (finishPartitionIfValid (behindStages v config n)).bind fun load => .ok { load with
        insideInferenceStages := false
        insideComponents := false
        insideLayers := false } := by
    cases n <;> rfl
  rw [hleave, finish_behindStages]
  rfl

theorem indentWidth_blank (line : Bytes) : indentWidth (32 :: line) ≠ 0 := by
  rw [indentWidth, List.takeWhile_cons_of_pos rfl]
  exact Nat.succ_ne_zero _

/-- Lines with an indent change nothing behind the stages. -/
theorem gateway_indented {line : Bytes} (h : indentWidth line ≠ 0) :
    gatewayLine (leftStages config) line = .ok (leftStages config) := by
  cases hskipped : skippedLine line with
  | true => exact gatewayLine_skipped hskipped
  | false =>
    have hindent : (indentWidth line == 0) = false := beq_false_of_ne h
    rw [gatewayLine_read hskipped, gatewayKeyLine]
    simp only [hindent, Bool.false_and, Bool.and_false, Bool.false_eq_true, if_false]
    rfl

/-- The lines of the candidates. -/
def candidateLines (v : StageMapValues) : List Bytes :=
  [ascii "  probe_timeout_seconds: 0.25", ascii "  route_candidates:"] ++
    (List.range (v.numStages - 1)).flatMap fun index =>
      [ascii "    \"" ++ decimalNat (index + 1) ++ ascii "\":",
        ascii "    - " ++ stageUrl v.stageServicePrefix (index + 2)]

theorem topologyLines_eq (v : StageMapValues) :
    topologyLines v = ascii "topology:" :: candidateLines v := rfl

theorem candidateLines_indented (v : StageMapValues) :
    ∀ line ∈ candidateLines v, indentWidth line ≠ 0 := by
  intro line hline
  rcases List.mem_append.mp hline with hfixed | hstage
  · rcases List.mem_cons.mp hfixed with rfl | hfixed
    · exact indentWidth_blank _
    · rw [List.mem_singleton.mp hfixed]
      exact indentWidth_blank _
  · obtain ⟨index, -, hline⟩ := List.mem_flatMap.mp hstage
    rcases List.mem_cons.mp hline with rfl | hline
    · exact indentWidth_blank _
    · rw [List.mem_singleton.mp hline]
      exact indentWidth_blank _

theorem gateway_candidates (v : StageMapValues) (config : GatewayConfig) :
    (candidateLines v).foldlM gatewayLine (leftStages config) = .ok (leftStages config) := by
  have hlines := candidateLines_indented v
  generalize candidateLines v = lines at hlines
  induction lines with
  | nil => rfl
  | cons line lines ih =>
    rw [foldlM_cons_ok (gateway_indented (hlines line List.mem_cons_self))]
    exact ih fun line' hmem => hlines line' (List.mem_cons_of_mem line hmem)

/-- The gateway reads all rows of a stage map. -/
theorem gateway_rows (h : Written v) (configPath : Bytes) :
    (stageMapRows v).foldlM gatewayLine { config := { configPath := configPath } } =
      .ok (leftStages (firstEntries v (headConfig v configPath) v.numStages)) := by
  have hstages : v.numStages < 2 ^ 31 := by
    have hlayers := h.layers
    have hfew := h.stages
    omega
  rw [stageMapRows, List.foldlM_append, List.foldlM_append, gateway_head h]
  change (((List.range v.numStages).flatMap (blockRows v)).foldlM gatewayLine
    (ready (headConfig v configPath))).bind _ = _
  rw [gateway_stages h hstages]
  change (topologyLines v).foldlM gatewayLine _ = _
  rw [topologyLines_eq, foldlM_cons_ok (gateway_topology v.numStages), gateway_candidates]

end Behind

end LayerInference.StageMapRoundTrip
