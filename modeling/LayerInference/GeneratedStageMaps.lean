import LayerInference.StageMapRoundTrip
import LayerInference.GraphReports

/-!
# Generated stage maps

What the controller and the operations UI generate is read by the gateway as one
partition for every stage, in order, with the balanced split of the layers. The
graph of these partitions is well formed. The entries stand together and have
distinct ids, so that every stage reads its own partition from the same text.
-/

namespace LayerInference.GeneratedStageMaps

open ByteStrings hiding trimCopy
open TextStreams ConfigLines FallibleRuns PartitionRouting PartitionGraph GraphReports StageCounts
  StageMapFiles StageMapAgreement StageMapText StageMapRoundTrip

section Rows

variable {v : StageMapValues}

/-- A row of an entry behind its first one. -/
structure InnerRow (line : Bytes) : Prop where
  noBreak : 10 ∉ line
  noKey : topLevelLine line = false
  noEntry : entryId line = none

theorem noBreak_of_plain {text : Bytes} (h : Plain text) : 10 ∉ text :=
  fun hmem => absurd (h 10 hmem).1 (by decide)

theorem noBreak_keyLine (indent : ℕ) {key value : Bytes} (hkey : 10 ∉ key) (hvalue : Plain value) :
    10 ∉ keyLine indent key value := by
  intro hmem
  rcases List.mem_append.mp hmem with hindent | hmem
  · exact absurd (List.eq_of_mem_replicate hindent) (by decide)
  · rcases List.mem_append.mp hmem with hmem | hmem
    · rcases List.mem_append.mp hmem with hmem | hmem
      · exact hkey hmem
      · exact absurd hmem (by decide)
    · exact noBreak_of_plain hvalue hmem

/-- A written line starts with its key. -/
theorem startsWith_keyed (key value : Bytes) :
    startsWith (keyed key value) (key ++ [58]) = true := by
  refine List.isPrefixOf_iff_prefix.mpr ⟨if value = [] then [] else 32 :: value, ?_⟩
  rw [keyed, List.append_assoc]
  rfl

/-- A written line has no other key. -/
theorem startsWith_keyed_other {key other : Bytes}
    (h : (startsWith (key ++ [58]) other || startsWith other (key ++ [58])) = false)
    (value : Bytes) : startsWith (keyed key value) other = false :=
  startsWith_other h (startsWith_keyed key value)

theorem topLevelLine_indented {line : Bytes} (h : indentWidth line ≠ 0) :
    topLevelLine line = false := by
  rw [topLevelLine, beq_false_of_ne h, Bool.and_false, Bool.false_and]

/-- A value of an entry. -/
theorem innerRow_keyLine {indent : ℕ} (hindent : indent ≠ 0) {key value : Bytes}
    (hkey : isKey key = true) (hbreak : 10 ∉ key)
    (hother : (startsWith (key ++ [58]) (ascii "- stage_id:") ||
      startsWith (ascii "- stage_id:") (key ++ [58])) = false) (hvalue : Plain value) :
    InnerRow (keyLine indent key value) where
  noBreak := noBreak_keyLine indent hbreak hvalue
  noKey := topLevelLine_indented (by rwa [indentWidth_keyLine indent hkey])
  noEntry := by
    rw [entryId, trimCopy_keyLine indent hkey hvalue, isStageListItem,
      startsWith_keyed_other hother, Bool.and_false]
    rfl

theorem innerRow_layerRow (n : ℕ) : InnerRow (layerRow n) where
  noBreak := by
    rw [layerRow_eq]
    intro hmem
    rcases List.mem_append.mp hmem with hmem | hmem
    · exact absurd (List.eq_of_mem_replicate hmem) (by decide)
    · rcases List.mem_append.mp hmem with hmem | hmem
      · exact absurd hmem (by decide)
      · exact noBreak_of_plain (plain_decimalNat n) hmem
  noKey := topLevelLine_indented (by rw [indentWidth_layerRow]; decide)
  noEntry := by
    rw [entryId, trimCopy_layerRow, isStageListItem_layer, Bool.and_false]
    rfl

/-- The rows of an entry behind its first one. -/
def innerRows (v : StageMapValues) (index : ℕ) : List Bytes :=
  (stageStart v index).tail ++ (v.ranges.getD index []).map layerRow ++ stageEnd v index

/-- The first row of an entry. -/
def firstRow (index : ℕ) : Bytes := keyLine 0 (ascii "- stage_id") (decimalNat (index + 1))

theorem blockRows_eq (v : StageMapValues) (index : ℕ) :
    blockRows v index = firstRow index :: innerRows v index := rfl

theorem innerRows_inner (h : Written v) (index : ℕ) :
    ∀ line ∈ innerRows v index, InnerRow line := by
  have hvalue {key value : Bytes} (hkey : isKey key = true) (hbreak : 10 ∉ key)
      (hother : (startsWith (key ++ [58]) (ascii "- stage_id:") ||
        startsWith (ascii "- stage_id:") (key ++ [58])) = false) (hvalue : Plain value) :
      InnerRow (keyLine 2 key value) ∧ InnerRow (keyLine 4 key value) :=
    ⟨innerRow_keyLine (by decide) hkey hbreak hother hvalue,
      innerRow_keyLine (by decide) hkey hbreak hother hvalue⟩
  have hfile {name last : Bytes} (hname : Plain name) (hlast : Plain last) :
      Plain (modelDir v ++ name ++ decimalNat (index + 1) ++ last) :=
    plain_append (plain_append (plain_append h.modelDir hname) (plain_decimalNat _)) hlast
  intro line hline
  rcases List.mem_append.mp hline with hline | hend
  · rcases List.mem_append.mp hline with hstart | hlayer
    · have hrows : (stageStart v index).tail =
          [keyLine 2 (ascii "partition_id") (ascii "partition-" ++ decimalNat (index + 1)),
            keyLine 2 (ascii "service_name") (stageServiceName v.stageServicePrefix (index + 1)),
            keyLine 2 (ascii "physical_node") (v.physicalNodes.getD index []),
            keyLine 2 (ascii "partition_file") (modelDir v ++ ascii "/stage_" ++
              decimalNat (index + 1) ++ ascii ".pt"),
            keyLine 2 (ascii "native_partition_file") (modelDir v ++ ascii "/partition-" ++
              decimalNat (index + 1) ++ ascii ".dli.gguf"),
            keyLine 2 (ascii "backend") (ascii "llama"),
            ascii "  components:",
            keyLine 4 (ascii "embedding") (boolWord (index + 1 == 1)),
            ascii "    layers:"] := rfl
      rw [hrows] at hstart
      simp only [List.mem_cons, List.not_mem_nil, or_false] at hstart
      rcases hstart with rfl | rfl | rfl | rfl | rfl | rfl | rfl | rfl | rfl
      · exact (hvalue (by decide) (by decide) (by decide)
          (plain_append (plain_of_all (by decide)) (plain_decimalNat _))).1
      · exact (hvalue (by decide) (by decide) (by decide) (h.stageServiceName _)).1
      · exact (hvalue (by decide) (by decide) (by decide) (h.node index)).1
      · exact (hvalue (by decide) (by decide) (by decide)
          (hfile (plain_of_all (by decide)) (plain_of_all (by decide)))).1
      · exact (hvalue (by decide) (by decide) (by decide)
          (hfile (plain_of_all (by decide)) (plain_of_all (by decide)))).1
      · exact (hvalue (by decide) (by decide) (by decide) (plain_of_all (by decide))).1
      · exact ⟨by decide, by decide, by decide⟩
      · exact (hvalue (by decide) (by decide) (by decide) (plain_boolWord _)).2
      · exact ⟨by decide, by decide, by decide⟩
    · obtain ⟨layer, hmem, rfl⟩ := List.mem_map.mp hlayer
      obtain ⟨n, rfl⟩ := Int.eq_ofNat_of_zero_le (h.layer_range index layer hmem).1
      exact innerRow_layerRow n
  · have hnext : Plain (nextStage v (index + 1)) := by
      rw [nextStage]
      split
      · exact h.stageUrl _
      · exact plain_of_all (by decide)
    have hrows : stageEnd v index =
        [keyLine 4 (ascii "norm") (boolWord (index + 1 == v.numStages)),
          keyLine 4 (ascii "lm_head") (boolWord (index + 1 == v.numStages)),
          keyLine 2 (ascii "next_stage_url") (nextStage v (index + 1)),
          []] := rfl
    rw [hrows] at hend
    simp only [List.mem_cons, List.not_mem_nil, or_false] at hend
    rcases hend with rfl | rfl | rfl | rfl
    · exact (hvalue (by decide) (by decide) (by decide) (plain_boolWord _)).2
    · exact (hvalue (by decide) (by decide) (by decide) (plain_boolWord _)).2
    · exact (hvalue (by decide) (by decide) (by decide) hnext).1
    · exact ⟨by decide, by decide, by decide⟩

/-- The first row of an entry begins the entry of its stage. -/
theorem firstRow_begins {index : ℕ} (hindex : index + 1 < 2 ^ 31) :
    10 ∉ firstRow index ∧ topLevelLine (firstRow index) = false ∧
      entryId (firstRow index) = some ((index + 1 : ℕ) : ℤ) := by
  have hkey : isKey (ascii "- stage_id") = true := by decide
  have hplain := plain_decimalNat (index + 1)
  have hitem : isStageListItem (trimCopy (firstRow index)) = true := by
    rw [firstRow, trimCopy_keyLine 0 hkey hplain]
    exact startsWith_keyed (ascii "- stage_id") _
  refine ⟨noBreak_keyLine 0 (by decide) hplain, ?_, ?_⟩
  · rw [topLevelLine, hitem, Bool.not_true, Bool.and_false]
  · rw [entryId, hitem, firstRow, skippedLine_keyLine 0 hkey hplain, trimCopy_keyLine 0 hkey hplain,
      parseStageId_keyed hindex]
    rfl

end Rows

section Together

variable {v : StageMapValues}

/-- A row outside the stages. -/
structure OuterRow (line : Bytes) : Prop where
  noBreak : 10 ∉ line
  noStages : stagesKeyLine line = false

theorem outerRow_keyLine (indent : ℕ) {key value : Bytes} (hkey : isKey key = true)
    (hbreak : 10 ∉ key) (hother : (startsWith (key ++ [58]) (ascii "inference_stages:") ||
      startsWith (ascii "inference_stages:") (key ++ [58])) = false) (hvalue : Plain value) :
    OuterRow (keyLine indent key value) where
  noBreak := noBreak_keyLine indent hbreak hvalue
  noStages := by
    rw [stagesKeyLine, trimCopy_keyLine indent hkey hvalue, startsWith_keyed_other hother,
      Bool.and_false]

/-- The rows before the key of the stages. -/
def beforeStages (v : StageMapValues) : List Bytes := (headLines v).dropLast

theorem headLines_eq (v : StageMapValues) :
    headLines v = beforeStages v ++ [ascii "inference_stages:"] := rfl

theorem beforeStages_outer (h : Written v) : ∀ line ∈ beforeStages v, OuterRow line := by
  have hlayers : Plain (decimal v.numLayers) := by
    rw [decimal_numLayers h]
    exact plain_decimalNat _
  have hrows : beforeStages v =
      [keyLine 0 (ascii "model_name") v.modelName,
        keyLine 0 (ascii "model_slug") v.slug,
        keyLine 0 (ascii "model_path")
          (v.modelRoot ++ ascii "/" ++ v.slug ++ ascii "/" ++ v.fullGgufFile),
        keyLine 0 (ascii "num_layers") (decimal v.numLayers),
        [],
        ascii "inference_gateway:",
        keyLine 2 (ascii "service_name") v.gatewayServiceName,
        keyLine 2 (ascii "port") (ascii "8000"),
        keyLine 2 (ascii "first_stage_url") (stageUrl v.stageServicePrefix 1),
        []] := rfl
  intro line hline
  rw [hrows] at hline
  simp only [List.mem_cons, List.not_mem_nil, or_false] at hline
  rcases hline with rfl | rfl | rfl | rfl | rfl | rfl | rfl | rfl | rfl | rfl
  · exact outerRow_keyLine 0 (by decide) (by decide) (by decide) h.modelName
  · exact outerRow_keyLine 0 (by decide) (by decide) (by decide) h.slug
  · exact outerRow_keyLine 0 (by decide) (by decide) (by decide)
      (plain_append (plain_append h.modelDir (plain_of_all (by decide))) h.fullGgufFile)
  · exact outerRow_keyLine 0 (by decide) (by decide) (by decide) hlayers
  · exact ⟨by decide, by decide⟩
  · exact ⟨by decide, by decide⟩
  · exact outerRow_keyLine 2 (by decide) (by decide) (by decide) h.gatewayServiceName
  · exact outerRow_keyLine 2 (by decide) (by decide) (by decide) (plain_of_all (by decide))
  · exact outerRow_keyLine 2 (by decide) (by decide) (by decide) (h.stageUrl 1)
  · exact ⟨by decide, by decide⟩

theorem candidateLines_noBreak (h : Written v) : ∀ line ∈ candidateLines v, 10 ∉ line := by
  have hbefore {text rest : Bytes} (htext : 10 ∉ text) (hrest : 10 ∉ rest) : 10 ∉ text ++ rest :=
    fun hmem => (List.mem_append.mp hmem).elim htext hrest
  intro line hline
  rcases List.mem_append.mp hline with hfixed | hstage
  · simp only [List.mem_cons, List.not_mem_nil, or_false] at hfixed
    rcases hfixed with rfl | rfl
    · decide
    · decide
  · obtain ⟨index, -, hline⟩ := List.mem_flatMap.mp hstage
    simp only [List.mem_cons, List.not_mem_nil, or_false] at hline
    rcases hline with rfl | rfl
    · exact hbefore (hbefore (by decide) (noBreak_of_plain (plain_decimalNat _))) (by decide)
    · exact hbefore (by decide) (noBreak_of_plain (h.stageUrl _))

theorem topologyLines_outer (h : Written v) : ∀ line ∈ topologyLines v, OuterRow line := by
  intro line hline
  rw [topologyLines_eq] at hline
  rcases List.mem_cons.mp hline with rfl | hline
  · exact ⟨by decide, by decide⟩
  · refine ⟨candidateLines_noBreak h line hline, ?_⟩
    rw [stagesKeyLine, topLevelLine_indented (candidateLines_indented v line hline)]
    rfl

/-- The rows of the stages. -/
def stageRows (v : StageMapValues) : List Bytes := (List.range v.numStages).flatMap (blockRows v)

/-- A stage id is a number of an `int`. -/
theorem stageId_lt (h : Written v) {index : ℕ} (hindex : index < v.numStages) :
    index + 1 < 2 ^ 31 := by
  have hlayers := h.layers
  have hfew := h.stages
  omega

theorem stageRows_inside (h : Written v) :
    ∀ line ∈ stageRows v, 10 ∉ line ∧ topLevelLine line = false := by
  intro line hline
  obtain ⟨index, hindex, hline⟩ := List.mem_flatMap.mp hline
  rw [blockRows_eq] at hline
  rcases List.mem_cons.mp hline with rfl | hinner
  · obtain ⟨hbreak, hkey, -⟩ := firstRow_begins (stageId_lt h (List.mem_range.mp hindex))
    exact ⟨hbreak, hkey⟩
  · have hrow := innerRows_inner h index line hinner
    exact ⟨hrow.noBreak, hrow.noKey⟩

/-- The entries have the ids of their stages. -/
theorem entryIds (h : Written v) :
    (stageRows v).filterMap entryId =
      (List.range v.numStages).map fun index : ℕ => ((index + 1 : ℕ) : ℤ) := by
  have hblock (index : ℕ) (hindex : index < v.numStages) :
      (blockRows v index).filterMap entryId = [((index + 1 : ℕ) : ℤ)] := by
    have hinner : (innerRows v index).filterMap entryId = [] :=
      List.filterMap_eq_nil_iff.mpr fun line hline => (innerRows_inner h index line hline).noEntry
    rw [blockRows_eq, List.filterMap_cons_some (firstRow_begins (stageId_lt h hindex)).2.2, hinner]
  rw [stageRows, List.filterMap_flatMap, List.map_eq_flatMap]
  exact List.flatMap_congr fun index hindex => hblock index (List.mem_range.mp hindex)

theorem stageMapRows_eq (v : StageMapValues) : stageMapRows v =
    beforeStages v ++ ascii "inference_stages:" :: (stageRows v ++ ([] ++ topologyLines v)) := by
  rw [stageMapRows, headLines_eq, stageRows]
  simp only [List.append_assoc, List.nil_append, List.cons_append]

/-- The stages of a written map stand together. -/
theorem oneSection (h : Written v) : OneSection (stageMapRows v) (beforeStages v)
    (ascii "inference_stages:") (stageRows v) [] (topologyLines v) where
  lines_eq := stageMapRows_eq v
  no_section_before line hline := (beforeStages_outer h line hline).noStages
  begins := by decide
  no_key_inside line hline := (stageRows_inside h line hline).2
  scalar_keys := nofun
  ends := by
    rintro line ⟨⟩
    exact ⟨by decide, by decide⟩
  no_section_behind line hline := (topologyLines_outer h line hline).noStages
  distinct := by
    rw [entryIds h]
    refine List.Nodup.map (fun index index' heq => ?_) List.nodup_range
    have heq' : ((index + 1 : ℕ) : ℤ) = ((index' + 1 : ℕ) : ℤ) := heq
    omega

/-- The rows are the lines of the text. -/
theorem getLines_stageMapRows (h : Written v) :
    getLines (unlines (stageMapRows v)) = stageMapRows v := by
  refine getLines_unlines fun line hline => ?_
  rw [stageMapRows_eq] at hline
  rcases List.mem_append.mp hline with hhead | hline
  · exact (beforeStages_outer h line hhead).noBreak
  · rcases List.mem_cons.mp hline with rfl | hline
    · decide
    · rcases List.mem_append.mp hline with hstage | hbehind
      · exact (stageRows_inside h line hstage).1
      · exact (topologyLines_outer h line hbehind).noBreak

end Together

section Graph

variable {v : StageMapValues}

/-- The entries that the generator chose. -/
def chosenEntries (stageServicePrefix : Bytes) (numStages : ℕ) (ranges : List (List ℤ)) :
    List PartitionNodeConfig :=
  (List.range numStages).map fun index =>
    stageEntry stageServicePrefix numStages index (ranges.getD index [])

theorem map_gatewayEntry (v : StageMapValues) :
    ((List.range v.numStages).map (gatewayEntry v)).map GatewayPartition.toPartitionNodeConfig =
      chosenEntries v.stageServicePrefix v.numStages v.ranges := by
  rw [List.map_map]
  rfl

/-- One number of a range. -/
theorem countP_range_one {n k : ℕ} (hk : k < n) {test : ℕ → Bool}
    (h : ∀ index < n, (test index = true ↔ index = k)) : (List.range n).countP test = 1 := by
  have hsame : (List.range n).countP test = (List.range n).countP (· == k) := by
    refine List.countP_congr fun index hindex => ?_
    rw [h index (List.mem_range.mp hindex), beq_iff_eq]
  rw [hsame]
  exact List.count_eq_one_of_mem List.nodup_range (List.mem_range.mpr hk)

/-- The lists of a list by their positions. -/
theorem flatMap_getD {α : Type} (lists : List (List α)) :
    ((List.range lists.length).flatMap fun index => lists.getD index []) = lists.flatten := by
  induction lists with
  | nil => rfl
  | cons first lists ih =>
    rw [List.length_cons, List.range_succ_eq_map, List.flatMap_cons, List.flatMap_map,
      List.flatten_cons, ← ih]
    rfl

/-- The graph of the chosen entries is well formed. -/
theorem wellFormed_chosenEntries (stageServicePrefix : Bytes) {numLayers : ℤ} {numStages : ℕ}
    {ranges : List (List ℤ)} (hstages : 1 ≤ numStages)
    (hranges : Balanced numLayers.toNat numStages ranges) :
    WellFormedGraph (chosenEntries stageServicePrefix numStages ranges) numLayers where
  nonempty := by
    refine List.ne_nil_of_length_pos ?_
    rw [chosenEntries, List.length_map, List.length_range]
    exact hstages
  named partition hpartition := by
    obtain ⟨index, -, rfl⟩ := List.mem_map.mp hpartition
    exact ⟨List.append_ne_nil_of_right_ne_nil _ (decimalNat_ne_nil _),
      List.append_ne_nil_of_right_ne_nil _ (decimalNat_ne_nil _)⟩
  embeddingOwner := by
    rw [chosenEntries, List.countP_map]
    refine countP_range_one (show 0 < numStages by omega) fun index _ => ?_
    change (index + 1 == 1) = true ↔ _
    rw [beq_iff_eq]
    omega
  lmHeadOwner := by
    rw [chosenEntries, List.countP_map]
    refine countP_range_one (show numStages - 1 < numStages by omega) fun index _ => ?_
    change (index + 1 == numStages) = true ↔ _
    rw [beq_iff_eq]
    omega
  terminal := by
    rw [chosenEntries, List.countP_map]
    refine countP_range_one (show numStages - 1 < numStages by omega) fun index hindex => ?_
    change (if index + 1 < numStages then stageUrl stageServicePrefix (index + 1 + 1)
      else []).isEmpty = true ↔ _
    by_cases hinner : index + 1 < numStages
    · rw [if_pos hinner]
      refine iff_of_false (fun hempty => ?_) (by omega)
      cases hempty
    · rw [if_neg hinner]
      exact iff_of_true rfl (by omega)
  terminalOwner partition hpartition hlast := by
    obtain ⟨index, hindex, rfl⟩ := List.mem_map.mp hpartition
    have hlt := List.mem_range.mp hindex
    have hnext : (if index + 1 < numStages then stageUrl stageServicePrefix (index + 1 + 1)
      else []) = [] := hlast
    by_cases hinner : index + 1 < numStages
    · rw [if_pos hinner] at hnext
      cases hnext
    · exact beq_iff_eq.mpr (show index + 1 = numStages by omega)
  layers := by
    have hflat : flatLayers (chosenEntries stageServicePrefix numStages ranges) =
        ranges.flatten := by
      rw [flatLayers, chosenEntries, List.flatMap_map, ← flatMap_getD, hranges.count]
      rfl
    rw [hflat, hranges.cover]

/-- The gateway accepts a written map. -/
theorem gateway_loads (h : Written v) (configPath : Bytes) :
    ∃ gateway, loadGatewayConfigFromFile configPath (some (unlines (stageMapRows v))) =
        .ok gateway ∧
      gateway.numLayers = v.numLayers ∧
      gateway.firstStageUrl = stageUrl v.stageServicePrefix 1 ∧
      gateway.partitions = (List.range v.numStages).map (gatewayEntry v) := by
  have hfinish : finishPartitionIfValid
      (leftStages (firstEntries v (headConfig v configPath) v.numStages)) =
        .ok (leftStages (firstEntries v (headConfig v configPath) v.numStages)) :=
    finish_outside rfl
  have hpartitions : (firstEntries v (headConfig v configPath) v.numStages).partitions =
      (List.range v.numStages).map (gatewayEntry v) := List.nil_append _
  have hvalid : (validatePartitionGraph
      ((firstEntries v (headConfig v configPath) v.numStages).partitions.map
        GatewayPartition.toPartitionNodeConfig) v.numLayers).valid = true := by
    rw [hpartitions, map_gatewayEntry]
    have hpositive := h.some_stage
    have hfew := h.stages
    exact valid_of_wellFormed (by omega) (wellFormed_chosenEntries _ h.some_stage h.ranges)
  refine ⟨{ firstEntries v (headConfig v configPath) v.numStages with
      partitionValidation := validatePartitionGraph
        ((firstEntries v (headConfig v configPath) v.numStages).partitions.map
          GatewayPartition.toPartitionNodeConfig) v.numLayers }, ?_, rfl, rfl, hpartitions⟩
  rw [loadGatewayConfigFromFile, getLines_stageMapRows h, gateway_rows h]
  change (finishPartitionIfValid
    (leftStages (firstEntries v (headConfig v configPath) v.numStages))).bind _ = _
  rw [hfinish]
  refine if_neg ?_
  change ¬(!(validatePartitionGraph
    ((firstEntries v (headConfig v configPath) v.numStages).partitions.map
      GatewayPartition.toPartitionNodeConfig) v.numLayers).valid) = true
  rw [hvalid]
  decide

/-- What the readers get from the text of a generator: the gateway one partition
for every stage, every stage its own. -/
structure ReadBack (text configPath stageServicePrefix : Bytes) (numLayers : ℤ) (numStages : ℕ)
    (ranges : List (List ℤ)) (gateway : GatewayConfig) : Prop where
  loads : loadGatewayConfigFromFile configPath (some text) = .ok gateway
  numLayers : gateway.numLayers = numLayers
  firstStageUrl : gateway.firstStageUrl = stageUrl stageServicePrefix 1
  stageIds : gateway.partitions.map GatewayPartition.stageId =
    (List.range numStages).map fun index : ℕ => ((index + 1 : ℕ) : ℤ)
  entries : gateway.partitions.map GatewayPartition.toPartitionNodeConfig =
    chosenEntries stageServicePrefix numStages ranges
  stages : ∀ index < numStages, ∃ config,
    loadStageConfigFromFile configPath (some text) ((index + 1 : ℕ) : ℤ) = .ok config ∧
      config.serviceName = stageServiceName stageServicePrefix (index + 1) ∧
      config.components =
        (stageEntry stageServicePrefix numStages index (ranges.getD index [])).components ∧
      config.nextStageUrl =
        (stageEntry stageServicePrefix numStages index (ranges.getD index [])).nextStageUrl

/-- A written map is read back. -/
theorem readBack_of_written (h : Written v) (configPath : Bytes) :
    ∃ gateway, ReadBack (unlines (stageMapRows v)) configPath v.stageServicePrefix v.numLayers
      v.numStages v.ranges gateway := by
  obtain ⟨gateway, hload, hlayers, hfirst, hpartitions⟩ := gateway_loads h configPath
  have hsection : OneSection (getLines (unlines (stageMapRows v))) (beforeStages v)
      (ascii "inference_stages:") (stageRows v) [] (topologyLines v) := by
    rw [getLines_stageMapRows h]
    exact oneSection h
  refine ⟨gateway, hload, hlayers, hfirst, ?_, ?_, fun index hindex => ?_⟩
  · rw [hpartitions, List.map_map]
    rfl
  · rw [hpartitions, map_gatewayEntry]
  · have hmem : gatewayEntry v index ∈ gateway.partitions := by
      rw [hpartitions]
      exact List.mem_map_of_mem (List.mem_range.mpr hindex)
    obtain ⟨config, hconfig, hagrees⟩ := agrees_of_oneSection hsection hload hmem
    exact ⟨config, hconfig, hagrees.serviceName, hagrees.components, hagrees.nextStageUrl⟩

end Graph

section Inputs

/-- A letter, a digit, a point, an underscore or a dash. -/
def isNameByte (b : UInt8) : Bool := isSlugByte b || (65 ≤ b && b ≤ 90)

def NameText (text : Bytes) : Prop := ∀ b ∈ text, isNameByte b = true

instance (text : Bytes) : Decidable (NameText text) :=
  inferInstanceAs (Decidable (∀ b ∈ text, isNameByte b = true))

instance (text : Bytes) : Decidable (Plain text) :=
  inferInstanceAs (Decidable (∀ b ∈ text, 32 < b ∧ b ≠ 34 ∧ b ≠ 39))

theorem plain_of_name {text : Bytes} (h : NameText text) : Plain text := by
  have hall : ∀ n < 256, isNameByte (UInt8.ofNat n) = true →
      32 < UInt8.ofNat n ∧ UInt8.ofNat n ≠ 34 ∧ UInt8.ofNat n ≠ 39 := by decide +kernel
  intro b hb
  have hbyte := hall b.toNat b.toNat_lt
  rw [UInt8.ofNat_toNat] at hbyte
  exact hbyte (h b hb)

/-- Names for the controller. The path of the model has no blanks and no quotes. -/
structure NamedArgs (args : StageMapArgs) : Prop where
  modelName : NameText args.modelName
  modelSlug : NameText args.modelSlug
  gatewayServiceName : NameText args.gatewayServiceName
  stageServicePrefix : NameText args.stageServicePrefix
  physicalNodes : ∀ node ∈ args.physicalNodes, NameText node
  fullGgufFile : Plain args.fullGgufFile
  containerModelRoot : Plain args.containerModelRoot

/-- The nodes of a list, or between the commas of a text. -/
def NamedNodes : RawNodes → Prop
  | .array nodes => ∀ node ∈ nodes, NameText (ByteStrings.trimCopy node)
  | .text nodes => ∀ node ∈ nodes.splitOn 44, NameText (ByteStrings.trimCopy node)

instance : DecidablePred NamedNodes
  | .array nodes =>
    inferInstanceAs (Decidable (∀ node ∈ nodes, NameText (ByteStrings.trimCopy node)))
  | .text nodes =>
    inferInstanceAs (Decidable (∀ node ∈ nodes.splitOn 44, NameText (ByteStrings.trimCopy node)))

/-- Names for the operations UI. The model has a file. -/
structure NamedModel (model : NativeModel) : Prop where
  id : NameText model.id
  modelName : NameText model.modelName
  slug : NameText model.slug
  gatewayServiceName : NameText model.gatewayServiceName
  stageServicePrefix : NameText model.stageServicePrefix
  physicalNodes : NamedNodes model.physicalNodes
  someFile : basename (orElse model.fullGgufFile model.sourceFile) ≠ []
  fullGgufFile : Plain (basename (orElse model.fullGgufFile model.sourceFile))
  containerModelRoot : Plain model.containerModelRoot

theorem plain_of_subset {text text' : Bytes} (h : Plain text) (hsub : text' ⊆ text) :
    Plain text' :=
  fun b hb => h b (hsub hb)

theorem plain_orElse {value default : Bytes} (h : Plain value) (h' : Plain default) :
    Plain (orElse value default) := by
  rw [orElse]
  split
  · exact h'
  · exact h

theorem plain_stripTrailingSlashes {text : Bytes} (h : Plain text) :
    Plain (stripTrailingSlashes text) := by
  cases text with
  | nil => exact plain_nil
  | cons first rest =>
    refine plain_of_subset h (List.cons_subset_cons first ?_)
    exact (List.rdropWhile_prefix (· == 47) rest).subset

theorem collapseDashes_subset (text : Bytes) : collapseDashes text ⊆ text := by
  induction text with
  | nil => exact List.Subset.refl _
  | cons b rest ih =>
    rw [collapseDashes]
    split
    · exact List.subset_cons_of_subset b ih
    · exact List.cons_subset_cons b ih

/-- The slug of the UI is plain, whatever the id. -/
theorem plain_slugifyModelId (value : Bytes) : Plain (slugifyModelId value) := by
  have hdashed : NameText ((lowerCopy (ByteStrings.trimCopy value)).map fun b =>
      if isSlugByte b then b else 45) := by
    intro b hb
    obtain ⟨c, -, rfl⟩ := List.mem_map.mp hb
    cases hslug : isSlugByte c with
    | true =>
      rw [if_pos rfl, isNameByte, hslug, Bool.true_or]
    | false =>
      rw [if_neg Bool.false_ne_true]
      rfl
  refine plain_orElse (plain_of_subset (plain_of_name hdashed) ?_) (plain_of_all (by decide))
  exact List.Subset.trans (List.rdropWhile_prefix _ _).subset
    (List.Subset.trans (List.dropWhile_suffix _).subset (collapseDashes_subset _))

theorem plain_normalizePhysicalNodes {nodes : RawNodes} (h : NamedNodes nodes) (numStages : ℕ) :
    ∀ node ∈ normalizePhysicalNodes nodes numStages, Plain node := by
  intro node hnode
  rcases List.mem_append.mp (List.mem_of_mem_take hnode) with hgiven | hpadding
  · cases nodes with
    | array nodes =>
      obtain ⟨raw, hraw, rfl⟩ := List.mem_map.mp (List.mem_of_mem_filter hgiven)
      exact plain_of_name (h raw hraw)
    | text nodes =>
      obtain ⟨raw, hraw, rfl⟩ := List.mem_map.mp (List.mem_of_mem_filter hgiven)
      exact plain_of_name (h raw hraw)
  · obtain ⟨k, -, rfl⟩ := List.mem_map.mp hpadding
    exact plain_append (plain_of_all (by decide)) (plain_decimalNat _)

/-- Both generators split the layers evenly. -/
theorem balanced_split {layers stages : ℤ} (hstages : 1 ≤ stages) (hlayers : stages ≤ layers) :
    Balanced layers.toNat stages.toNat
      (splitLoop (layers / stages) (layers % stages) stages.toNat 0 0) := by
  obtain ⟨n, rfl⟩ := Int.eq_ofNat_of_zero_le (show 0 ≤ stages by omega)
  obtain ⟨m, rfl⟩ := Int.eq_ofNat_of_zero_le (show 0 ≤ layers by omega)
  exact splitLoop_balanced (by omega) (by omega)

theorem ranges_nonempty {v : StageMapValues} (h : Written v) :
    ∀ index < v.numStages, v.ranges.getD index [] ≠ [] := by
  intro index hindex
  have hlength : index < v.ranges.length := by rw [h.ranges.count]; exact hindex
  rw [List.getD_eq_getElem _ _ hlength]
  exact h.ranges.nonempty _ (List.getElem_mem hlength)

/-- The last line ends with no blank. -/
theorem topologyLines_last (v : StageMapValues) :
    ∃ start line last, isSpace last = false ∧ topologyLines v = start ++ [line ++ [last]] := by
  rw [topologyLines]
  cases v.numStages - 1 with
  | zero =>
    exact ⟨[ascii "topology:", ascii "  probe_timeout_seconds: 0.25"],
      ascii "  route_candidates", 58, rfl, rfl⟩
  | succ n =>
    refine ⟨[ascii "topology:", ascii "  probe_timeout_seconds: 0.25",
        ascii "  route_candidates:"] ++ ((List.range n).flatMap fun index =>
          [ascii "    \"" ++ decimalNat (index + 1) ++ ascii "\":",
            ascii "    - " ++ stageUrl v.stageServicePrefix (index + 2)]) ++
        [ascii "    \"" ++ decimalNat (n + 1) ++ ascii "\":"],
      ascii "    - " ++ (ascii "http://" ++ stageServiceName v.stageServicePrefix (n + 2) ++
        ascii ":8000/forward-binar"), 121, rfl, ?_⟩
    have hurl : stageUrl v.stageServicePrefix (n + 2) =
        ascii "http://" ++ stageServiceName v.stageServicePrefix (n + 2) ++
          ascii ":8000/forward-binar" ++ [121] := by
      rw [stageUrl, List.append_assoc _ (ascii ":8000/forward-binar")]
      rfl
    rw [List.range_succ, List.flatMap_append, List.flatMap_singleton, hurl]
    simp only [List.append_assoc, List.cons_append, List.nil_append]

/-- The UI cuts nothing off. -/
theorem joinTrimmed_stageMapLines (v : StageMapValues) :
    joinTrimmed (stageMapLines v) = unlines (stageMapLines v) := by
  obtain ⟨start, line, last, hlast, hlines⟩ := topologyLines_last v
  have hsplit : stageMapLines v =
      headLines v ++ (List.range v.numStages).flatMap (stageBlock v) ++ start ++
        [line ++ [last]] := by
    rw [stageMapLines, hlines, List.append_assoc _ start]
  exact joinTrimmed_eq hlast hsplit

end Inputs

section RoundTrip

/-- The text of the controller is read back. -/
theorem controller_reads_back {args : StageMapArgs} (h : NamedArgs args)
    (hstages : 1 ≤ args.numStages) (hfew : args.numStages ≤ args.numLayers)
    (hlayers : args.numLayers < 2 ^ 31) (configPath : Bytes) :
    ∃ ranges text gateway, splitLayers args.numLayers args.numStages = .ok ranges ∧
      Balanced args.numLayers.toNat args.numStages.toNat ranges ∧
      StageMapText.generateStageMap args = .ok text ∧
      ReadBack text configPath args.stageServicePrefix args.numLayers args.numStages.toNat ranges
        gateway := by
  have hsplit : splitLayers args.numLayers args.numStages =
      .ok (splitLoop (args.numLayers / args.numStages) (args.numLayers % args.numStages)
        args.numStages.toNat 0 0) := by
    rw [splitLayers, if_neg (by omega), if_neg (by omega), if_neg (by omega)]
  have hbalanced := balanced_split hstages hfew
  generalize splitLoop (args.numLayers / args.numStages) (args.numLayers % args.numStages)
    args.numStages.toNat 0 0 = ranges at hsplit hbalanced
  have hwritten : Written (args.values ranges) :=
    { modelName := plain_of_name h.modelName
      slug := plain_of_name h.modelSlug
      fullGgufFile := h.fullGgufFile
      modelRoot := plain_stripTrailingSlashes h.containerModelRoot
      gatewayServiceName := plain_of_name h.gatewayServiceName
      stageServicePrefix := plain_of_name h.stageServicePrefix
      physicalNodes := fun node hnode => plain_of_name (h.physicalNodes node hnode)
      layers := ⟨show 0 ≤ args.numLayers by omega, hlayers⟩
      stages := show (args.numStages.toNat : ℤ) ≤ args.numLayers by omega
      ranges := hbalanced
      some_stage := show 1 ≤ args.numStages.toNat by omega }
  obtain ⟨gateway, hread⟩ := readBack_of_written hwritten configPath
  rw [← unlines_stageMapLines (ranges_nonempty hwritten)] at hread
  refine ⟨ranges, unlines (stageMapLines (args.values ranges)), gateway, hsplit, hbalanced, ?_,
    hread⟩
  rw [StageMapText.generateStageMap, hsplit]
  rfl

/-- The text of the UI is read back. -/
theorem opsUi_reads_back {model : NativeModel} (h : NamedModel model)
    (hstages : 1 ≤ model.numStages) (hfew : model.numStages ≤ model.numLayers)
    (hlayers : model.numLayers < 2 ^ 31) (configPath : Bytes) :
    ∃ ranges text gateway, balancedLayerRanges model.numLayers model.numStages = .ok ranges ∧
      Balanced model.numLayers.toNat model.numStages.toNat ranges ∧
      generateNativeStageMapYaml model = .ok text ∧
      ReadBack text configPath (orElse model.stageServicePrefix (ascii "inference-native-stage"))
        model.numLayers model.numStages.toNat ranges gateway := by
  have hgiven : model.stages = model.numStages := if_neg (by omega)
  have hsplit : balancedLayerRanges model.numLayers model.numStages =
      .ok (splitLoop (model.numLayers / model.numStages) (model.numLayers % model.numStages)
        model.numStages.toNat 0 0) := by
    rw [balancedLayerRanges, if_neg (by omega), if_neg (by omega)]
  have hbalanced := balanced_split hstages hfew
  generalize splitLoop (model.numLayers / model.numStages) (model.numLayers % model.numStages)
    model.numStages.toNat 0 0 = ranges at hsplit hbalanced
  have hmodelName : NameText (orElse model.modelName model.id) := by
    rw [orElse]
    split
    · exact h.id
    · exact h.modelName
  have hroot : Plain (orElse model.containerModelRoot (ascii "/app/models")) :=
    plain_orElse h.containerModelRoot (plain_of_all (by decide))
  have hcount : (model.values ranges).numStages = model.numStages.toNat := by
    rw [← hgiven]
    rfl
  have hwritten : Written (model.values ranges) :=
    { modelName := plain_of_name hmodelName
      slug := plain_orElse (plain_of_name h.slug) (plain_slugifyModelId _)
      fullGgufFile := h.fullGgufFile
      modelRoot := plain_of_subset hroot (List.rdropWhile_prefix (· == 47) _).subset
      gatewayServiceName := plain_orElse (plain_of_name h.gatewayServiceName)
        (plain_of_all (by decide))
      stageServicePrefix := plain_orElse (plain_of_name h.stageServicePrefix)
        (plain_of_all (by decide))
      physicalNodes := plain_normalizePhysicalNodes h.physicalNodes _
      layers := ⟨show 0 ≤ model.numLayers by omega, hlayers⟩
      stages := by
        rw [hcount]
        change (model.numStages.toNat : ℤ) ≤ model.numLayers
        omega
      ranges := by
        rw [hcount]
        exact hbalanced
      some_stage := by
        rw [hcount]
        omega }
  obtain ⟨gateway, hread⟩ := readBack_of_written hwritten configPath
  rw [← unlines_stageMapLines (ranges_nonempty hwritten), hcount] at hread
  refine ⟨ranges, unlines (stageMapLines (model.values ranges)), gateway, hsplit, hbalanced, ?_,
    hread⟩
  have hfile : (basename (orElse model.fullGgufFile model.sourceFile)).isEmpty = false := by
    simpa using h.someFile
  rw [generateNativeStageMapYaml, hfile, hgiven, hsplit]
  change Except.ok (joinTrimmed (stageMapLines (model.values ranges))) = _
  rw [joinTrimmed_stageMapLines]

/-- Both readers get from the text of either generator what the generator chose. -/
theorem generated_maps_read_back (configPath : Bytes) :
    (∀ args : StageMapArgs, NamedArgs args → 1 ≤ args.numStages →
      args.numStages ≤ args.numLayers → args.numLayers < 2 ^ 31 →
      ∃ ranges text gateway, splitLayers args.numLayers args.numStages = .ok ranges ∧
        Balanced args.numLayers.toNat args.numStages.toNat ranges ∧
        StageMapText.generateStageMap args = .ok text ∧
        ReadBack text configPath args.stageServicePrefix args.numLayers args.numStages.toNat
          ranges gateway) ∧
      ∀ model : NativeModel, NamedModel model → 1 ≤ model.numStages →
        model.numStages ≤ model.numLayers → model.numLayers < 2 ^ 31 →
        ∃ ranges text gateway, balancedLayerRanges model.numLayers model.numStages = .ok ranges ∧
          Balanced model.numLayers.toNat model.numStages.toNat ranges ∧
          generateNativeStageMapYaml model = .ok text ∧
          ReadBack text configPath
            (orElse model.stageServicePrefix (ascii "inference-native-stage")) model.numLayers
            model.numStages.toNat ranges gateway :=
  ⟨fun _ hargs hstages hfew hlayers => controller_reads_back hargs hstages hfew hlayers configPath,
    fun _ hmodel hstages hfew hlayers => opsUi_reads_back hmodel hstages hfew hlayers configPath⟩

/-- Three layers on two stages. -/
def sampleArgs : StageMapArgs where
  modelName := ascii "tiny-llama"
  modelSlug := ascii "tiny"
  fullGgufFile := ascii "tiny.gguf"
  numLayers := 3
  numStages := 2
  gatewayServiceName := ascii "gateway"
  stageServicePrefix := ascii "stage"
  physicalNodes := [ascii "node_a", ascii "node_b"]
  containerModelRoot := ascii "/models/"

/-- The same model in the catalog of the UI, with its nodes in a text. -/
def sampleModel : NativeModel where
  modelName := ascii "tiny-llama"
  fullGgufFile := ascii "/files/tiny.gguf"
  numLayers := 3
  numStages := 2
  physicalNodes := .text (ascii "node_a, node_b")

theorem generated_maps_read_back_samples :
    (∃ ranges text gateway, splitLayers 3 2 = .ok ranges ∧ Balanced 3 2 ranges ∧
        StageMapText.generateStageMap sampleArgs = .ok text ∧
        ReadBack text [] (ascii "stage") 3 2 ranges gateway) ∧
      ∃ ranges text gateway, balancedLayerRanges 3 2 = .ok ranges ∧ Balanced 3 2 ranges ∧
        generateNativeStageMapYaml sampleModel = .ok text ∧
        ReadBack text [] (ascii "inference-native-stage") 3 2 ranges gateway := by
  have hargs : NamedArgs sampleArgs :=
    ⟨by decide +kernel, by decide +kernel, by decide +kernel, by decide +kernel,
      by decide +kernel, by decide +kernel, by decide +kernel⟩
  have hmodel : NamedModel sampleModel :=
    ⟨by decide +kernel, by decide +kernel, by decide +kernel, by decide +kernel,
      by decide +kernel, by decide +kernel, by decide +kernel, by decide +kernel,
      by decide +kernel⟩
  obtain ⟨hcontroller, hopsUi⟩ := generated_maps_read_back []
  exact ⟨hcontroller sampleArgs hargs (by decide) (by decide) (by decide),
    hopsUi sampleModel hmodel (by decide) (by decide) (by decide)⟩

end RoundTrip

end LayerInference.GeneratedStageMaps
