import LayerInference.StageCounts
import LayerInference.ConfigLines

/-!
# The text of a stage map

The controller and the operations UI write the same stage map: a section for the
gateway, an entry for every stage with its layers, and the candidates of the
routes. Both split the layers into consecutive runs that differ by one at most.
The UI joins its lines and cuts blanks at the end of the text.
-/

namespace LayerInference.StageMapText

open ByteStrings hiding trimCopy
open TextStreams ConfigLines StageCounts

/-- What is written, the same in both generators. -/
structure StageMapValues where
  modelName : Bytes
  slug : Bytes
  fullGgufFile : Bytes
  modelRoot : Bytes
  gatewayServiceName : Bytes
  stageServicePrefix : Bytes
  physicalNodes : List Bytes
  numLayers : ℤ
  numStages : ℕ
  ranges : List (List ℤ)

section Lines

def yamlIntList (values : List ℤ) (indent : ℕ) : Bytes :=
  let text := values.flatMap fun value =>
    List.replicate indent 32 ++ ascii "- " ++ decimal value ++ ascii "\n"
  if text.getLast? = some 10 then text.dropLast else text

def boolWord (value : Bool) : Bytes := if value then ascii "true" else ascii "false"

/-- The lines before the stages. -/
def headLines (v : StageMapValues) : List Bytes :=
  [ascii "model_name: " ++ v.modelName,
    ascii "model_slug: " ++ v.slug,
    ascii "model_path: " ++ (v.modelRoot ++ ascii "/" ++ v.slug ++ ascii "/" ++ v.fullGgufFile),
    ascii "num_layers: " ++ decimal v.numLayers,
    [],
    ascii "inference_gateway:",
    ascii "  service_name: " ++ v.gatewayServiceName,
    ascii "  port: 8000",
    ascii "  first_stage_url: " ++ stageUrl v.stageServicePrefix 1,
    [],
    ascii "inference_stages:"]

/-- The directory of the model. -/
def modelDir (v : StageMapValues) : Bytes := v.modelRoot ++ ascii "/" ++ v.slug

/-- Where a stage sends its frames; the last one sends none. -/
def nextStage (v : StageMapValues) (stageId : ℕ) : Bytes :=
  if stageId < v.numStages then stageUrl v.stageServicePrefix (stageId + 1) else ascii "null"

/-- The lines of a stage up to its layers. -/
def stageStart (v : StageMapValues) (index : ℕ) : List Bytes :=
  let stageId := index + 1
  [ascii "- stage_id: " ++ decimalNat stageId,
    ascii "  partition_id: " ++ (ascii "partition-" ++ decimalNat stageId),
    ascii "  service_name: " ++ stageServiceName v.stageServicePrefix stageId,
    ascii "  physical_node: " ++ v.physicalNodes.getD index [],
    ascii "  partition_file: " ++ (modelDir v ++ ascii "/stage_" ++ decimalNat stageId ++
      ascii ".pt"),
    ascii "  native_partition_file: " ++ (modelDir v ++ ascii "/partition-" ++
      decimalNat stageId ++ ascii ".dli.gguf"),
    ascii "  backend: llama",
    ascii "  components:",
    ascii "    embedding: " ++ boolWord (stageId == 1),
    ascii "    layers:"]

/-- The lines of a stage behind its layers. -/
def stageEnd (v : StageMapValues) (index : ℕ) : List Bytes :=
  let stageId := index + 1
  [ascii "    norm: " ++ boolWord (stageId == v.numStages),
    ascii "    lm_head: " ++ boolWord (stageId == v.numStages),
    ascii "  next_stage_url: " ++ nextStage v stageId,
    []]

def stageBlock (v : StageMapValues) (index : ℕ) : List Bytes :=
  stageStart v index ++ [yamlIntList (v.ranges.getD index []) 4] ++ stageEnd v index

/-- The lines behind the stages. -/
def topologyLines (v : StageMapValues) : List Bytes :=
  [ascii "topology:", ascii "  probe_timeout_seconds: 0.25", ascii "  route_candidates:"] ++
    (List.range (v.numStages - 1)).flatMap fun index =>
      [ascii "    \"" ++ decimalNat (index + 1) ++ ascii "\":",
        ascii "    - " ++ stageUrl v.stageServicePrefix (index + 2)]

def stageMapLines (v : StageMapValues) : List Bytes :=
  headLines v ++ (List.range v.numStages).flatMap (stageBlock v) ++ topologyLines v

end Lines

section Controller

/-- The arguments of the controller's `generate_stage_map`. The caller gives a
node for every stage. -/
structure StageMapArgs where
  modelName : Bytes
  modelSlug : Bytes
  fullGgufFile : Bytes
  numLayers : ℤ
  numStages : ℤ
  gatewayServiceName : Bytes
  stageServicePrefix : Bytes
  physicalNodes : List Bytes
  containerModelRoot : Bytes

/-- Slashes at the end are dropped, but not the first byte. -/
def stripTrailingSlashes : Bytes → Bytes
  | [] => []
  | first :: rest => first :: rest.rdropWhile (· == 47)

def StageMapArgs.values (args : StageMapArgs) (ranges : List (List ℤ)) : StageMapValues where
  modelName := args.modelName
  slug := args.modelSlug
  fullGgufFile := args.fullGgufFile
  modelRoot := stripTrailingSlashes args.containerModelRoot
  gatewayServiceName := args.gatewayServiceName
  stageServicePrefix := args.stageServicePrefix
  physicalNodes := args.physicalNodes
  numLayers := args.numLayers
  numStages := args.numStages.toNat
  ranges := ranges

def generateStageMap (args : StageMapArgs) : Except Bytes Bytes := do
  let ranges ← splitLayers args.numLayers args.numStages
  return unlines (stageMapLines (args.values ranges))

end Controller

section OpsUi

/-- The physical nodes of a model, a list or a text with commas. -/
inductive RawNodes where
  | array (nodes : List Bytes)
  | text (nodes : Bytes)

/-- A model of the UI's catalog; a text that is missing is empty. -/
structure NativeModel where
  id : Bytes := []
  modelName : Bytes := []
  slug : Bytes := []
  fullGgufFile : Bytes := []
  sourceFile : Bytes := []
  numLayers : ℤ := 0
  numStages : ℤ := 0
  physicalNodes : RawNodes := .array []
  gatewayServiceName : Bytes := []
  stageServicePrefix : Bytes := []
  containerModelRoot : Bytes := []

/-- `value || default` on texts. -/
def orElse (value default : Bytes) : Bytes := if value = [] then default else value

/-- Runs of dashes become one. -/
def collapseDashes : Bytes → Bytes
  | [] => []
  | b :: rest =>
    if b = 45 ∧ rest.head? = some 45 then collapseDashes rest else b :: collapseDashes rest

/-- A byte that a slug keeps. -/
def isSlugByte (b : UInt8) : Bool :=
  (97 ≤ b && b ≤ 122) || isDigit b || b == 46 || b == 95 || b == 45

/-- A byte that a slug does not begin or end with. -/
def isSlugEdge (b : UInt8) : Bool := b == 45 || b == 46 || b == 95

def slugifyModelId (value : Bytes) : Bytes :=
  let lower := lowerCopy (ByteStrings.trimCopy value)
  let dashed := collapseDashes (lower.map fun b => if isSlugByte b then b else 45)
  orElse ((dashed.dropWhile isSlugEdge).rdropWhile isSlugEdge) (ascii "model")

def basename (pathValue : Bytes) : Bytes :=
  ((pathValue.splitOn 47).filter fun part => !part.isEmpty).getLast?.getD []

def normalizePhysicalNodes (rawValue : RawNodes) (numStages : ℕ) : List Bytes :=
  let items := match rawValue with
    | .array nodes => nodes
    | .text nodes => nodes.splitOn 44
  let nodes := (items.map ByteStrings.trimCopy).filter fun node => !node.isEmpty
  let padding := (List.range (numStages - nodes.length)).map fun k =>
    ascii "dli-worker-" ++ decimalNat (nodes.length + k + 1)
  (nodes ++ padding).take numStages

def balancedLayerRanges (layers stages : ℤ) : Except Bytes (List (List ℤ)) :=
  if layers ≤ 0 then .error (ascii "numLayers must be a positive integer.")
  else if stages ≤ 0 ∨ stages > layers then
    .error (ascii "numStages must be a positive integer no larger than numLayers.")
  else .ok (splitLoop (layers / stages) (layers % stages) stages.toNat 0 0)

def NativeModel.stages (model : NativeModel) : ℤ :=
  if model.numStages = 0 then 4 else model.numStages

def NativeModel.values (model : NativeModel) (ranges : List (List ℤ)) : StageMapValues :=
  let modelName := orElse model.modelName model.id
  { modelName := modelName
    slug := orElse model.slug (slugifyModelId modelName)
    fullGgufFile := basename (orElse model.fullGgufFile model.sourceFile)
    modelRoot := (orElse model.containerModelRoot (ascii "/app/models")).rdropWhile (· == 47)
    gatewayServiceName := orElse model.gatewayServiceName (ascii "inference-native-gateway")
    stageServicePrefix := orElse model.stageServicePrefix (ascii "inference-native-stage")
    physicalNodes := normalizePhysicalNodes model.physicalNodes model.stages.toNat
    numLayers := model.numLayers
    numStages := model.stages.toNat
    ranges := ranges }

/-- Lines with line breaks between them, without blanks at the end, and a line
break behind. -/
def joinTrimmed (lines : List Bytes) : Bytes :=
  ([10].intercalate lines).rdropWhile isSpace ++ [10]

def generateNativeStageMapYaml (model : NativeModel) : Except Bytes Bytes :=
  if (basename (orElse model.fullGgufFile model.sourceFile)).isEmpty then
    .error (ascii
      "fullGgufFile or sourceFile is required to generate native stage_map.yaml.")
  else do
    let ranges ← balancedLayerRanges model.numLayers model.stages
    return joinTrimmed (stageMapLines (model.values ranges))

end OpsUi

section Splits

/-- Consecutive runs of layers, of lengths that differ by one at most. -/
structure Balanced (numLayers numStages : ℕ) (ranges : List (List ℤ)) : Prop where
  count : ranges.length = numStages
  cover : ranges.flatten = (List.range numLayers).map Nat.cast
  contiguous : ∀ layers ∈ ranges, ∃ start : ℤ,
    layers = (List.range layers.length).map fun k : ℕ => start + (k : ℤ)
  even : ∀ layers ∈ ranges, ∀ layers' ∈ ranges, layers.length ≤ layers'.length + 1
  nonempty : ∀ layers ∈ ranges, layers ≠ []

variable {base remainder : ℤ}

theorem splitLoop_succ (stages : ℕ) (index cursor : ℤ) :
    splitLoop base remainder (stages + 1) index cursor =
      ((List.range (base + if index < remainder then 1 else 0).toNat).map
        fun k : ℕ => cursor + (k : ℤ)) ::
          splitLoop base remainder stages (index + 1)
            (cursor + (base + if index < remainder then 1 else 0)) := by
  have hcast (n : ℕ) : (do let k ← List.range n; pure (k : ℤ)) =
      (List.range n).map fun k : ℕ => (k : ℤ) := by
    rw [← List.flatMap_pure_eq_map]
    rfl
  rw [splitLoop, hcast, List.map_map]
  rfl

theorem splitLoop_length (stages : ℕ) (index cursor : ℤ) :
    (splitLoop base remainder stages index cursor).length = stages := by
  induction stages generalizing index cursor with
  | zero => rfl
  | succ stages ih => rw [splitLoop_succ, List.length_cons, ih]

/-- Every run starts somewhere and has the base length or one more. -/
theorem splitLoop_runs (stages : ℕ) (index cursor : ℤ) :
    ∀ layers ∈ splitLoop base remainder stages index cursor,
      ∃ start : ℤ, ∃ size : ℤ, (size = base ∨ size = base + 1) ∧
        layers = (List.range size.toNat).map fun k : ℕ => start + (k : ℤ) := by
  induction stages generalizing index cursor with
  | zero => exact fun layers h => nomatch h
  | succ stages ih =>
    intro layers h
    rw [splitLoop_succ] at h
    rcases List.mem_cons.mp h with rfl | htail
    · refine ⟨cursor, _, ?_, rfl⟩
      split
      · exact .inr rfl
      · exact .inl (add_zero base)
    · exact ih _ _ layers htail

/-- The runs one after the other are all layers from the cursor on. -/
theorem splitLoop_flatten (hbase : 0 ≤ base) (stages : ℕ) (index cursor : ℤ) :
    (splitLoop base remainder stages index cursor).flatten =
      (List.range (base * stages + max 0 (min (remainder - index) stages)).toNat).map
        fun k : ℕ => cursor + (k : ℤ) := by
  induction stages generalizing index cursor with
  | zero =>
    have hzero : (base * (0 : ℕ) + max 0 (min (remainder - index) (0 : ℕ))).toNat = 0 := by
      rw [Nat.cast_zero, mul_zero]
      omega
    rw [hzero]
    rfl
  | succ stages ih =>
    have hsize : 0 ≤ base + if index < remainder then 1 else 0 := by
      split <;> omega
    have htotal : (base * (stages + 1 : ℕ) +
        max 0 (min (remainder - index) (stages + 1 : ℕ))).toNat =
        (base + if index < remainder then 1 else 0).toNat +
          (base * stages + max 0 (min (remainder - (index + 1)) stages)).toNat := by
      have hproduct : base * (stages + 1 : ℕ) = base * stages + base := by
        rw [Nat.cast_succ, mul_add, mul_one]
      have hnonneg : 0 ≤ base * stages := mul_nonneg hbase (Int.natCast_nonneg stages)
      rw [hproduct, Nat.cast_succ]
      split <;> omega
    rw [splitLoop_succ, List.flatten_cons, ih, htotal, List.range_add, List.map_append, List.map_map]
    congr 1
    refine List.map_congr_left fun k _ => ?_
    change cursor + (base + if index < remainder then 1 else 0) + (k : ℤ) =
      cursor + ((base + if index < remainder then 1 else 0).toNat + k : ℕ)
    rw [Nat.cast_add, Int.toNat_of_nonneg hsize, add_assoc]

/-- The split of all layers over the stages. -/
theorem splitLoop_balanced {numLayers numStages : ℕ} (hstages : 1 ≤ numStages)
    (hlayers : numStages ≤ numLayers) :
    Balanced numLayers numStages
      (splitLoop ((numLayers : ℤ) / numStages) ((numLayers : ℤ) % numStages) numStages 0 0) := by
  have hbase : 1 ≤ (numLayers : ℤ) / numStages :=
    (Int.le_ediv_iff_mul_le (by omega)).mpr (by omega)
  have hremainder := Int.emod_lt_of_pos (numLayers : ℤ) (show (0 : ℤ) < numStages by omega)
  have hpositive := Int.emod_nonneg (numLayers : ℤ) (show (numStages : ℤ) ≠ 0 by omega)
  have hruns : ∀ layers ∈ splitLoop ((numLayers : ℤ) / numStages)
      ((numLayers : ℤ) % numStages) numStages 0 0,
      ∃ start : ℤ, ∃ size : ℤ,
        (size = (numLayers : ℤ) / numStages ∨ size = (numLayers : ℤ) / numStages + 1) ∧
        layers = (List.range size.toNat).map fun k : ℕ => start + (k : ℤ) :=
    splitLoop_runs numStages 0 0
  have hlength : ∀ layers ∈ splitLoop ((numLayers : ℤ) / numStages)
      ((numLayers : ℤ) % numStages) numStages 0 0,
      (layers.length : ℤ) = (numLayers : ℤ) / numStages ∨
        (layers.length : ℤ) = (numLayers : ℤ) / numStages + 1 := by
    intro layers h
    obtain ⟨start, size, hsize, rfl⟩ := hruns layers h
    rw [List.length_map, List.length_range]
    omega
  refine ⟨splitLoop_length numStages 0 0, ?_, fun layers h => ?_, fun layers h layers' h' => ?_,
    fun layers h hnil => ?_⟩
  · have htotal : ((numLayers : ℤ) / numStages * numStages +
        max 0 (min ((numLayers : ℤ) % numStages - 0) numStages)).toNat = numLayers := by
      have hdivision := Int.ediv_mul_add_emod (numLayers : ℤ) numStages
      omega
    rw [splitLoop_flatten (by omega), htotal]
    exact List.map_congr_left fun (k : ℕ) _ => zero_add (k : ℤ)
  · obtain ⟨start, size, -, rfl⟩ := hruns layers h
    exact ⟨start, by rw [List.length_map, List.length_range]⟩
  · have hlong := hlength layers h
    have hshort := hlength layers' h'
    omega
  · have hsome := hlength layers h
    rw [hnil, List.length_nil] at hsome
    omega

end Splits

section Rows

/-- A line of a list of layers. -/
def layerRow (layer : ℤ) : Bytes := ascii "    - " ++ decimal layer

/-- The lines of a stage, with one line for every layer. -/
def blockRows (v : StageMapValues) (index : ℕ) : List Bytes :=
  stageStart v index ++ (v.ranges.getD index []).map layerRow ++ stageEnd v index

def stageMapRows (v : StageMapValues) : List Bytes :=
  headLines v ++ (List.range v.numStages).flatMap (blockRows v) ++ topologyLines v

/-- A list of layers that is not empty takes one line for every layer. -/
theorem unlines_yamlIntList {layers : List ℤ} (h : layers ≠ []) :
    unlines [yamlIntList layers 4] = unlines (layers.map layerRow) := by
  have htext : (layers.flatMap fun value =>
      List.replicate 4 32 ++ ascii "- " ++ decimal value ++ ascii "\n") =
        unlines (layers.map layerRow) := by
    rw [unlines, List.flatMap_map]
    rfl
  obtain ⟨rest, last, rfl⟩ := (List.eq_nil_or_concat' layers).resolve_left h
  have hsplit : unlines ((rest ++ [last]).map layerRow) =
      unlines (rest.map layerRow) ++ layerRow last ++ [10] := by
    rw [List.map_append, unlines_append]
    simp only [unlines, List.map_singleton, List.flatMap_singleton, List.append_assoc]
  rw [yamlIntList, htext, hsplit]
  rw [List.getLast?_concat, if_pos rfl, List.dropLast_concat, unlines, List.flatMap_singleton]

theorem unlines_flatMap {α : Type} {f g : α → List Bytes} {xs : List α}
    (h : ∀ x ∈ xs, unlines (f x) = unlines (g x)) :
    unlines (xs.flatMap f) = unlines (xs.flatMap g) := by
  induction xs with
  | nil => rfl
  | cons x xs ih =>
    rw [List.flatMap_cons, List.flatMap_cons, unlines_append, unlines_append,
      h x List.mem_cons_self, ih fun y hy => h y (List.mem_cons_of_mem x hy)]

/-- The text of the controller, row by row. -/
theorem unlines_stageMapLines {v : StageMapValues}
    (h : ∀ index < v.numStages, v.ranges.getD index [] ≠ []) :
    unlines (stageMapLines v) = unlines (stageMapRows v) := by
  have hblocks : unlines ((List.range v.numStages).flatMap (stageBlock v)) =
      unlines ((List.range v.numStages).flatMap (blockRows v)) := by
    refine unlines_flatMap fun index hindex => ?_
    rw [stageBlock, blockRows, unlines_append, unlines_append, unlines_append, unlines_append,
      unlines_yamlIntList (h index (List.mem_range.mp hindex))]
  rw [stageMapLines, stageMapRows, unlines_append, unlines_append, unlines_append, unlines_append,
    hblocks]

/-- Joined lines are lines with a break behind each. -/
theorem intercalate_concat {lines : List Bytes} (h : lines ≠ []) :
    [10].intercalate lines ++ [10] = unlines lines := by
  induction lines with
  | nil => exact absurd rfl h
  | cons line lines ih =>
    cases lines with
    | nil =>
      rw [unlines, List.flatMap_singleton]
      simp [List.intercalate]
    | cons next rest =>
      have hjoin : [10].intercalate (line :: next :: rest) =
          line ++ 10 :: [10].intercalate (next :: rest) := by
        simp [List.intercalate, List.intersperse]
      have hrest := ih (List.cons_ne_nil next rest)
      have hfirst : unlines (line :: next :: rest) = line ++ [10] ++ unlines (next :: rest) := rfl
      rw [hjoin, List.append_assoc, List.cons_append, hrest, hfirst, List.append_assoc]
      rfl

/-- Nothing is cut off behind a line that ends with no blank. -/
theorem joinTrimmed_eq {lines : List Bytes} {last : UInt8} (hlast : isSpace last = false)
    {start : List Bytes} {line : Bytes} (h : lines = start ++ [line ++ [last]]) :
    joinTrimmed lines = unlines lines := by
  have hne : lines ≠ [] := by
    rw [h]
    exact List.append_ne_nil_of_right_ne_nil _ (List.cons_ne_nil _ _)
  have hjoin : [10].intercalate lines ++ [10] =
      (unlines start ++ line ++ [last]) ++ [10] := by
    rw [intercalate_concat hne, h, unlines_append]
    simp only [unlines, List.flatMap_singleton, List.append_assoc]
  have htext := List.append_cancel_right hjoin
  rw [joinTrimmed, htext, List.rdropWhile_concat_neg _ _ _ (by rw [hlast]; exact Bool.false_ne_true),
    ← htext, intercalate_concat hne]

end Rows

end LayerInference.StageMapText
