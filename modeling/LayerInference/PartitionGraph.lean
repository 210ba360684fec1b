import LayerInference.PartitionRouting
import LayerInference.TensorAbi
import Mathlib.Data.List.Sort
import Mathlib.Data.List.Perm.Lattice
import Mathlib.Data.List.Range

/-!
# Validation of the partition graph

The gateway checks its partitions as a set: identifiers are present, embedding
and output matrix have one owner each, one partition ends the route, and the
layers are covered without repetition. The order in which the partitions and
their layers are listed is not checked. A valid graph is routed correctly
exactly when this order is the order of the pipeline.
-/

namespace LayerInference.PartitionGraph

open ByteStrings PartitionRouting

/-- What the validator reports. -/
structure PartitionGraphValidation where
  valid : Bool := false
  error : Bytes := []
  assignedLayerCount : ℕ := 0
  embeddingOwnerCount : ℕ := 0
  lmHeadOwnerCount : ℕ := 0
  terminalPartitionId : Bytes := []
  deriving DecidableEq

/-- The accumulators of the pass over the partitions. -/
structure GraphScan where
  assignedLayers : List ℤ := []
  embeddingOwnerCount : ℕ := 0
  lmHeadOwnerCount : ℕ := 0
  terminalCount : ℕ := 0
  terminalPartitionId : Bytes := []

def joinInts (values : List ℤ) : Bytes :=
  (ascii ",").intercalate (values.map decimal)

/-- The checks of one layer identifier. -/
def scanLayer (partitionId : Bytes) (numLayers : ℤ) (assignedLayers : List ℤ) (layer : ℤ) :
    Except Bytes (List ℤ) :=
  if layer < 0 then
    .error (ascii "partition " ++ partitionId ++ ascii " contains negative layer id")
  else if numLayers > 0 ∧ layer ≥ numLayers then
    .error (ascii "partition " ++ partitionId ++ ascii " contains layer id outside num_layers: " ++
      decimal layer)
  else .ok (assignedLayers ++ [layer])

/-- The checks and counts of one partition. -/
def scanPartition (numLayers : ℤ) (scan : GraphScan) (partition : PartitionNodeConfig) :
    Except Bytes GraphScan :=
  if partition.partitionId.isEmpty then
    .error (ascii "partition with empty partition_id found")
  else if partition.serviceName.isEmpty then
    .error (ascii "partition " ++ partition.partitionId ++ ascii " has empty service_name")
  else if partition.nextStageUrl.isEmpty ∧ partition.components.lmHead = false then
    .error (ascii "terminal partition " ++ partition.partitionId ++ ascii " does not own lm_head")
  else do
    let assignedLayers ← partition.components.layers.foldlM
      (scanLayer partition.partitionId numLayers) scan.assignedLayers
    .ok
      { assignedLayers := assignedLayers
        embeddingOwnerCount := scan.embeddingOwnerCount + partition.components.embedding.toNat
        lmHeadOwnerCount := scan.lmHeadOwnerCount + partition.components.lmHead.toNat
        terminalCount := scan.terminalCount + partition.nextStageUrl.isEmpty.toNat
        terminalPartitionId :=
          if partition.nextStageUrl.isEmpty then partition.partitionId
          else scan.terminalPartitionId }

/-- Collect an identifier that equals its predecessor, once. -/
def duplicateStep (duplicates : List ℤ) (pair : ℤ × ℤ) : List ℤ :=
  if pair.2 = pair.1 ∧ duplicates.getLast? ≠ some pair.2 then duplicates ++ [pair.2]
  else duplicates

/-- Repeated entries of a sorted list. -/
def duplicateLayers (sorted : List ℤ) : List ℤ :=
  (sorted.zip sorted.tail).foldl duplicateStep []

/-- Advance over a layer that is assigned, note one that is missing. -/
def missingStep (sorted : List ℤ) (state : ℕ × List ℤ) (layer : ℕ) : ℕ × List ℤ :=
  if sorted[state.1]? = some (layer : ℤ) then (state.1 + 1, state.2)
  else (state.1, state.2 ++ [(layer : ℤ)])

/-- The layers below `numLayers` that a sorted list does not contain. -/
def missingLayers (sorted : List ℤ) (numLayers : ℤ) : List ℤ :=
  ((List.range numLayers.toNat).foldl (missingStep sorted) (0, [])).2

def validatePartitionGraph (partitions : List PartitionNodeConfig) (numLayers : ℤ) :
    PartitionGraphValidation :=
  if partitions.isEmpty then { error := ascii "partition graph is empty" }
  else
    match partitions.foldlM (scanPartition numLayers) {} with
    | .error message => { error := message }
    | .ok scan =>
      let sorted := scan.assignedLayers.insertionSort (· ≤ ·)
      if scan.embeddingOwnerCount ≠ 1 then
        { error := ascii "expected exactly one embedding owner, got " ++
            decimalNat scan.embeddingOwnerCount }
      else if scan.lmHeadOwnerCount ≠ 1 then
        { error := ascii "expected exactly one lm_head owner, got " ++
            decimalNat scan.lmHeadOwnerCount }
      else if scan.terminalCount ≠ 1 then
        { error := ascii "expected exactly one terminal partition, got " ++
            decimalNat scan.terminalCount }
      else if duplicateLayers sorted ≠ [] then
        { error := ascii "duplicate layer assignments: " ++ joinInts (duplicateLayers sorted) }
      else if numLayers > 0 ∧ missingLayers sorted numLayers ≠ [] then
        { error := ascii "missing layer assignments: " ++
            joinInts (missingLayers sorted numLayers) }
      else
        { valid := true
          assignedLayerCount := scan.assignedLayers.length
          embeddingOwnerCount := scan.embeddingOwnerCount
          lmHeadOwnerCount := scan.lmHeadOwnerCount
          terminalPartitionId := scan.terminalPartitionId }

/-- The layers of all partitions in list order. -/
def flatLayers (partitions : List PartitionNodeConfig) : List ℤ :=
  partitions.flatMap fun partition => partition.components.layers

/-- What the validator establishes. -/
structure WellFormedGraph (partitions : List PartitionNodeConfig) (numLayers : ℤ) : Prop where
  nonempty : partitions ≠ []
  named : ∀ partition ∈ partitions, partition.partitionId ≠ [] ∧ partition.serviceName ≠ []
  embeddingOwner : partitions.countP (fun p => p.components.embedding) = 1
  lmHeadOwner : partitions.countP (fun p => p.components.lmHead) = 1
  terminal : partitions.countP (fun p => p.nextStageUrl.isEmpty) = 1
  terminalOwner : ∀ partition ∈ partitions, partition.nextStageUrl = [] →
    partition.components.lmHead = true
  layers : (flatLayers partitions).Perm ((List.range numLayers.toNat).map fun n : ℕ => (n : ℤ))

theorem scanLayers_ok {partitionId : Bytes} {numLayers : ℤ} {layers assigned assigned' : List ℤ}
    (h : layers.foldlM (scanLayer partitionId numLayers) assigned = .ok assigned') :
    assigned' = assigned ++ layers ∧ ∀ l ∈ layers, 0 ≤ l ∧ (0 < numLayers → l < numLayers) := by
  induction layers generalizing assigned with
  | nil =>
    cases h
    exact ⟨(List.append_nil _).symm, fun l hl => absurd hl List.not_mem_nil⟩
  | cons layer layers ih =>
    rw [List.foldlM_cons] at h
    unfold scanLayer at h
    split at h
    · cases h
    · next hneg =>
      split at h
      · cases h
      · next hrange =>
        obtain ⟨rfl, hlayers⟩ := ih h
        refine ⟨by rw [List.append_assoc, List.singleton_append], fun l hl => ?_⟩
        rcases List.mem_cons.mp hl with rfl | hl
        · exact ⟨by omega, fun hpos => by omega⟩
        · exact hlayers l hl

/-- What the pass over some partitions has established and counted. -/
structure Scanned (numLayers : ℤ) (partitions : List PartitionNodeConfig)
    (scan scan' : GraphScan) : Prop where
  assigned : scan'.assignedLayers = scan.assignedLayers ++ flatLayers partitions
  embedding : scan'.embeddingOwnerCount =
    scan.embeddingOwnerCount + partitions.countP (fun p => p.components.embedding)
  lmHead : scan'.lmHeadOwnerCount =
    scan.lmHeadOwnerCount + partitions.countP (fun p => p.components.lmHead)
  terminal : scan'.terminalCount =
    scan.terminalCount + partitions.countP (fun p => p.nextStageUrl.isEmpty)
  named : ∀ p ∈ partitions, p.partitionId ≠ [] ∧ p.serviceName ≠ []
  terminalOwner : ∀ p ∈ partitions, p.nextStageUrl = [] → p.components.lmHead = true
  inRange : ∀ l ∈ flatLayers partitions, 0 ≤ l ∧ (0 < numLayers → l < numLayers)

theorem toNat_add_countP (b : Bool) (n : ℕ) : b.toNat + n = n + if b = true then 1 else 0 := by
  cases b <;> simp [Nat.add_comm]

theorem scanned_cons {numLayers : ℤ} {partition : PartitionNodeConfig}
    {partitions : List PartitionNodeConfig} {scan scan' scan'' : GraphScan}
    (h : scanPartition numLayers scan partition = .ok scan')
    (hrest : Scanned numLayers partitions scan' scan'') :
    Scanned numLayers (partition :: partitions) scan scan'' := by
  unfold scanPartition at h
  split at h
  · cases h
  · next hid =>
    split at h
    · cases h
    · next hservice =>
      split at h
      · cases h
      · next howner =>
        cases hlayers : partition.components.layers.foldlM
            (scanLayer partition.partitionId numLayers) scan.assignedLayers with
        | error message =>
          rw [hlayers] at h
          cases h
        | ok assigned =>
          rw [hlayers] at h
          cases h
          obtain ⟨rfl, hrange⟩ := scanLayers_ok hlayers
          refine ⟨?_, ?_, ?_, ?_, fun p hp => ?_, fun p hp hurl => ?_, fun l hl => ?_⟩
          · rw [hrest.assigned, List.append_assoc]
            rfl
          · rw [hrest.embedding, List.countP_cons, Nat.add_assoc, toNat_add_countP]
          · rw [hrest.lmHead, List.countP_cons, Nat.add_assoc, toNat_add_countP]
          · rw [hrest.terminal, List.countP_cons, Nat.add_assoc, toNat_add_countP]
          · rcases List.mem_cons.mp hp with rfl | hp
            · exact ⟨by simpa using hid, by simpa using hservice⟩
            · exact hrest.named p hp
          · rcases List.mem_cons.mp hp with rfl | hp
            · simpa [hurl] using howner
            · exact hrest.terminalOwner p hp hurl
          · rw [flatLayers, List.flatMap_cons, List.mem_append] at hl
            rcases hl with hl | hl
            · exact hrange l hl
            · exact hrest.inRange l hl

theorem scanned_of_foldlM {numLayers : ℤ} {partitions : List PartitionNodeConfig}
    {scan scan' : GraphScan} (h : partitions.foldlM (scanPartition numLayers) scan = .ok scan') :
    Scanned numLayers partitions scan scan' := by
  induction partitions generalizing scan with
  | nil =>
    cases h
    exact ⟨(List.append_nil _).symm, rfl, rfl, rfl, fun p hp => absurd hp List.not_mem_nil,
      fun p hp => absurd hp List.not_mem_nil, fun l hl => absurd hl List.not_mem_nil⟩
  | cons partition partitions ih =>
    rw [List.foldlM_cons] at h
    cases hstep : scanPartition numLayers scan partition with
    | error message =>
      rw [hstep] at h
      cases h
    | ok next =>
      rw [hstep] at h
      exact scanned_cons hstep (ih h)

/-- Nothing collected means that no pair repeats. -/
theorem pairs_ne_of_duplicates_nil {pairs : List (ℤ × ℤ)} {duplicates : List ℤ}
    (h : pairs.foldl duplicateStep duplicates = []) :
    duplicates = [] ∧ ∀ pair ∈ pairs, pair.2 ≠ pair.1 := by
  induction pairs generalizing duplicates with
  | nil => exact ⟨h, fun pair hp => absurd hp List.not_mem_nil⟩
  | cons pair pairs ih =>
    rw [List.foldl_cons] at h
    obtain ⟨hstep, hpairs⟩ := ih h
    have hnil : duplicates = [] ∧ pair.2 ≠ pair.1 := by
      unfold duplicateStep at hstep
      split at hstep
      · simp at hstep
      · next hnot =>
        subst hstep
        exact ⟨rfl, fun heq => hnot ⟨heq, by simp⟩⟩
    refine ⟨hnil.1, fun p hp => ?_⟩
    rcases List.mem_cons.mp hp with rfl | hp
    · exact hnil.2
    · exact hpairs p hp

/-- A sorted list without equal neighbours has no repetition. -/
theorem nodup_of_duplicateLayers {sorted : List ℤ} (hsorted : sorted.Pairwise (· ≤ ·))
    (h : duplicateLayers sorted = []) : sorted.Nodup := by
  have hpairs := (pairs_ne_of_duplicates_nil h).2
  clear h
  induction sorted with
  | nil => exact List.nodup_nil
  | cons a rest ih =>
    cases rest with
    | nil => exact List.nodup_singleton a
    | cons b rest =>
      have htail := ih hsorted.of_cons fun pair hp => hpairs pair (List.mem_cons_of_mem _ hp)
      have hab : b ≠ a := hpairs (a, b) List.mem_cons_self
      refine List.nodup_cons.mpr ⟨fun ha => ?_, htail⟩
      -- Everything behind `b` is at least `b`, which is greater than `a`.
      have hle : a ≤ b := List.rel_of_pairwise_cons hsorted List.mem_cons_self
      rcases List.mem_cons.mp ha with rfl | ha
      · exact hab rfl
      · have hba : b ≤ a := List.rel_of_pairwise_cons hsorted.of_cons ha
        omega

/-- Nothing missing means that every layer stands at its own position. -/
theorem getElem_of_missing_nil {sorted : List ℤ} {n : ℕ}
    (h : ((List.range n).foldl (missingStep sorted) (0, [])).2 = []) :
    ((List.range n).foldl (missingStep sorted) (0, [])).1 = n ∧
      ∀ k < n, sorted[k]? = some (k : ℤ) := by
  induction n with
  | zero => exact ⟨rfl, fun k hk => absurd hk (Nat.not_lt_zero k)⟩
  | succ n ih =>
    rw [List.range_succ, List.foldl_append, List.foldl_cons, List.foldl_nil] at h ⊢
    generalize (List.range n).foldl (missingStep sorted) (0, []) = state at h ih ⊢
    unfold missingStep at h ⊢
    split at h
    · next hn =>
      obtain ⟨hcursor, hall⟩ := ih h
      rw [if_pos hn]
      rw [hcursor] at hn
      refine ⟨congrArg (· + 1) hcursor, fun k hk => ?_⟩
      rcases Nat.lt_succ_iff_lt_or_eq.mp hk with hlt | rfl
      · exact hall k hlt
      · exact hn
    · simp at h

/-- A sorted list that passes both checks is a permutation of the layers. -/
theorem perm_range_of_checks {sorted : List ℤ} {numLayers : ℤ}
    (hsorted : sorted.Pairwise (· ≤ ·)) (hrange : ∀ l ∈ sorted, 0 ≤ l ∧ l < numLayers)
    (hdup : duplicateLayers sorted = []) (hmissing : missingLayers sorted numLayers = []) :
    sorted.Perm ((List.range numLayers.toNat).map fun n : ℕ => (n : ℤ)) := by
  have hnodup : ((List.range numLayers.toNat).map fun n : ℕ => (n : ℤ)).Nodup :=
    List.nodup_range.map Nat.cast_injective
  refine (List.perm_ext_iff_of_nodup (nodup_of_duplicateLayers hsorted hdup) hnodup).mpr
    fun l => ⟨fun hl => ?_, fun hl => ?_⟩
  · obtain ⟨hpos, hlt⟩ := hrange l hl
    exact List.mem_map.mpr ⟨l.toNat, List.mem_range.mpr (by omega), by omega⟩
  · obtain ⟨k, hk, rfl⟩ := List.mem_map.mp hl
    exact List.mem_of_getElem? ((getElem_of_missing_nil hmissing).2 k (List.mem_range.mp hk))

/-- The partitions of a graph that is reported valid have their names. -/
theorem named_of_valid {partitions : List PartitionNodeConfig} {numLayers : ℤ}
    (h : (validatePartitionGraph partitions numLayers).valid = true) :
    ∀ partition ∈ partitions, partition.partitionId ≠ [] ∧ partition.serviceName ≠ [] := by
  unfold validatePartitionGraph at h
  split at h
  · cases h
  · cases hscan : partitions.foldlM (scanPartition numLayers) {} with
    | error message =>
      rw [hscan] at h
      cases h
    | ok scan => exact (scanned_of_foldlM hscan).named

/-- A graph that is reported valid is well formed. -/
theorem wellFormed_of_valid {partitions : List PartitionNodeConfig} {numLayers : ℤ}
    (hpos : 0 < numLayers) (h : (validatePartitionGraph partitions numLayers).valid = true) :
    WellFormedGraph partitions numLayers := by
  unfold validatePartitionGraph at h
  split at h
  · cases h
  · next hne =>
    cases hscan : partitions.foldlM (scanPartition numLayers) {} with
    | error message =>
      rw [hscan] at h
      cases h
    | ok scan =>
      have hscanned := scanned_of_foldlM hscan
      rw [hscan] at h
      dsimp only at h
      split at h
      · cases h
      · next hembedding =>
        split at h
        · cases h
        · next hlmHead =>
          split at h
          · cases h
          · next hterminal =>
            split at h
            · cases h
            · next hdup =>
              split at h
              · cases h
              · next hmissing =>
                have hassigned : scan.assignedLayers = flatLayers partitions := hscanned.assigned
                have hperm := List.perm_insertionSort (· ≤ ·) scan.assignedLayers
                have hsorted := List.pairwise_insertionSort (· ≤ ·) scan.assignedLayers
                rw [not_not] at hembedding hlmHead hterminal hdup
                refine ⟨by simpa using hne, hscanned.named, ?_, ?_, ?_, hscanned.terminalOwner, ?_⟩
                · rw [← hembedding, hscanned.embedding, Nat.zero_add]
                · rw [← hlmHead, hscanned.lmHead, Nat.zero_add]
                · rw [← hterminal, hscanned.terminal, Nat.zero_add]
                · rw [← hassigned]
                  refine hperm.symm.trans (perm_range_of_checks hsorted (fun l hl => ?_) hdup ?_)
                  · have hl' := hscanned.inRange l (hassigned ▸ hperm.mem_iff.mp hl)
                    exact ⟨hl'.1, hl'.2 hpos⟩
                  · by_contra hnil
                    exact hmissing ⟨hpos, hnil⟩

/-- The partition at a visited position. -/
def partitionAt (partitions : List PartitionNodeConfig) (position : Option ℕ) :
    Option PartitionNodeConfig :=
  position.bind fun index => partitions[index]?

/-- The layers in the order in which a route meets them. -/
def routeLayers (partitions : List PartitionNodeConfig) (route : List ℕ) : List ℤ :=
  route.flatMap fun index => (partitions[index]?).elim [] fun p => p.components.layers

/-- A route computes the model: it visits every partition once, from the owner
of the embedding to the owner of norm and output matrix, layer by layer. -/
structure RouteCorrect (partitions : List PartitionNodeConfig) (numLayers : ℤ)
    (route : List ℕ) : Prop where
  visits : route.Perm (List.range partitions.length)
  source : ∃ p, partitionAt partitions route.head? = some p ∧ p.components.embedding = true
  terminal : ∃ p, partitionAt partitions route.getLast? = some p ∧ p.components.norm = true ∧
    p.components.lmHead = true
  layers : routeLayers partitions route = (List.range numLayers.toNat).map fun n : ℕ => (n : ℤ)

/-- The partitions are listed in the order of the pipeline. -/
structure PipelineOrder (partitions : List PartitionNodeConfig) : Prop where
  source : ∀ p ∈ partitions.head?, p.components.embedding = true
  lmHead : ∀ p ∈ partitions.dropLast, p.components.lmHead = false
  norm : ∀ p ∈ partitions.getLast?, p.components.norm = true
  layers : (flatLayers partitions).Pairwise (· < ·)

theorem partitionAt_head (partitions : List PartitionNodeConfig) :
    partitionAt partitions (List.range partitions.length).head? = partitions.head? := by
  cases partitions with
  | nil => rfl
  | cons partition rest => rw [List.head?_range, if_neg (by simp)]; rfl

theorem partitionAt_getLast (partitions : List PartitionNodeConfig) :
    partitionAt partitions (List.range partitions.length).getLast? = partitions.getLast? := by
  rw [List.getLast?_range, List.getLast?_eq_getElem?]
  cases partitions with
  | nil => rfl
  | cons partition rest => rw [if_neg (by simp)]; rfl

theorem routeLayers_range (partitions : List PartitionNodeConfig) :
    routeLayers partitions (List.range partitions.length) = flatLayers partitions := by
  have hmap : (List.range partitions.length).map (fun index =>
      (partitions[index]?).elim [] fun p => p.components.layers) =
        partitions.map fun p => p.components.layers := by
    refine List.ext_getElem (by simp) fun index h₁ h₂ => ?_
    simp only [List.length_map] at h₂
    simp [List.getElem?_eq_getElem h₂]
  rw [routeLayers, flatLayers, List.flatMap_def, List.flatMap_def, hmap]

/-- In a valid graph a partition ends the route when it owns the output matrix. -/
theorem WellFormedGraph.isTerminal_iff {partitions : List PartitionNodeConfig} {numLayers : ℤ}
    (h : WellFormedGraph partitions numLayers) {partition : PartitionNodeConfig}
    (hmem : partition ∈ partitions) :
    isTerminalPartition partition = partition.components.lmHead := by
  by_cases hurl : partition.nextStageUrl = []
  · simp [isTerminalPartition, hurl, h.terminalOwner partition hmem hurl]
  · simp [isTerminalPartition, hurl]

/-- The last partition of a graph in pipeline order owns the output matrix. -/
theorem WellFormedGraph.lmHead_getLast {partitions : List PartitionNodeConfig} {numLayers : ℤ}
    (h : WellFormedGraph partitions numLayers)
    (hbefore : ∀ p ∈ partitions.dropLast, p.components.lmHead = false) {last : PartitionNodeConfig}
    (hlast : partitions.getLast? = some last) : last.components.lmHead = true := by
  obtain ⟨p, hp, howner⟩ := List.countP_pos_iff.mp (by rw [h.lmHeadOwner]; exact Nat.one_pos)
  rw [← List.dropLast_append_getLast? last hlast, List.mem_append] at hp
  rcases hp with hp | hp
  · rw [hbefore p hp] at howner
    cases howner
  · rwa [List.mem_singleton.mp hp] at howner

/-- The route through a valid graph computes the model exactly when the
partitions and their layers are listed in pipeline order. -/
theorem route_correct_iff_pipeline_order {config : RouteConfig} {numLayers : ℤ}
    {stageAt : Bytes → ℕ} (hpos : 0 < numLayers)
    (hvalid : (validatePartitionGraph config.partitions numLayers).valid = true)
    (haddr : Addresses config stageAt) :
    RouteCorrect config.partitions numLayers ((orchestratedRoute config).map stageAt) ↔
      PipelineOrder config.partitions := by
  have hgraph := wellFormed_of_valid hpos hvalid
  rw [orchestratedRoute_positions haddr]
  have hrange : visitedFrom 0 config.partitions =
      List.range (visitedFrom 0 config.partitions).length := by
    rw [List.range_eq_range']
    exact visitedFrom_eq_range 0 config.partitions
  have hall : (visitedFrom 0 config.partitions).length = config.partitions.length ↔
      ∀ p ∈ config.partitions.dropLast, p.components.lmHead = false := by
    rw [visitedFrom_length_iff]
    exact forall₂_congr fun p hp => by rw [hgraph.isTerminal_iff (List.dropLast_subset _ hp)]
  constructor
  · intro h
    have hlength : (visitedFrom 0 config.partitions).length = config.partitions.length := by
      rw [h.visits.length_eq, List.length_range]
    rw [hrange, hlength] at h
    obtain ⟨-, ⟨source, hsource, hembedding⟩, ⟨last, hlast, hnorm, -⟩, hlayers⟩ := h
    rw [partitionAt_head] at hsource
    rw [partitionAt_getLast] at hlast
    rw [routeLayers_range] at hlayers
    refine ⟨fun p hp => ?_, hall.mp hlength, fun p hp => ?_, ?_⟩
    · rw [hsource] at hp
      cases hp
      exact hembedding
    · rw [hlast] at hp
      cases hp
      exact hnorm
    · rw [hlayers]
      exact List.pairwise_lt_range.map _ fun a b hab => Int.ofNat_lt.mpr hab
  · intro h
    rw [hrange, hall.mpr h.lmHead]
    obtain ⟨source, rest, hcons⟩ := List.exists_cons_of_ne_nil hgraph.nonempty
    obtain ⟨last, hlast⟩ : ∃ last, config.partitions.getLast? = some last :=
      ⟨_, List.getLast?_eq_some_getLast hgraph.nonempty⟩
    refine ⟨.refl _, ⟨source, ?_, h.source source (by rw [hcons]; rfl)⟩,
      ⟨last, ?_, h.norm last hlast, hgraph.lmHead_getLast h.lmHead hlast⟩, ?_⟩
    · rw [partitionAt_head, hcons]
      rfl
    · rw [partitionAt_getLast, hlast]
    · rw [routeLayers_range]
      refine List.Perm.eq_of_pairwise (fun a b _ _ hab hba => ?_) h.layers ?_ hgraph.layers
      · exact absurd hab (lt_asymm hba)
      · exact List.pairwise_lt_range.map _ fun a b hab => Int.ofNat_lt.mpr hab

/-- The first half of a model of two layers. -/
def sourcePartition : PartitionNodeConfig where
  partitionId := ascii "partition-1"
  serviceName := ascii "stage-1"
  nextStageUrl := ascii "http://stage-2"
  components := { layers := [0], embedding := true }

/-- The second half of this model. -/
def terminalPartition : PartitionNodeConfig where
  partitionId := ascii "partition-2"
  serviceName := ascii "stage-2"
  components := { layers := [1], norm := true, lmHead := true }

/-- The two halves in pipeline order. -/
theorem route_correct_two_partitions :
    let config : RouteConfig := ⟨ascii "http://stage-1", [sourcePartition, terminalPartition], false⟩
    let stageAt (url : Bytes) : ℕ := if url = ascii "http://stage-2" then 1 else 0
    RouteCorrect config.partitions 2 ((orchestratedRoute config).map stageAt) ↔
      PipelineOrder config.partitions := by
  refine route_correct_iff_pipeline_order (by decide) (by decide +kernel) ⟨by decide, ?_⟩
  intro index partition hpartition hlt _
  obtain rfl : index = 0 := Nat.lt_one_iff.mp (Nat.lt_of_succ_lt_succ hlt)
  cases hpartition
  decide

/-- Listed the other way round, the two halves are a valid graph. The route
then ends at its first stop. -/
theorem route_of_reversed_graph :
    let config : RouteConfig := ⟨ascii "http://stage-2", [terminalPartition, sourcePartition], false⟩
    (validatePartitionGraph config.partitions 2).valid = true ∧ Addresses config (fun _ => 0) ∧
      ¬RouteCorrect config.partitions 2 ((orchestratedRoute config).map fun _ => 0) := by
  refine ⟨by decide +kernel, ⟨rfl, fun index partition hpartition hlt hurl => ?_⟩, fun h => ?_⟩
  · obtain rfl : index = 0 := Nat.lt_one_iff.mp (Nat.lt_of_succ_lt_succ hlt)
    cases hpartition
    exact absurd rfl hurl
  · exact absurd h.visits.length_eq (by decide)

end LayerInference.PartitionGraph
