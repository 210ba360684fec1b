import LayerInference.PartitionGraph

/-!
# What the validation of a graph reports

The validator collects repeated layers from the neighbours of the sorted list,
and missing layers with a cursor that moves along it. Both lists come out in
increasing order, without repetition and complete. A graph is therefore
reported valid exactly when it is well formed, and a graph that fails on its
layers only is answered with the layers that are wrong.
-/

namespace LayerInference.GraphReports

open ByteStrings PartitionRouting PartitionGraph

variable {partitions : List PartitionNodeConfig} {numLayers : ℤ}

/-- The layers of a model in increasing order. -/
def allLayers (numLayers : ℤ) : List ℤ := (List.range numLayers.toNat).map fun n : ℕ => (n : ℤ)

/-- The layers that are assigned more than once, in increasing order. -/
def repeatedLayers (partitions : List PartitionNodeConfig) (numLayers : ℤ) : List ℤ :=
  (allLayers numLayers).filter fun layer => 2 ≤ (flatLayers partitions).count layer

/-- The layers that no partition has, in increasing order. -/
def unassignedLayers (partitions : List PartitionNodeConfig) (numLayers : ℤ) : List ℤ :=
  (allLayers numLayers).filter fun layer => layer ∉ flatLayers partitions

/-- All conditions but the one on the layers. -/
structure OwnedGraph (partitions : List PartitionNodeConfig) : Prop where
  nonempty : partitions ≠ []
  named : ∀ partition ∈ partitions, partition.partitionId ≠ [] ∧ partition.serviceName ≠ []
  embeddingOwner : partitions.countP (fun p => p.components.embedding) = 1
  lmHeadOwner : partitions.countP (fun p => p.components.lmHead) = 1
  terminal : partitions.countP (fun p => p.nextStageUrl.isEmpty) = 1
  terminalOwner : ∀ partition ∈ partitions, partition.nextStageUrl = [] →
    partition.components.lmHead = true

/-- The layers are layers of the model. -/
def LayersInRange (partitions : List PartitionNodeConfig) (numLayers : ℤ) : Prop :=
  ∀ layer ∈ flatLayers partitions, 0 ≤ layer ∧ layer < numLayers

instance : Decidable (LayersInRange partitions numLayers) :=
  inferInstanceAs (Decidable (∀ layer ∈ flatLayers partitions, 0 ≤ layer ∧ layer < numLayers))

theorem mem_allLayers {layer : ℤ} : layer ∈ allLayers numLayers ↔ 0 ≤ layer ∧ layer < numLayers := by
  constructor
  · intro h
    obtain ⟨n, hn, rfl⟩ := List.mem_map.mp h
    have hlt := List.mem_range.mp hn
    exact ⟨Int.natCast_nonneg n, by omega⟩
  · intro h
    exact List.mem_map.mpr ⟨layer.toNat, List.mem_range.mpr (by omega), by omega⟩

theorem allLayers_increasing (numLayers : ℤ) : (allLayers numLayers).Pairwise (· < ·) :=
  List.pairwise_map.mpr (List.pairwise_lt_range.imp fun h => Int.ofNat_lt.mpr h)

/-- Increasing lists with the same members are equal. -/
theorem eq_of_increasing {l l' : List ℤ} (h : l.Pairwise (· < ·)) (h' : l'.Pairwise (· < ·))
    (hmem : ∀ a, a ∈ l ↔ a ∈ l') : l = l' := by
  have hperm : l.Perm l' :=
    (List.perm_ext_iff_of_nodup (h.imp ne_of_lt) (h'.imp ne_of_lt)).mpr hmem
  exact hperm.eq_of_pairwise (fun a b _ _ hab hba => absurd hab (not_lt_of_gt hba)) h h'

section Duplicates

/-- An increasing list that ends at its greatest member contains it last. -/
theorem getLast_of_increasing {l : List ℤ} {a : ℤ} (h : l.Pairwise (· < ·))
    (hle : ∀ d ∈ l, d ≤ a) (ha : a ∈ l) : l.getLast? = some a := by
  obtain ⟨front, last, rfl⟩ := (List.eq_nil_or_concat l).resolve_left (List.ne_nil_of_mem ha)
  rw [List.concat_eq_append] at h hle ha ⊢
  rw [List.getLast?_concat]
  rcases List.mem_append.mp ha with hfront | hlast
  · have hlt := (List.pairwise_append.mp h).2.2 a hfront last (List.mem_singleton_self last)
    have hbound := hle last (List.mem_append_right _ (List.mem_singleton_self last))
    omega
  · rw [List.mem_singleton.mp hlast]

/-- One step over equal or increasing neighbours. -/
theorem duplicateStep_spec {duplicates : List ℤ} {a b : ℤ} (h : duplicates.Pairwise (· < ·))
    (hle : ∀ d ∈ duplicates, d ≤ a) (hab : a ≤ b) :
    (duplicateStep duplicates (a, b)).Pairwise (· < ·) ∧
      (∀ d ∈ duplicateStep duplicates (a, b), d ≤ b) ∧
      ∀ d, d ∈ duplicateStep duplicates (a, b) ↔ d ∈ duplicates ∨ d = a ∧ b = a := by
  unfold duplicateStep
  by_cases hnew : b = a ∧ duplicates.getLast? ≠ some b
  · obtain ⟨rfl, hlast⟩ := hnew
    have hmem : b ∉ duplicates := fun hmem => hlast (getLast_of_increasing h hle hmem)
    rw [if_pos ⟨rfl, hlast⟩]
    refine ⟨List.pairwise_append.mpr ⟨h, List.pairwise_singleton _ _, fun d hd e he => ?_⟩,
      fun d hd => ?_, fun d => ?_⟩
    · rw [List.mem_singleton.mp he]
      have hne : d ≠ b := fun heq => hmem (heq ▸ hd)
      exact lt_of_le_of_ne (hle d hd) hne
    · rcases List.mem_append.mp hd with hd | hd
      · exact hle d hd
      · exact (List.mem_singleton.mp hd).le
    · rw [List.mem_append, List.mem_singleton, and_iff_left rfl]
  · rw [if_neg hnew]
    refine ⟨h, fun d hd => (hle d hd).trans hab, fun d => ⟨.inl, fun hd => ?_⟩⟩
    rcases hd with hd | ⟨rfl, heq⟩
    · exact hd
    · by_contra hnot
      exact hnew ⟨heq, fun hlast => hnot (heq ▸ List.mem_of_getLast? hlast)⟩

/-- The pass over the neighbours of a sorted list. -/
theorem foldl_duplicateStep {duplicates rest : List ℤ} {a : ℤ}
    (h : duplicates.Pairwise (· < ·)) (hle : ∀ d ∈ duplicates, d ≤ a)
    (hsorted : (a :: rest).Pairwise (· ≤ ·)) :
    (((a :: rest).zip rest).foldl duplicateStep duplicates).Pairwise (· < ·) ∧
      ∀ d, d ∈ ((a :: rest).zip rest).foldl duplicateStep duplicates ↔
        d ∈ duplicates ∨ 2 ≤ (a :: rest).count d := by
  induction rest generalizing a duplicates with
  | nil =>
    refine ⟨h, fun d => ⟨.inl, fun hd => hd.resolve_right fun hcount => ?_⟩⟩
    have hshort := List.count_le_length (a := d) (l := [a])
    rw [List.length_singleton] at hshort
    omega
  | cons b rest ih =>
    have hab : a ≤ b := List.rel_of_pairwise_cons hsorted List.mem_cons_self
    obtain ⟨hstep, hbound, hmem⟩ := duplicateStep_spec h hle hab
    obtain ⟨hrest, hcollected⟩ := ih hstep hbound hsorted.of_cons
    rw [List.zip_cons_cons, List.foldl_cons]
    refine ⟨hrest, fun d => ?_⟩
    rw [hcollected d, hmem d, or_assoc]
    refine or_congr_right ?_
    by_cases hda : d = a
    · subst hda
      rw [List.count_cons_self]
      by_cases hdb : b = d
      · subst hdb
        rw [List.count_cons_self]
        exact iff_of_true (.inl ⟨rfl, rfl⟩) (by omega)
      · -- everything behind a greater neighbour is greater
        have habsent : d ∉ b :: rest := fun hd => by
          have hle := (List.pairwise_cons.mp hsorted.of_cons).1
          rcases List.mem_cons.mp hd with rfl | hd
          · exact hdb rfl
          · have := hle d hd
            omega
        rw [List.count_eq_zero_of_not_mem habsent]
        exact iff_of_false (by omega) (by omega)
    · rw [List.count_cons_of_ne (Ne.symm hda)]
      exact or_iff_right fun hboth => hda hboth.1

/-- The repeated entries of a sorted list, each once and in increasing order. -/
theorem duplicateLayers_spec {sorted : List ℤ} (hsorted : sorted.Pairwise (· ≤ ·)) :
    (duplicateLayers sorted).Pairwise (· < ·) ∧
      ∀ d, d ∈ duplicateLayers sorted ↔ 2 ≤ sorted.count d := by
  cases sorted with
  | nil => exact ⟨List.Pairwise.nil, fun d => iff_of_false List.not_mem_nil (by simp)⟩
  | cons a rest =>
    obtain ⟨hincreasing, hmem⟩ := foldl_duplicateStep List.Pairwise.nil
      (fun d hd => absurd hd List.not_mem_nil) hsorted
    exact ⟨hincreasing, fun d => (hmem d).trans (or_iff_right List.not_mem_nil)⟩

end Duplicates

section Missing

variable {sorted : List ℤ}

/-- The cursor stands behind the entries below a layer. -/
structure CursorAt (sorted : List ℤ) (cursor : ℕ) (layer : ℤ) : Prop where
  below : ∀ (j : ℕ) (hj : j < sorted.length), j < cursor → sorted[j] < layer
  above : ∀ (j : ℕ) (hj : j < sorted.length), cursor ≤ j → layer ≤ sorted[j]

/-- The cursor meets a layer exactly when the list contains it. -/
theorem CursorAt.meets_iff {cursor : ℕ} {layer : ℤ} (h : CursorAt sorted cursor layer)
    (hsorted : sorted.Pairwise (· < ·)) : sorted[cursor]? = some layer ↔ layer ∈ sorted := by
  refine ⟨List.mem_of_getElem?, fun hmem => ?_⟩
  obtain ⟨j, hj, rfl⟩ := List.getElem_of_mem hmem
  have hcursor : cursor ≤ j := by
    by_contra hlt
    exact lt_irrefl _ (h.below j hj (by omega))
  rcases Nat.eq_or_lt_of_le hcursor with rfl | hlt
  · exact List.getElem?_eq_getElem hj
  · have habove := h.above cursor (by omega) (le_refl cursor)
    have hincreasing := List.pairwise_iff_getElem.mp hsorted cursor j (by omega) hj hlt
    omega

/-- The merge over the layers in increasing order. -/
theorem foldl_missingStep (hsorted : sorted.Pairwise (· < ·)) (hnonneg : ∀ l ∈ sorted, 0 ≤ l)
    (n : ℕ) :
    CursorAt sorted ((List.range n).foldl (missingStep sorted) (0, [])).1 n ∧
      ((List.range n).foldl (missingStep sorted) (0, [])).2 =
        ((List.range n).map fun n : ℕ => (n : ℤ)).filter fun layer => layer ∉ sorted := by
  induction n with
  | zero =>
    exact ⟨⟨fun j _ hj => absurd hj (Nat.not_lt_zero j),
      fun j hj _ => hnonneg _ (List.getElem_mem hj)⟩, rfl⟩
  | succ n ih =>
    rw [List.range_succ, List.foldl_append, List.foldl_cons, List.foldl_nil, List.map_append,
      List.filter_append, List.map_singleton]
    obtain ⟨hcursor, hmissing⟩ := ih
    generalize (List.range n).foldl (missingStep sorted) (0, []) = state at hcursor hmissing ⊢
    have hmeets := hcursor.meets_iff hsorted
    unfold missingStep
    by_cases hat : sorted[state.1]? = some (n : ℤ)
    · rw [if_pos hat, hmissing, List.filter_cons_of_neg (by simpa using hmeets.mp hat),
        List.filter_nil, List.append_nil]
      obtain ⟨hlength, hvalue⟩ := List.getElem?_eq_some_iff.mp hat
      refine ⟨⟨fun j hj hlt => ?_, fun j hj hle => ?_⟩, rfl⟩
      · rcases Nat.lt_succ_iff_lt_or_eq.mp hlt with hlt | rfl
        · have := hcursor.below j hj hlt
          omega
        · omega
      · have hincreasing := List.pairwise_iff_getElem.mp hsorted state.1 j hlength hj (by omega)
        push_cast
        omega
    · rw [if_neg hat, hmissing, List.filter_cons_of_pos (by simpa using fun h => hat (hmeets.mpr h)),
        List.filter_nil]
      refine ⟨⟨fun j hj hlt => ?_, fun j hj hle => ?_⟩, rfl⟩
      · have := hcursor.below j hj hlt
        push_cast
        omega
      · have hbound := hcursor.above j hj hle
        have hne : sorted[j] ≠ (n : ℤ) := fun heq =>
          hat (hmeets.mpr (heq ▸ List.getElem_mem hj))
        push_cast
        omega

end Missing

section Acceptance

/-- Layers of the model are collected without an error. -/
theorem scanLayers_inRange {partitionId : Bytes} {layers assigned : List ℤ}
    (h : ∀ l ∈ layers, 0 ≤ l ∧ l < numLayers) :
    layers.foldlM (scanLayer partitionId numLayers) assigned = .ok (assigned ++ layers) := by
  induction layers generalizing assigned with
  | nil => rw [List.append_nil]; rfl
  | cons layer layers ih =>
    obtain ⟨hpos, hlt⟩ := h layer List.mem_cons_self
    have hstep : scanLayer partitionId numLayers assigned layer = .ok (assigned ++ [layer]) := by
      rw [scanLayer, if_neg (by omega), if_neg (by omega)]
    rw [List.foldlM_cons, hstep, List.append_cons assigned layer layers]
    exact ih fun l hl => h l (List.mem_cons_of_mem layer hl)

/-- Named partitions with layers of the model are scanned without an error. -/
theorem scan_inRange {scan : GraphScan}
    (hnamed : ∀ p ∈ partitions, p.partitionId ≠ [] ∧ p.serviceName ≠ [])
    (howner : ∀ p ∈ partitions, p.nextStageUrl = [] → p.components.lmHead = true)
    (hrange : LayersInRange partitions numLayers) :
    ∃ scan', partitions.foldlM (scanPartition numLayers) scan = .ok scan' := by
  induction partitions generalizing scan with
  | nil => exact ⟨scan, rfl⟩
  | cons partition rest ih =>
    obtain ⟨hid, hservice⟩ := hnamed partition List.mem_cons_self
    have hlayers : ∀ l ∈ partition.components.layers, 0 ≤ l ∧ l < numLayers :=
      fun l hl => hrange l (List.mem_flatMap.mpr ⟨partition, List.mem_cons_self, hl⟩)
    have hterminal : ¬(partition.nextStageUrl.isEmpty = true ∧
        partition.components.lmHead = false) := by
      rintro ⟨hurl, hlmHead⟩
      rw [howner partition List.mem_cons_self (List.isEmpty_iff.mp hurl)] at hlmHead
      cases hlmHead
    rw [List.foldlM_cons, scanPartition, if_neg (by simpa using hid),
      if_neg (by simpa using hservice), if_neg hterminal, scanLayers_inRange hlayers]
    refine ih (fun p hp => hnamed p (List.mem_cons_of_mem _ hp))
      (fun p hp => howner p (List.mem_cons_of_mem _ hp)) fun l hl => hrange l ?_
    rw [flatLayers, List.flatMap_cons]
    exact List.mem_append_right _ hl

variable (partitions) in
/-- The sorted layers of a graph have its layers, with their multiplicities. -/
theorem sortedLayers_spec :
    ((flatLayers partitions).insertionSort (· ≤ ·)).Pairwise (· ≤ ·) ∧
      ((flatLayers partitions).insertionSort (· ≤ ·)).Perm (flatLayers partitions) :=
  ⟨List.pairwise_insertionSort _ _, List.perm_insertionSort _ _⟩

/-- The duplicates that the validator finds. -/
theorem duplicateLayers_eq (hrange : LayersInRange partitions numLayers) :
    duplicateLayers ((flatLayers partitions).insertionSort (· ≤ ·)) =
      repeatedLayers partitions numLayers := by
  obtain ⟨hsorted, hperm⟩ := sortedLayers_spec partitions
  obtain ⟨hincreasing, hmem⟩ := duplicateLayers_spec hsorted
  refine eq_of_increasing hincreasing ((allLayers_increasing numLayers).filter _) fun d => ?_
  rw [hmem, hperm.count_eq, repeatedLayers, List.mem_filter, decide_eq_true_eq]
  refine ⟨fun hcount => ⟨mem_allLayers.mpr (hrange d ?_), hcount⟩, fun h => h.2⟩
  exact List.count_pos_iff.mp (by omega)

/-- Without repetition the validator finds the missing layers. -/
theorem missingLayers_eq (hrange : LayersInRange partitions numLayers)
    (hnodup : (flatLayers partitions).Nodup) :
    missingLayers ((flatLayers partitions).insertionSort (· ≤ ·)) numLayers =
      unassignedLayers partitions numLayers := by
  obtain ⟨hsorted, hperm⟩ := sortedLayers_spec partitions
  have hincreasing : ((flatLayers partitions).insertionSort (· ≤ ·)).Pairwise (· < ·) :=
    hsorted.imp₂ (fun a b hle hne => lt_of_le_of_ne hle hne) (hperm.nodup_iff.mpr hnodup)
  obtain ⟨-, hmissing⟩ := foldl_missingStep hincreasing
    (fun l hl => (hrange l (hperm.mem_iff.mp hl)).1) numLayers.toNat
  rw [missingLayers, hmissing, unassignedLayers, allLayers]
  refine List.filter_congr fun l _ => ?_
  rw [decide_eq_decide, hperm.mem_iff]

/-- A graph without repeated layers has each of its layers once. -/
theorem repeatedLayers_eq_nil (hrange : LayersInRange partitions numLayers) :
    repeatedLayers partitions numLayers = [] ↔ (flatLayers partitions).Nodup := by
  rw [repeatedLayers, List.filter_eq_nil_iff, List.nodup_iff_count_le_one]
  refine ⟨fun h d => ?_, fun h d _ => ?_⟩
  · by_contra hcount
    have hmem : d ∈ flatLayers partitions := List.count_pos_iff.mp (by omega)
    exact h d (mem_allLayers.mpr (hrange d hmem)) (decide_eq_true (by omega))
  · have := h d
    rw [decide_eq_true_eq]
    omega

/-- The layers are a permutation exactly when none is repeated or missing. -/
theorem perm_allLayers_iff (hrange : LayersInRange partitions numLayers) :
    (flatLayers partitions).Perm (allLayers numLayers) ↔
      repeatedLayers partitions numLayers = [] ∧ unassignedLayers partitions numLayers = [] := by
  have hnodup : (allLayers numLayers).Nodup := (allLayers_increasing numLayers).imp ne_of_lt
  rw [repeatedLayers_eq_nil hrange, unassignedLayers, List.filter_eq_nil_iff]
  constructor
  · intro hperm
    exact ⟨hperm.nodup_iff.mpr hnodup, fun d hd => by simpa using hperm.mem_iff.mpr hd⟩
  · rintro ⟨honce, hall⟩
    refine (List.perm_ext_iff_of_nodup honce hnodup).mpr fun d => ⟨fun hd => ?_, fun hd => ?_⟩
    · exact mem_allLayers.mpr (hrange d hd)
    · simpa using hall d hd

/-- The answer for a graph with one owner of each component and with layers of
the model. -/
theorem validate_owned (hpos : 0 < numLayers) (h : OwnedGraph partitions)
    (hrange : LayersInRange partitions numLayers) :
    (repeatedLayers partitions numLayers ≠ [] →
        validatePartitionGraph partitions numLayers =
          { error := ascii "duplicate layer assignments: " ++
              joinInts (repeatedLayers partitions numLayers) }) ∧
      (repeatedLayers partitions numLayers = [] → unassignedLayers partitions numLayers ≠ [] →
        validatePartitionGraph partitions numLayers =
          { error := ascii "missing layer assignments: " ++
              joinInts (unassignedLayers partitions numLayers) }) ∧
      (repeatedLayers partitions numLayers = [] → unassignedLayers partitions numLayers = [] →
        (validatePartitionGraph partitions numLayers).valid = true) := by
  obtain ⟨scan, hscan⟩ := @scan_inRange _ _ {} h.named h.terminalOwner hrange
  have hscanned := scanned_of_foldlM hscan
  have hassigned : scan.assignedLayers = flatLayers partitions := hscanned.assigned
  have hembedding : scan.embeddingOwnerCount = 1 := by
    rw [hscanned.embedding, h.embeddingOwner]
  have hlmHead : scan.lmHeadOwnerCount = 1 := by
    rw [hscanned.lmHead, h.lmHeadOwner]
  have hterminal : scan.terminalCount = 1 := by
    rw [hscanned.terminal, h.terminal]
  unfold validatePartitionGraph
  rw [if_neg (by simpa using h.nonempty), hscan]
  dsimp only
  rw [hassigned, if_neg (not_not.mpr hembedding), if_neg (not_not.mpr hlmHead),
    if_neg (not_not.mpr hterminal), duplicateLayers_eq hrange]
  refine ⟨fun hrepeated => by rw [if_pos hrepeated], fun hrepeated hmissing => ?_,
    fun hrepeated hmissing => ?_⟩
  · have hmiss := missingLayers_eq hrange ((repeatedLayers_eq_nil hrange).mp hrepeated)
    rw [if_neg (not_not.mpr hrepeated), hmiss, if_pos ⟨hpos, hmissing⟩]
  · have hmiss := missingLayers_eq hrange ((repeatedLayers_eq_nil hrange).mp hrepeated)
    rw [if_neg (not_not.mpr hrepeated), hmiss, if_neg fun hboth => hboth.2 hmissing]

/-- The layers of a well-formed graph are layers of the model. -/
theorem inRange_of_wellFormed (h : WellFormedGraph partitions numLayers) :
    LayersInRange partitions numLayers :=
  fun _ hl => mem_allLayers.mp (h.layers.mem_iff.mp hl)

/-- A well-formed graph is reported valid. -/
theorem valid_of_wellFormed (hpos : 0 < numLayers) (h : WellFormedGraph partitions numLayers) :
    (validatePartitionGraph partitions numLayers).valid = true := by
  have hrange := inRange_of_wellFormed h
  obtain ⟨hrepeated, hmissing⟩ := (perm_allLayers_iff hrange).mp h.layers
  exact (validate_owned hpos ⟨h.nonempty, h.named, h.embeddingOwner, h.lmHeadOwner, h.terminal,
    h.terminalOwner⟩ hrange).2.2 hrepeated hmissing

/-- A graph is reported valid exactly when it is well formed. When only its
layers are wrong, and they are layers of the model, the error lists the
repeated layers in increasing order, or else the missing ones. -/
theorem validation_exact (partitions : List PartitionNodeConfig) (hpos : 0 < numLayers) :
    ((validatePartitionGraph partitions numLayers).valid = true ↔
        WellFormedGraph partitions numLayers) ∧
      (OwnedGraph partitions → LayersInRange partitions numLayers →
        ¬(flatLayers partitions).Perm (allLayers numLayers) →
        validatePartitionGraph partitions numLayers =
          { error :=
              if repeatedLayers partitions numLayers ≠ [] then
                ascii "duplicate layer assignments: " ++
                  joinInts (repeatedLayers partitions numLayers)
              else
                ascii "missing layer assignments: " ++
                  joinInts (unassignedLayers partitions numLayers) }) := by
  refine ⟨⟨wellFormed_of_valid hpos, valid_of_wellFormed hpos⟩, fun howned hrange hperm => ?_⟩
  obtain ⟨hduplicates, hmissing, -⟩ := validate_owned hpos howned hrange
  rw [perm_allLayers_iff hrange] at hperm
  by_cases hrepeated : repeatedLayers partitions numLayers = []
  · rw [if_neg (not_not.mpr hrepeated)]
    exact hmissing hrepeated fun hnone => hperm ⟨hrepeated, hnone⟩
  · rw [if_pos hrepeated]
    exact hduplicates hrepeated

/-- A second half that lists a layer of the first one, in a model of three. -/
def overlappingPartition : PartitionNodeConfig :=
  { terminalPartition with components := { layers := [0, 2], norm := true, lmHead := true } }

/-- The layer that both halves have is reported, and not the one that neither has. -/
theorem validation_exact_overlapping :
    ((validatePartitionGraph [sourcePartition, overlappingPartition] 3).valid = true ↔
        WellFormedGraph [sourcePartition, overlappingPartition] 3) ∧
      validatePartitionGraph [sourcePartition, overlappingPartition] 3 =
        { error := ascii "duplicate layer assignments: 0" } := by
  obtain ⟨hvalid, hreport⟩ :=
    validation_exact [sourcePartition, overlappingPartition] (show (0 : ℤ) < 3 by decide)
  refine ⟨hvalid, (hreport ?_ (by decide) (by decide)).trans (by decide +kernel)⟩
  exact ⟨by decide, by decide, by decide, by decide, by decide, by decide⟩

end Acceptance

end LayerInference.GraphReports
