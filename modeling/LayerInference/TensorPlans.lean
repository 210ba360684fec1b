import LayerInference.PartitionGraph
import LayerInference.TextStreams

/-!
# Tensors that the partitions own

The shard tools decide by its name which partition a tensor belongs to: three
names stand for the embedding, the norm and the output matrix, and a prefix
for each layer. No name belongs to two of these parts, and in a valid graph
with at most one owner of the norm no part belongs to two partitions.
-/

namespace LayerInference.TensorPlans

open ByteStrings PartitionRouting PartitionGraph TextStreams

/-- Names and prefixes that a partition asks for. -/
structure TensorNamePlan where
  partitionId : Bytes
  requiredTensorNames : List Bytes := []
  requiredTensorPrefixes : List Bytes := []

/-- The prefix of the tensors of a layer. -/
def layerPrefix (layer : ℤ) : Bytes := ascii "blk." ++ decimal layer ++ ascii "."

def buildLlamaTensorNamePlan (partitionId : Bytes) (components : PartitionComponents) :
    TensorNamePlan where
  partitionId := partitionId
  requiredTensorNames :=
    (if components.embedding then [ascii "token_embd.weight"] else []) ++
    (if components.norm then [ascii "output_norm.weight"] else []) ++
    (if components.lmHead then [ascii "output.weight"] else [])
  requiredTensorPrefixes := components.layers.map layerPrefix

def tensorMatchesPlan (plan : TensorNamePlan) (tensorName : Bytes) : Bool :=
  plan.requiredTensorNames.any (fun name => tensorName == name) ||
    plan.requiredTensorPrefixes.any fun start => start.isPrefixOf tensorName

/-- What a file has for a plan. -/
structure PartitionTensorAssignment where
  partitionId : Bytes
  tensorNames : List Bytes
  missingRequiredNames : List Bytes
  missingRequiredPrefixes : List Bytes

/-- `std::sort` on strings, which compares bytes. -/
def sortNames (names : List Bytes) : List Bytes := names.insertionSort (· ≤ ·)

def assignTensorsToPartition (tensors : List Bytes) (plan : TensorNamePlan) :
    PartitionTensorAssignment where
  partitionId := plan.partitionId
  tensorNames := sortNames (tensors.filter (tensorMatchesPlan plan))
  missingRequiredNames :=
    sortNames (plan.requiredTensorNames.filter fun name => !tensors.contains name)
  missingRequiredPrefixes :=
    sortNames (plan.requiredTensorPrefixes.filter fun start =>
      !tensors.any fun name => start.isPrefixOf name)

def hasMissingTensors (assignment : PartitionTensorAssignment) : Bool :=
  !assignment.missingRequiredNames.isEmpty || !assignment.missingRequiredPrefixes.isEmpty

theorem mem_sortNames {names : List Bytes} {name : Bytes} :
    name ∈ sortNames names ↔ name ∈ names :=
  (List.perm_insertionSort (· ≤ ·) names).mem_iff

theorem sortNames_eq_nil {names : List Bytes} : sortNames names = [] ↔ names = [] := by
  have hperm := List.perm_insertionSort (· ≤ ·) names
  constructor
  · intro h
    exact (List.perm_nil.mp (h ▸ hperm.symm))
  · rintro rfl
    rfl

/-- A part of the model that one partition owns. -/
inductive ModelPart where
  | embedding
  | layer (index : ℤ)
  | norm
  | lmHead
  deriving DecidableEq

/-- The tensors of a part, by name. -/
def ModelPart.Holds : ModelPart → Bytes → Prop
  | embedding, name => name = ascii "token_embd.weight"
  | layer index, name => layerPrefix index <+: name
  | norm, name => name = ascii "output_norm.weight"
  | lmHead, name => name = ascii "output.weight"

/-- The parts that a partition owns. -/
def Owns (components : PartitionComponents) : ModelPart → Prop
  | .embedding => components.embedding = true
  | .layer index => index ∈ components.layers
  | .norm => components.norm = true
  | .lmHead => components.lmHead = true

/-- A plan matches the tensors of the parts that the partition owns. -/
theorem tensorMatchesPlan_iff (partitionId : Bytes) (components : PartitionComponents)
    (name : Bytes) :
    tensorMatchesPlan (buildLlamaTensorNamePlan partitionId components) name = true ↔
      ∃ part, Owns components part ∧ part.Holds name := by
  unfold tensorMatchesPlan buildLlamaTensorNamePlan
  rw [Bool.or_eq_true, List.any_eq_true, List.any_eq_true]
  constructor
  · rintro (⟨required, hmem, heq⟩ | ⟨start, hmem, hstarts⟩)
    · have hname : name = required := beq_iff_eq.mp heq
      rw [List.mem_append, List.mem_append] at hmem
      rcases hmem with (hmem | hmem) | hmem
      · cases hflag : components.embedding with
        | false =>
          rw [hflag] at hmem
          exact absurd hmem List.not_mem_nil
        | true =>
          rw [hflag] at hmem
          exact ⟨.embedding, hflag, hname.trans (List.mem_singleton.mp hmem)⟩
      · cases hflag : components.norm with
        | false =>
          rw [hflag] at hmem
          exact absurd hmem List.not_mem_nil
        | true =>
          rw [hflag] at hmem
          exact ⟨.norm, hflag, hname.trans (List.mem_singleton.mp hmem)⟩
      · cases hflag : components.lmHead with
        | false =>
          rw [hflag] at hmem
          exact absurd hmem List.not_mem_nil
        | true =>
          rw [hflag] at hmem
          exact ⟨.lmHead, hflag, hname.trans (List.mem_singleton.mp hmem)⟩
    · obtain ⟨index, hindex, rfl⟩ := List.mem_map.mp hmem
      exact ⟨.layer index, hindex, List.isPrefixOf_iff_prefix.mp hstarts⟩
  · rintro ⟨part, howns, hholds⟩
    cases part with
    | embedding =>
      have hflag : components.embedding = true := howns
      refine Or.inl ⟨_, ?_, beq_iff_eq.mpr hholds⟩
      rw [hflag]
      exact List.mem_append_left _ (List.mem_append_left _ (List.mem_singleton_self _))
    | layer index =>
      exact Or.inr ⟨_, List.mem_map.mpr ⟨index, howns, rfl⟩,
        List.isPrefixOf_iff_prefix.mpr hholds⟩
    | norm =>
      have hflag : components.norm = true := howns
      refine Or.inl ⟨_, ?_, beq_iff_eq.mpr hholds⟩
      rw [hflag]
      exact List.mem_append_left _ (List.mem_append_right _ (List.mem_singleton_self _))
    | lmHead =>
      have hflag : components.lmHead = true := howns
      refine Or.inl ⟨_, ?_, beq_iff_eq.mpr hholds⟩
      rw [hflag]
      exact List.mem_append_right _ (List.mem_singleton_self _)

section Decimals

theorem not_isDigit_minus : isDigit 45 = false := rfl

theorem decimalNat_injective {m n : ℕ} (h : decimalNat m = decimalNat n) : m = n := by
  rw [← digitsValue_decimalNat m, h, digitsValue_decimalNat n]

theorem minus_not_mem_decimalNat (n : ℕ) : 45 ∉ decimalNat n := fun h => by
  have hdigit := decimalNat_digits n 45 h
  rw [not_isDigit_minus] at hdigit
  cases hdigit

/-- Different integers are written differently. -/
theorem decimal_injective {a b : ℤ} (h : decimal a = decimal b) : a = b := by
  have hminus : ascii "-" = [45] := rfl
  unfold decimal at h
  by_cases ha : a < 0
  · by_cases hb : b < 0
    · rw [if_pos ha, if_pos hb] at h
      have habs := decimalNat_injective (List.append_cancel_left h)
      omega
    · rw [if_pos ha, if_neg hb, hminus] at h
      exact absurd (h ▸ List.mem_append_left _ (List.mem_singleton_self _))
        (minus_not_mem_decimalNat b.natAbs)
  · by_cases hb : b < 0
    · rw [if_neg ha, if_pos hb, hminus] at h
      exact absurd (h.symm ▸ List.mem_append_left _ (List.mem_singleton_self _))
        (minus_not_mem_decimalNat a.natAbs)
    · rw [if_neg ha, if_neg hb] at h
      have habs := decimalNat_injective h
      omega

theorem mem_decimal {value : ℤ} {b : UInt8} (h : b ∈ decimal value) :
    b = 45 ∨ isDigit b = true := by
  unfold decimal at h
  split at h
  · rcases List.mem_append.mp h with hminus | hdigits
    · exact Or.inl (List.mem_singleton.mp hminus)
    · exact Or.inr (decimalNat_digits _ b hdigits)
  · exact Or.inr (decimalNat_digits _ b h)

theorem dot_not_mem_decimal (value : ℤ) : 46 ∉ decimal value := fun h => by
  rcases mem_decimal h with hminus | hdigit
  · cases hminus
  · cases hdigit

/-- A text starts with at most one word that ends at a given separator. -/
theorem eq_of_prefix_separator {first second text : Bytes} {separator : UInt8}
    (hfirst : separator ∉ first) (hsecond : separator ∉ second)
    (h : first ++ [separator] <+: text) (h' : second ++ [separator] <+: text) :
    first = second := by
  induction first generalizing second text with
  | nil =>
    cases second with
    | nil => rfl
    | cons b second =>
      obtain ⟨rest, rfl⟩ := h
      obtain ⟨rest', hrest⟩ := h'
      have hb : b = separator := (List.cons.inj hrest).1
      exact absurd (hb ▸ List.mem_cons_self) hsecond
  | cons a first ih =>
    obtain ⟨rest, rfl⟩ := h
    obtain ⟨rest', hrest⟩ := h'
    cases second with
    | nil =>
      have ha : separator = a := (List.cons.inj hrest).1
      exact absurd (ha ▸ List.mem_cons_self) hfirst
    | cons b second =>
      obtain ⟨hab, htail⟩ := List.cons.inj hrest
      have hsame := ih (fun hmem => hfirst (List.mem_cons_of_mem a hmem))
        (fun hmem => hsecond (List.mem_cons_of_mem b hmem)) ⟨rest, rfl⟩ ⟨rest', htail⟩
      rw [hab, hsame]

end Decimals

section Disjointness

/-- Tensor names of two layers differ in the number of the layer. -/
theorem layer_unique {a b : ℤ} {name : Bytes} (ha : layerPrefix a <+: name)
    (hb : layerPrefix b <+: name) : a = b := by
  obtain ⟨restA, rfl⟩ := ha
  obtain ⟨restB, hrest⟩ := hb
  unfold layerPrefix at hrest
  have htail : decimal b ++ (ascii "." ++ restB) = decimal a ++ (ascii "." ++ restA) := by
    rw [List.append_assoc, List.append_assoc, List.append_assoc, List.append_assoc] at hrest
    exact List.append_cancel_left hrest
  have hdecimal : decimal a = decimal b := by
    refine eq_of_prefix_separator (dot_not_mem_decimal a) (dot_not_mem_decimal b)
      ⟨restA, List.append_assoc _ _ _⟩ ⟨restB, ?_⟩
    exact (List.append_assoc _ _ _).trans htail
  exact decimal_injective hdecimal

/-- A name that does not start like the name of a layer belongs to none. -/
theorem not_layer_of_head {index : ℤ} {name : Bytes} (h : name.head? ≠ some 98) :
    ¬layerPrefix index <+: name := by
  rintro ⟨rest, rfl⟩
  exact h rfl

/-- No tensor belongs to two parts. -/
theorem part_unique {first second : ModelPart} {name : Bytes} (h : first.Holds name)
    (h' : second.Holds name) : first = second := by
  have hembedding : ∀ index : ℤ, ¬layerPrefix index <+: ascii "token_embd.weight" := fun _ =>
    not_layer_of_head (by decide)
  have hnorm : ∀ index : ℤ, ¬layerPrefix index <+: ascii "output_norm.weight" := fun _ =>
    not_layer_of_head (by decide)
  have hlmHead : ∀ index : ℤ, ¬layerPrefix index <+: ascii "output.weight" := fun _ =>
    not_layer_of_head (by decide)
  cases first with
  | embedding =>
    have hname : name = ascii "token_embd.weight" := h
    subst hname
    cases second with
    | embedding => rfl
    | layer index => exact absurd h' (hembedding index)
    | norm => exact absurd h' (by unfold ModelPart.Holds; decide)
    | lmHead => exact absurd h' (by unfold ModelPart.Holds; decide)
  | layer index =>
    cases second with
    | embedding =>
      have hname : name = ascii "token_embd.weight" := h'
      exact absurd h (hname ▸ hembedding index)
    | layer other => rw [layer_unique h h']
    | norm =>
      have hname : name = ascii "output_norm.weight" := h'
      exact absurd h (hname ▸ hnorm index)
    | lmHead =>
      have hname : name = ascii "output.weight" := h'
      exact absurd h (hname ▸ hlmHead index)
  | norm =>
    have hname : name = ascii "output_norm.weight" := h
    subst hname
    cases second with
    | embedding => exact absurd h' (by unfold ModelPart.Holds; decide)
    | layer index => exact absurd h' (hnorm index)
    | norm => rfl
    | lmHead => exact absurd h' (by unfold ModelPart.Holds; decide)
  | lmHead =>
    have hname : name = ascii "output.weight" := h
    subst hname
    cases second with
    | embedding => exact absurd h' (by unfold ModelPart.Holds; decide)
    | layer index => exact absurd h' (hlmHead index)
    | norm => exact absurd h' (by unfold ModelPart.Holds; decide)
    | lmHead => rfl

/-- A property that one entry of a list has is not shared by two. -/
theorem pairwise_not_of_countP {α : Type} {p : α → Bool} {xs : List α} (h : xs.countP p ≤ 1) :
    xs.Pairwise fun a b => ¬(p a = true ∧ p b = true) := by
  induction xs with
  | nil => exact List.Pairwise.nil
  | cons a xs ih =>
    rw [List.countP_cons] at h
    refine List.pairwise_cons.mpr ⟨fun b hb hboth => ?_, ih (by omega)⟩
    have hpos : 0 < xs.countP p := List.countP_pos_iff.mpr ⟨b, hb, hboth.2⟩
    rw [if_pos hboth.1] at h
    omega

/-- What the checks establish whatever the number of layers is. -/
structure Unshared (partitions : List PartitionNodeConfig) : Prop where
  nonempty : partitions ≠ []
  embedding : partitions.countP (fun p => p.components.embedding) ≤ 1
  lmHead : partitions.countP (fun p => p.components.lmHead) ≤ 1
  layers : (flatLayers partitions).Nodup

theorem unshared_of_valid {partitions : List PartitionNodeConfig} {numLayers : ℤ}
    (h : (validatePartitionGraph partitions numLayers).valid = true) : Unshared partitions := by
  unfold validatePartitionGraph at h
  by_cases hempty : partitions.isEmpty = true
  · rw [if_pos hempty] at h
    cases h
  rw [if_neg hempty] at h
  cases hscan : partitions.foldlM (scanPartition numLayers) {} with
  | error message =>
    rw [hscan] at h
    cases h
  | ok scan =>
    have hscanned := scanned_of_foldlM hscan
    rw [hscan] at h
    dsimp only at h
    by_cases hembedding : scan.embeddingOwnerCount ≠ 1
    · rw [if_pos hembedding] at h
      cases h
    by_cases hlmHead : scan.lmHeadOwnerCount ≠ 1
    · rw [if_neg hembedding, if_pos hlmHead] at h
      cases h
    by_cases hterminal : scan.terminalCount ≠ 1
    · rw [if_neg hembedding, if_neg hlmHead, if_pos hterminal] at h
      cases h
    by_cases hduplicates : duplicateLayers (scan.assignedLayers.insertionSort (· ≤ ·)) ≠ []
    · rw [if_neg hembedding, if_neg hlmHead, if_neg hterminal, if_pos hduplicates] at h
      cases h
    rw [not_not] at hembedding hlmHead hduplicates
    have hassigned : scan.assignedLayers = flatLayers partitions := hscanned.assigned
    have hsorted := List.pairwise_insertionSort (· ≤ ·) scan.assignedLayers
    have hnodup := nodup_of_duplicateLayers hsorted hduplicates
    have hperm := List.perm_insertionSort (· ≤ ·) scan.assignedLayers
    refine ⟨fun hnil => hempty (by rw [hnil]; rfl), ?_, ?_, ?_⟩
    · rw [← hembedding, hscanned.embedding, Nat.zero_add]
    · rw [← hlmHead, hscanned.lmHead, Nat.zero_add]
    · rw [← hassigned]
      exact hperm.nodup_iff.mp hnodup

/-- With at most one owner of the norm, no part belongs to two partitions. -/
theorem Unshared.pairwise {partitions : List PartitionNodeConfig} (h : Unshared partitions)
    (hnorm : partitions.countP (fun p => p.components.norm) ≤ 1) :
    partitions.Pairwise fun p q =>
      ∀ part, ¬(Owns p.components part ∧ Owns q.components part) := by
  have hlayers : partitions.Pairwise fun p q =>
      ∀ index ∈ p.components.layers, index ∉ q.components.layers := by
    have hnodup := h.layers
    unfold flatLayers at hnodup
    rw [List.nodup_flatMap] at hnodup
    exact hnodup.2.imp fun hdisjoint index hp hq => hdisjoint hp hq
  have hembedding := pairwise_not_of_countP h.embedding
  have hlmHead := pairwise_not_of_countP h.lmHead
  have hboth := (hembedding.and hlmHead).and ((pairwise_not_of_countP hnorm).and hlayers)
  refine hboth.imp ?_
  rintro p q ⟨⟨hp, hq⟩, hn, hl⟩ part ⟨hpart, hpart'⟩
  cases part with
  | embedding => exact hp ⟨hpart, hpart'⟩
  | layer index => exact hl index hpart hpart'
  | norm => exact hn ⟨hpart, hpart'⟩
  | lmHead => exact hq ⟨hpart, hpart'⟩

end Disjointness

end LayerInference.TensorPlans
