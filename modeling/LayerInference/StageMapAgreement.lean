import LayerInference.StageMapFiles
import LayerInference.FallibleRuns

/-!
# The two readers of a stage map

Gateway and stage keep their places in the file by different rules. As long as
the entries of the stages stand together in one section and have distinct ids,
the stage with a given id follows the gateway through the entry with this id:
both are inside the same section and have read the same values.
-/

namespace LayerInference.StageMapAgreement

open ByteStrings hiding trimCopy
open TextStreams ConfigLines FallibleRuns PartitionRouting PartitionGraph StageMapFiles

section Lines

/-- A line that both readers skip. -/
def skippedLine (line : Bytes) : Bool :=
  (trimCopy line).isEmpty || startsWith (trimCopy line) (ascii "#")

/-- A key without indent. -/
def topLevelLine (line : Bytes) : Bool :=
  !skippedLine line && indentWidth line == 0 && !isStageListItem (trimCopy line)

/-- The key of the section with the stages. -/
def stagesKeyLine (line : Bytes) : Bool :=
  topLevelLine line && startsWith (trimCopy line) (ascii "inference_stages:")

/-- The top-level keys with a value. -/
def scalarKeyLine (line : Bytes) : Bool :=
  topLevelLine line && (startsWith (trimCopy line) (ascii "model_name:") ||
    startsWith (trimCopy line) (ascii "model_path:") ||
    startsWith (trimCopy line) (ascii "num_layers:"))

/-- The id of the entry that a line begins. -/
def entryId (line : Bytes) : Option ℤ :=
  if !skippedLine line && isStageListItem (trimCopy line) then
    (parseStageIdFromListItem (trimCopy line)).toOption
  else none

/-- The stages stand together in one section, behind which top-level keys come
before anything that is indented, and their ids are distinct. -/
structure OneSection (lines before : List Bytes) (header : Bytes)
    (body scalars rest : List Bytes) : Prop where
  lines_eq : lines = before ++ header :: (body ++ (scalars ++ rest))
  no_section_before : ∀ line ∈ before, stagesKeyLine line = false
  begins : stagesKeyLine header = true
  no_key_inside : ∀ line ∈ body, topLevelLine line = false
  scalar_keys : ∀ line ∈ scalars, skippedLine line = true ∨ scalarKeyLine line = true
  ends : ∀ line ∈ rest.head?, topLevelLine line = true ∧ scalarKeyLine line = false
  no_section_behind : ∀ line ∈ rest, stagesKeyLine line = false
  distinct : (body.filterMap entryId).Nodup

/-- A text does not start with two keys of which none starts with the other. -/
theorem startsWith_other {text key other : Bytes}
    (hne : (startsWith key other || startsWith other key) = false)
    (h : startsWith text key = true) : startsWith text other = false := by
  rw [Bool.or_eq_false_iff] at hne
  by_contra hother
  rw [Bool.not_eq_false] at hother
  have hkey : key <+: text := List.isPrefixOf_iff_prefix.mp h
  rcases List.prefix_or_prefix_of_prefix hkey (List.isPrefixOf_iff_prefix.mp hother) with h' | h'
  · exact absurd (List.isPrefixOf_iff_prefix.mpr h') (by rw [← startsWith, hne.2]; decide)
  · exact absurd (List.isPrefixOf_iff_prefix.mpr h') (by rw [← startsWith, hne.1]; decide)

/-- The key of the stages on a line without indent. -/
theorem stagesKeyLine_of_key {line : Bytes} (hskipped : skippedLine line = false)
    (hindent : indentWidth line = 0)
    (hkey : startsWith (trimCopy line) (ascii "inference_stages:") = true) :
    stagesKeyLine line = true := by
  have hitem : isStageListItem (trimCopy line) = false :=
    startsWith_other (by decide) hkey
  rw [stagesKeyLine, topLevelLine, hskipped, hindent, hitem, hkey]
  rfl

end Lines

section Gateway

variable {load load' : GatewayLoad} {line : Bytes}

/-- Outside the section of the stages, with no partition begun. -/
structure Outside (load : GatewayLoad) : Prop where
  stages : load.insideInferenceStages = false
  partition : load.insideCurrentPartition = false

theorem gatewayLine_skipped (h : skippedLine line = true) : gatewayLine load line = .ok load := by
  rw [gatewayLine]
  exact if_pos h

theorem gatewayLine_read (h : skippedLine line = false) :
    gatewayLine load line = gatewayKeyLine load (indentWidth line) (trimCopy line) := by
  rw [gatewayLine]
  refine if_neg ?_
  rw [show ((trimCopy line).isEmpty || startsWith (trimCopy line) (ascii "#")) = false from h]
  exact Bool.false_ne_true

/-- A top-level key of the configuration itself. -/
def scalarKey (indent : ℕ) (trimmed : Bytes) : Bool :=
  indent == 0 && (startsWith trimmed (ascii "model_name:") ||
    startsWith trimmed (ascii "model_path:") || startsWith trimmed (ascii "num_layers:"))

/-- What keeps the places in the file and the partitions. -/
structure SamePlace (load load' : GatewayLoad) : Prop where
  stages : load'.insideInferenceStages = load.insideInferenceStages
  partition : load'.insideCurrentPartition = load.insideCurrentPartition
  gateway : load'.insideGateway = true → load.insideGateway = true
  current : load'.currentPartition = load.currentPartition
  partitions : load'.config.partitions = load.config.partitions

theorem SamePlace.refl (load : GatewayLoad) : SamePlace load load := ⟨rfl, rfl, id, rfl, rfl⟩

theorem SamePlace.trans {load'' : GatewayLoad} (h : SamePlace load load')
    (h' : SamePlace load' load'') : SamePlace load load'' where
  stages := h'.stages.trans h.stages
  partition := h'.partition.trans h.partition
  gateway := fun hgateway => h.gateway (h'.gateway hgateway)
  current := h'.current.trans h.current
  partitions := h'.partitions.trans h.partitions

/-- Everything a line can do to the gateway. -/
inductive KeyStep (load : GatewayLoad) (indent : ℕ) (trimmed : Bytes) : GatewayLoad → Prop
  | scalar {load' : GatewayLoad} (hkey : scalarKey indent trimmed = true)
      (hsame : SamePlace load load') : KeyStep load indent trimmed load'
  | gateway {load' : GatewayLoad} (hindent : indent = 0)
      (hkey : startsWith trimmed (ascii "inference_gateway:") = true)
      (hstages : load'.insideInferenceStages = false)
      (hpartition : load'.insideCurrentPartition = false)
      (hpartitions : load'.config.partitions = load.config.partitions) :
      KeyStep load indent trimmed load'
  | stages {mid : GatewayLoad} (hindent : indent = 0)
      (hkey : startsWith trimmed (ascii "inference_stages:") = true)
      (hfinish : finishPartitionIfValid load = .ok mid) :
      KeyStep load indent trimmed { mid with
        insideGateway := false
        insideInferenceStages := true
        insideComponents := false
        insideLayers := false }
  | leaves {mid : GatewayLoad} (hscalar : scalarKey indent trimmed = false)
      (hinside : load.insideInferenceStages = true) (hindent : indent = 0)
      (hitem : isStageListItem trimmed = false) (hfinish : finishPartitionIfValid load = .ok mid) :
      KeyStep load indent trimmed { mid with
        insideInferenceStages := false
        insideComponents := false
        insideLayers := false }
  | gatewaySection {load' : GatewayLoad} (hgateway : load.insideGateway = true)
      (hsame : SamePlace load load') : KeyStep load indent trimmed load'
  | outside {load' : GatewayLoad} (hinside : load.insideInferenceStages = false)
      (hsame : SamePlace load load') : KeyStep load indent trimmed load'
  | entry {mid load' : GatewayLoad} (hscalar : scalarKey indent trimmed = false)
      (htop : indent ≠ 0 ∨ isStageListItem trimmed = true)
      (hinside : load.insideInferenceStages = true)
      (hmid : mid = load ∨ load.insideGateway = true)
      (hentry : gatewayStageLine mid indent trimmed = .ok load') :
      KeyStep load indent trimmed load'

/-- A line in the section of the gateway changes values of the configuration only. -/
theorem gatewaySectionLine_keeps {trimmed : Bytes}
    (h : gatewaySectionLine load trimmed = .ok (some load')) :
    load.insideGateway = true ∧ SamePlace load load' := by
  rw [gatewaySectionLine] at h
  by_cases hgateway : load.insideGateway = true
  · refine ⟨hgateway, ?_⟩
    rw [if_neg (by rw [hgateway]; decide)] at h
    split_ifs at h
    · cases h
      exact ⟨rfl, rfl, fun _ => hgateway, rfl, rfl⟩
    · cases h
      exact ⟨rfl, rfl, fun _ => hgateway, rfl, rfl⟩
    · split at h
      · cases h
        exact ⟨rfl, rfl, fun _ => hgateway, rfl, rfl⟩
      · cases h
    · cases h
  · rw [if_pos (by rw [Bool.not_eq_true] at hgateway; rw [hgateway]; decide)] at h
    cases h

/-- What a line that is no top-level key does. -/
theorem gatewayOtherLine_cases {indent : ℕ} {trimmed : Bytes}
    (hscalar : scalarKey indent trimmed = false)
    (htop : load.insideInferenceStages = true → indent ≠ 0 ∨ isStageListItem trimmed = true)
    (h : gatewayOtherLine load indent trimmed = .ok load') : KeyStep load indent trimmed load' := by
  have hsome (mid : GatewayLoad) (hsame : SamePlace load mid)
      (hread : gatewaySectionLine mid trimmed = .ok (some load')) :
      KeyStep load indent trimmed load' := by
    obtain ⟨hgateway, hsection⟩ := gatewaySectionLine_keeps hread
    exact .gatewaySection (hsame.gateway hgateway) (hsame.trans hsection)
  have hnone (mid : GatewayLoad) (hsame : SamePlace load mid)
      (hmid : mid = load ∨ load.insideGateway = true)
      (h : (if !mid.insideInferenceStages then .ok mid
        else gatewayStageLine mid indent trimmed) = .ok load') :
      KeyStep load indent trimmed load' := by
    cases hinside : mid.insideInferenceStages with
    | false =>
      simp only [hinside] at h
      cases h
      exact .outside (hsame.stages.symm.trans hinside) hsame
    | true =>
      simp only [hinside] at h
      have hstages := hsame.stages.symm.trans hinside
      exact .entry hscalar (htop hstages) hstages hmid h
  unfold gatewayOtherLine at h
  by_cases hleaves : (load.insideGateway && decide ((indent : ℤ) ≤ load.gatewayIndent) &&
      !startsWith trimmed (ascii "inference_gateway:")) = true
  · simp only [hleaves, if_true] at h
    rw [Bool.and_eq_true_iff, Bool.and_eq_true_iff] at hleaves
    have hleft : SamePlace load { load with insideGateway := false } :=
      ⟨rfl, rfl, (Bool.noConfusion ·), rfl, rfl⟩
    obtain ⟨read, hread, h⟩ := ok_of_bind h
    cases read with
    | some load'' =>
      cases h
      exact hsome _ hleft hread
    | none => exact hnone _ hleft (.inr hleaves.1.1) h
  · rw [Bool.not_eq_true] at hleaves
    simp only [hleaves, Bool.false_eq_true, if_false] at h
    obtain ⟨read, hread, h⟩ := ok_of_bind h
    cases read with
    | some load'' =>
      cases h
      exact hsome load (SamePlace.refl load) hread
    | none => exact hnone load (SamePlace.refl load) (.inl rfl) h

theorem gatewayKeyLine_cases {indent : ℕ} {trimmed : Bytes}
    (h : gatewayKeyLine load indent trimmed = .ok load') : KeyStep load indent trimmed load' := by
  unfold gatewayKeyLine at h
  split at h
  · next hkey =>
    cases h
    rw [Bool.and_eq_true_iff] at hkey
    exact .scalar (by rw [scalarKey, hkey.1, hkey.2]; rfl) ⟨rfl, rfl, id, rfl, rfl⟩
  · next hname =>
    split at h
    · next hkey =>
      cases h
      rw [Bool.and_eq_true_iff] at hkey
      refine .scalar ?_ ⟨rfl, rfl, id, rfl, rfl⟩
      rw [scalarKey, hkey.1, hkey.2, Bool.or_true]
      rfl
    · next hpath =>
      split at h
      · next hkey =>
        obtain ⟨numLayers, -, h⟩ := ok_of_bind h
        cases h
        rw [Bool.and_eq_true_iff] at hkey
        refine .scalar ?_ ⟨rfl, rfl, id, rfl, rfl⟩
        rw [scalarKey, hkey.1, hkey.2, Bool.or_true]
        rfl
      · next hlayers =>
        have hscalar : scalarKey indent trimmed = false := by
          rw [Bool.not_eq_true] at hname hpath hlayers
          rw [scalarKey, Bool.and_or_distrib_left, Bool.and_or_distrib_left, hname, hpath, hlayers]
          rfl
        split at h
        · next hkey =>
          cases h
          rw [Bool.and_eq_true_iff, beq_iff_eq] at hkey
          exact .gateway hkey.1 hkey.2 rfl rfl rfl
        · split at h
          · next hkey =>
            obtain ⟨mid, hfinish, h⟩ := ok_of_bind h
            cases h
            rw [Bool.and_eq_true_iff, beq_iff_eq] at hkey
            exact .stages hkey.1 hkey.2 hfinish
          · next hstages =>
            split at h
            · next hleaves =>
              obtain ⟨mid, hfinish, h⟩ := ok_of_bind h
              cases h
              simp only [Bool.and_eq_true, beq_iff_eq, Bool.not_eq_true'] at hleaves
              exact .leaves hscalar hleaves.1.1.1 hleaves.1.1.2 hleaves.1.2 hfinish
            · next hstays =>
              refine gatewayOtherLine_cases hscalar (fun hinside => ?_) h
              by_cases hindent : indent = 0
              · have hnokey : startsWith trimmed (ascii "inference_stages:") = false := by
                  simpa [hindent] using hstages
                refine .inr ?_
                simpa [hinside, hindent, hnokey] using hstays
              · exact .inl hindent

/-- Outside the stages, only their key leads inside. -/
theorem outside_step (h : Outside load) (hline : stagesKeyLine line = false)
    (hstep : gatewayLine load line = .ok load') :
    Outside load' ∧ load'.config.partitions = load.config.partitions := by
  cases hskipped : skippedLine line with
  | true =>
    rw [gatewayLine_skipped hskipped] at hstep
    cases hstep
    exact ⟨h, rfl⟩
  | false =>
    rw [gatewayLine_read hskipped] at hstep
    have hsame (hsame : SamePlace load load') :
        Outside load' ∧ load'.config.partitions = load.config.partitions :=
      ⟨⟨hsame.stages.trans h.stages, hsame.partition.trans h.partition⟩, hsame.partitions⟩
    cases gatewayKeyLine_cases hstep with
    | scalar hkey hplace => exact hsame hplace
    | gateway hindent hkey hstages hpartition hpartitions =>
      exact ⟨⟨hstages, hpartition⟩, hpartitions⟩
    | stages hindent hkey hfinish =>
      rw [stagesKeyLine_of_key hskipped hindent hkey] at hline
      cases hline
    | leaves hscalar hinside hindent hitem hfinish =>
      exact absurd (hinside.symm.trans h.stages) (by decide)
    | gatewaySection hgateway hplace => exact hsame hplace
    | outside hinside hplace => exact hsame hplace
    | entry hscalar htop hinside hmid hentry =>
      exact absurd (hinside.symm.trans h.stages) (by decide)

/-- A line between the stages that is no key is read as a line of a stage. -/
theorem inside_step (hgateway : load.insideGateway = false)
    (hinside : load.insideInferenceStages = true) (hskipped : skippedLine line = false)
    (hline : topLevelLine line = false) (hstep : gatewayLine load line = .ok load') :
    gatewayStageLine load (indentWidth line) (trimCopy line) = .ok load' := by
  have htop (hindent : indentWidth line = 0) : isStageListItem (trimCopy line) = true := by
    rw [topLevelLine, hskipped, hindent] at hline
    simpa using hline
  have hkey {key : Bytes} (hindent : indentWidth line = 0)
      (hne : (startsWith key (ascii "- stage_id:") || startsWith (ascii "- stage_id:") key) = false)
      (hkey : startsWith (trimCopy line) key = true) : False := by
    have hitem := startsWith_other hne hkey
    exact absurd (hitem.symm.trans (htop hindent)) (by decide)
  rw [gatewayLine_read hskipped] at hstep
  cases gatewayKeyLine_cases hstep with
  | scalar hscalar hsame =>
    rw [scalarKey, Bool.and_eq_true_iff, Bool.or_eq_true_iff, Bool.or_eq_true_iff,
      beq_iff_eq] at hscalar
    obtain ⟨hindent, (hname | hpath) | hlayers⟩ := hscalar
    · exact (hkey hindent (by decide) hname).elim
    · exact (hkey hindent (by decide) hpath).elim
    · exact (hkey hindent (by decide) hlayers).elim
  | gateway hindent hstarts _ _ _ => exact (hkey hindent (by decide) hstarts).elim
  | stages hindent hstarts _ => exact (hkey hindent (by decide) hstarts).elim
  | leaves _ _ hindent hitem _ => exact absurd (hitem.symm.trans (htop hindent)) (by decide)
  | gatewaySection hinsideGateway _ => exact absurd (hinsideGateway.symm.trans hgateway) (by decide)
  | outside houtside _ => exact absurd (houtside.symm.trans hinside) (by decide)
  | entry _ _ _ hmid hentry =>
    rcases hmid with rfl | hinsideGateway
    · exact hentry
    · exact absurd (hinsideGateway.symm.trans hgateway) (by decide)

theorem finish_outside (h : load.insideCurrentPartition = false) :
    finishPartitionIfValid load = .ok load := by
  rw [finishPartitionIfValid, h]
  rfl

end Gateway

section Following

/-- A stage has read the same values as the gateway. -/
structure Agrees (config : StageConfig) (p : GatewayPartition) : Prop where
  serviceName : config.serviceName = p.serviceName
  physicalNode : config.physicalNode = p.physicalNode
  partitionFile : config.partitionFile = p.partitionFile
  nativePartitionFile : config.nativePartitionFile = p.nativePartitionFile
  backend : config.backend = p.backend
  nextStageUrl : config.nextStageUrl = p.nextStageUrl
  components : config.components = p.components

/-- The stage with the wanted id follows the gateway through the entries seen. -/
structure Follows (wanted : ℤ) (seen : List ℤ) (g : GatewayLoad) (s : StageLoad) : Prop where
  gateway : g.insideGateway = false
  stages : g.insideInferenceStages = true
  inside : s.insideInferenceStages = true
  target : s.insideTargetStage = (g.insideCurrentPartition && g.currentPartition.stageId == wanted)
  places : s.insideTargetStage = true →
    s.insideComponents = g.insideComponents ∧ s.insideLayers = g.insideLayers
  current : s.insideTargetStage = true → Agrees s.config g.currentPartition
  finished : ∀ p ∈ g.config.partitions, p.stageId = wanted → Agrees s.config p
  only : s.insideTargetStage = true → ∀ p ∈ g.config.partitions, p.stageId ≠ wanted
  fresh : wanted ∉ seen → Agrees s.config emptyPartition
  partitionIds : ∀ p ∈ g.config.partitions, p.stageId ∈ seen
  currentId : g.insideCurrentPartition = true → g.currentPartition.stageId ∈ seen

variable {config : StageConfig} {p : GatewayPartition} {g g' : GatewayLoad} {s : StageLoad}
  {wanted : ℤ} {seen : List ℤ} {line : Bytes}

/-- A line outside the components sets the same field. -/
theorem Agrees.field (h : Agrees config p) (trimmed : Bytes) :
    Agrees (stageField config trimmed) (gatewayStageField p trimmed) ∧
      (gatewayStageField p trimmed).stageId = p.stageId := by
  obtain ⟨h1, h2, h3, h4, h5, h6, h7⟩ := h
  by_cases hid : startsWith trimmed (ascii "partition_id:") = true
  · have hstage : stageField config trimmed = config := by
      have hnone {key : Bytes} (hne : (startsWith (ascii "partition_id:") key ||
          startsWith key (ascii "partition_id:")) = false) : ¬startsWith trimmed key = true := by
        rw [startsWith_other hne hid]
        exact Bool.false_ne_true
      rw [stageField, if_neg (hnone (by decide)), if_neg (hnone (by decide)),
        if_neg (hnone (by decide)), if_neg (hnone (by decide)), if_neg (hnone (by decide)),
        if_neg (hnone (by decide))]
    rw [hstage, gatewayStageField, if_pos hid]
    exact ⟨⟨h1, h2, h3, h4, h5, h6, h7⟩, rfl⟩
  · rw [gatewayStageField, if_neg hid, stageField]
    split_ifs
    · exact ⟨⟨rfl, h2, h3, h4, h5, h6, h7⟩, rfl⟩
    · exact ⟨⟨h1, rfl, h3, h4, h5, h6, h7⟩, rfl⟩
    · exact ⟨⟨h1, h2, rfl, h4, h5, h6, h7⟩, rfl⟩
    · exact ⟨⟨h1, h2, h3, rfl, h5, h6, h7⟩, rfl⟩
    · exact ⟨⟨h1, h2, h3, h4, rfl, h6, h7⟩, rfl⟩
    · exact ⟨⟨h1, h2, h3, h4, h5, rfl, h7⟩, rfl⟩
    · exact ⟨⟨h1, h2, h3, h4, h5, h6, h7⟩, rfl⟩

/-- What finishing a partition leaves. -/
theorem finish_spec (h : finishPartitionIfValid g = .ok g') :
    g'.insideGateway = g.insideGateway ∧ g'.insideInferenceStages = g.insideInferenceStages ∧
      g'.insideCurrentPartition = false ∧
      ∀ p ∈ g'.config.partitions, p ∈ g.config.partitions ∨
        (g.insideCurrentPartition = true ∧ p.stageId = g.currentPartition.stageId ∧
          ∀ config, Agrees config g.currentPartition → Agrees config p) := by
  unfold finishPartitionIfValid at h
  cases hinside : g.insideCurrentPartition with
  | false =>
    rw [hinside] at h
    cases h
    exact ⟨rfl, rfl, hinside, fun p hp => .inl hp⟩
  | true =>
    rw [hinside] at h
    simp only [Bool.not_true, Bool.false_eq_true, if_false] at h
    split_ifs at h with hid hempty hname hname
    · cases h
      refine ⟨rfl, rfl, rfl, fun p hp => ?_⟩
      rcases List.mem_append.mp hp with hold | hnew
      · exact .inl hold
      · rw [List.mem_singleton.mp hnew]
        exact .inr ⟨rfl, rfl, fun config h => ⟨h.1, h.2, h.3, h.4, h.5, h.6, h.7⟩⟩
    · cases h
      refine ⟨rfl, rfl, rfl, fun p hp => ?_⟩
      rcases List.mem_append.mp hp with hold | hnew
      · exact .inl hold
      · rw [List.mem_singleton.mp hnew]
        exact .inr ⟨rfl, rfl, fun config h => h⟩

/-- Finishing a partition does not part the stage from the gateway. -/
theorem Follows.finished_of_finish (h : Follows wanted seen g s)
    (hfinish : finishPartitionIfValid g = .ok g') :
    (∀ p ∈ g'.config.partitions, p.stageId = wanted → Agrees s.config p) ∧
      ∀ p ∈ g'.config.partitions, p.stageId ∈ seen := by
  obtain ⟨-, -, -, hpartitions⟩ := finish_spec hfinish
  constructor
  · intro p hp hid
    rcases hpartitions p hp with hold | ⟨hinside, hsame, hagrees⟩
    · exact h.finished p hold hid
    · have htarget : s.insideTargetStage = true := by
        rw [h.target, hinside, ← hsame, hid]
        simp
      exact hagrees s.config (h.current htarget)
  · intro p hp
    rcases hpartitions p hp with hold | ⟨hinside, hsame, -⟩
    · exact h.partitionIds p hold
    · rw [hsame]
      exact h.currentId hinside

/-- The places of the gateway that a line of an entry does not change. -/
structure SameEntry (g g' : GatewayLoad) : Prop where
  gateway : g'.insideGateway = g.insideGateway
  stages : g'.insideInferenceStages = g.insideInferenceStages
  partition : g'.insideCurrentPartition = g.insideCurrentPartition
  id : g'.currentPartition.stageId = g.currentPartition.stageId
  partitions : g'.config.partitions = g.config.partitions

/-- A line of an entry, but for its first one, stays in the entry. -/
theorem gatewayStageLine_keeps {indent : ℕ} {trimmed : Bytes}
    (hitem : isStageListItem trimmed = false)
    (h : gatewayStageLine g indent trimmed = .ok g') : SameEntry g g' := by
  have hfield (p : GatewayPartition) : (gatewayStageField p trimmed).stageId = p.stageId := by
    unfold gatewayStageField
    split_ifs <;> rfl
  rw [gatewayStageLine, if_neg (by rw [hitem]; exact Bool.false_ne_true)] at h
  split at h
  · cases h
    exact ⟨rfl, rfl, rfl, rfl, rfl⟩
  · split at h
    · cases h
      exact ⟨rfl, rfl, rfl, rfl, rfl⟩
    · dsimp only at h
      generalize hleft : (if (g.insideComponents && decide (indent ≤ 2) &&
        !startsWith trimmed (ascii "components:")) = true then
        { g with insideComponents := false, insideLayers := false } else g) = left at h
      have hsame : SameEntry g left := by
        rw [← hleft]
        split <;> exact ⟨rfl, rfl, rfl, rfl, rfl⟩
      split at h
      · cases h
        exact ⟨hsame.1, hsame.2, hsame.3, (hfield _).trans hsame.4, hsame.5⟩
      · obtain ⟨read, -, h⟩ := ok_of_bind h
        cases h
        exact ⟨hsame.1, hsame.2, hsame.3, hsame.4, hsame.5⟩

variable (wanted) in
/-- A line of the wanted entry is read alike. -/
theorem wanted_step {indent : ℕ} {trimmed : Bytes} (hitem : isStageListItem trimmed = false)
    (hpartition : g.insideCurrentPartition = true) (htarget : s.insideTargetStage = true)
    (hcomponents : s.insideComponents = g.insideComponents)
    (hlayers : s.insideLayers = g.insideLayers) (hagrees : Agrees s.config g.currentPartition)
    (h : gatewayStageLine g indent trimmed = .ok g') :
    ∃ s', stageEntryLine wanted s indent trimmed = .ok s' ∧
      s'.insideInferenceStages = s.insideInferenceStages ∧ s'.insideTargetStage = true ∧
      s'.insideComponents = g'.insideComponents ∧ s'.insideLayers = g'.insideLayers ∧
      Agrees s'.config g'.currentPartition := by
  have hnoitem : ¬isStageListItem trimmed = true := by
    rw [hitem]
    exact Bool.false_ne_true
  rw [gatewayStageLine, if_neg hnoitem, if_neg (by rw [hpartition]; decide)] at h
  rw [stageEntryLine, if_neg hnoitem, if_neg (by rw [htarget]; decide)]
  split at h
  · next hkey =>
    cases h
    exact ⟨_, if_pos hkey, rfl, htarget, rfl, rfl, hagrees⟩
  · next hkey =>
    rw [if_neg hkey, hcomponents]
    dsimp only at h ⊢
    by_cases hleaves : (g.insideComponents && decide (indent ≤ 2) &&
        !startsWith trimmed (ascii "components:")) = true
    · simp only [hleaves, if_true, Bool.not_false] at h ⊢
      cases h
      exact ⟨_, rfl, rfl, htarget, rfl, rfl, (hagrees.field trimmed).1⟩
    · rw [Bool.not_eq_true] at hleaves
      simp only [hleaves, Bool.false_eq_true, if_false] at h ⊢
      rw [hcomponents]
      split at h
      · next houtside =>
        cases h
        exact ⟨_, if_pos houtside, rfl, htarget, rfl, hlayers, (hagrees.field trimmed).1⟩
      · next hinside =>
        rw [if_neg hinside, hagrees.components, hlayers]
        obtain ⟨read, hread, h⟩ := ok_of_bind h
        cases h
        rw [hread]
        refine ⟨_, rfl, rfl, htarget, rfl, rfl, ?_⟩
        exact ⟨hagrees.1, hagrees.2, hagrees.3, hagrees.4, hagrees.5, hagrees.6, rfl⟩

theorem stageLine_skipped (h : skippedLine line = true) :
    stageLine wanted s line = .ok (some s) := by
  rw [stageLine]
  exact if_pos h

/-- A line between the stages that is no key. -/
theorem stageLine_inside (hinside : s.insideInferenceStages = true)
    (hskipped : skippedLine line = false) (hline : topLevelLine line = false) :
    stageLine wanted s line =
      (stageEntryLine wanted s (indentWidth line) (trimCopy line)).bind fun s => .ok (some s) := by
  have hstays : (indentWidth line == 0 && !isStageListItem (trimCopy line) &&
      !startsWith (trimCopy line) (ascii "inference_stages:")) = false := by
    rw [topLevelLine, hskipped] at hline
    rw [show (indentWidth line == 0 && !isStageListItem (trimCopy line)) = false from hline]
    rfl
  have hread : ((trimCopy line).isEmpty || startsWith (trimCopy line) (ascii "#")) = false :=
    hskipped
  rw [stageLine]
  simp only [hread, hinside, hstays, Bool.not_true, Bool.false_eq_true, if_false]
  rfl

/-- The first line of an entry. -/
theorem Follows.begin_entry (h : Follows wanted seen g s) {trimmed : Bytes} {indent : ℕ}
    (hitem : isStageListItem trimmed = true) {stageId : ℤ}
    (hid : parseStageIdFromListItem trimmed = .ok stageId) (hnew : stageId ∉ seen)
    (hstep : gatewayStageLine g indent trimmed = .ok g') :
    ∃ s', stageEntryLine wanted s indent trimmed = .ok s' ∧
      Follows wanted (seen ++ [stageId]) g' s' := by
  rw [gatewayStageLine, if_pos hitem] at hstep
  obtain ⟨mid, hfinish, hstep⟩ := ok_of_bind hstep
  rw [hid] at hstep
  cases hstep
  obtain ⟨hgateway, hstages, -, -⟩ := finish_spec hfinish
  obtain ⟨hfinished, hids⟩ := h.finished_of_finish hfinish
  have hmember : ∀ p ∈ mid.config.partitions, p.stageId ∈ seen ++ [stageId] :=
    fun p hp => List.mem_append_left _ (hids p hp)
  have hlast : stageId ∈ seen ++ [stageId] := List.mem_append_right _ List.mem_cons_self
  rw [stageEntryLine, if_pos hitem, hid]
  by_cases hwanted : stageId = wanted
  · subst hwanted
    have hfresh := h.fresh hnew
    have hnone : ∀ p ∈ mid.config.partitions, p.stageId ≠ stageId :=
      fun p hp heq => hnew (heq ▸ hids p hp)
    have hcomponents : ({ s.config.components with layers := [] } : PartitionComponents) =
        emptyPartition.components := by
      rw [hfresh.components]
      rfl
    refine ⟨_, if_pos (beq_self_eq_true stageId), ?_⟩
    exact
      { gateway := hgateway.trans h.gateway
        stages := hstages.trans h.stages
        inside := h.inside
        target := rfl
        places := fun _ => ⟨rfl, rfl⟩
        current := fun _ => ⟨hfresh.1, hfresh.2, hfresh.3, hfresh.4, hfresh.5, hfresh.6,
          hcomponents⟩
        finished := fun p hp hsame => absurd hsame (hnone p hp)
        only := fun _ => hnone
        fresh := fun hseen => absurd hlast hseen
        partitionIds := hmember
        currentId := fun _ => hlast }
  · have hother : (stageId == wanted) = false := beq_false_of_ne hwanted
    refine ⟨_, if_neg (by rw [hother]; exact Bool.false_ne_true), ?_⟩
    exact
      { gateway := hgateway.trans h.gateway
        stages := hstages.trans h.stages
        inside := h.inside
        target := rfl
        places := fun htarget => absurd (hother.symm.trans htarget) (by decide)
        current := fun htarget => absurd (hother.symm.trans htarget) (by decide)
        finished := hfinished
        only := fun htarget => absurd (hother.symm.trans htarget) (by decide)
        fresh := fun hseen => h.fresh fun hmem => hseen (List.mem_append_left _ hmem)
        partitionIds := hmember
        currentId := fun _ => hlast }

/-- A further line of an entry. -/
theorem Follows.go_on (h : Follows wanted seen g s) {trimmed : Bytes} {indent : ℕ}
    (hitem : isStageListItem trimmed = false)
    (hstep : gatewayStageLine g indent trimmed = .ok g') :
    ∃ s', stageEntryLine wanted s indent trimmed = .ok s' ∧ Follows wanted seen g' s' := by
  have hkeeps := gatewayStageLine_keeps hitem hstep
  have hnoitem : ¬isStageListItem trimmed = true := by
    rw [hitem]
    exact Bool.false_ne_true
  have hpartitionIds : ∀ p ∈ g'.config.partitions, p.stageId ∈ seen := by
    rw [hkeeps.partitions]
    exact h.partitionIds
  have hcurrentId : g'.insideCurrentPartition = true → g'.currentPartition.stageId ∈ seen := by
    rw [hkeeps.partition, hkeeps.id]
    exact h.currentId
  by_cases htarget : s.insideTargetStage = true
  · have hinside := h.target.symm.trans htarget
    rw [Bool.and_eq_true_iff, beq_iff_eq] at hinside
    obtain ⟨hcomponents, hlayers⟩ := h.places htarget
    obtain ⟨s', hs', hstages, htarget', hcomponents', hlayers', hagrees⟩ :=
      wanted_step wanted hitem hinside.1 htarget hcomponents hlayers (h.current htarget) hstep
    have hseen := h.currentId hinside.1
    rw [hinside.2] at hseen
    refine ⟨s', hs', ?_⟩
    exact
      { gateway := hkeeps.gateway.trans h.gateway
        stages := hkeeps.stages.trans h.stages
        inside := hstages.trans h.inside
        target := by rw [htarget', hkeeps.partition, hkeeps.id, hinside.1, hinside.2]; simp
        places := fun _ => ⟨hcomponents', hlayers'⟩
        current := fun _ => hagrees
        finished := by
          rw [hkeeps.partitions]
          exact fun p hp hsame => absurd hsame (h.only htarget p hp)
        only := by
          rw [hkeeps.partitions]
          exact fun _ => h.only htarget
        fresh := fun hnew => absurd hseen hnew
        partitionIds := hpartitionIds
        currentId := hcurrentId }
  · rw [Bool.not_eq_true] at htarget
    have hsame : stageEntryLine wanted s indent trimmed = .ok s := by
      rw [stageEntryLine, if_neg hnoitem, if_pos (by rw [htarget]; rfl)]
    refine ⟨s, hsame, ?_⟩
    exact
      { gateway := hkeeps.gateway.trans h.gateway
        stages := hkeeps.stages.trans h.stages
        inside := h.inside
        target := by rw [h.target, hkeeps.partition, hkeeps.id]
        places := fun htrue => absurd (htarget.symm.trans htrue) (by decide)
        current := fun htrue => absurd (htarget.symm.trans htrue) (by decide)
        finished := by
          rw [hkeeps.partitions]
          exact h.finished
        only := fun htrue => absurd (htarget.symm.trans htrue) (by decide)
        fresh := h.fresh
        partitionIds := hpartitionIds
        currentId := hcurrentId }

/-- Between the stages the stage keeps following. -/
theorem Follows.step (h : Follows wanted seen g s) (hline : topLevelLine line = false)
    (hnew : ∀ id ∈ entryId line, id ∉ seen) (hstep : gatewayLine g line = .ok g') :
    ∃ s', stageLine wanted s line = .ok (some s') ∧
      Follows wanted (seen ++ (entryId line).toList) g' s' := by
  cases hskipped : skippedLine line with
  | true =>
    rw [gatewayLine_skipped hskipped] at hstep
    cases hstep
    refine ⟨s, stageLine_skipped hskipped, ?_⟩
    rw [entryId, hskipped]
    simpa using h
  | false =>
    have hentry := inside_step h.gateway h.stages hskipped hline hstep
    rw [stageLine_inside h.inside hskipped hline]
    cases hitem : isStageListItem (trimCopy line) with
    | true =>
      cases hid : parseStageIdFromListItem (trimCopy line) with
      | error message =>
        rw [gatewayStageLine, if_pos hitem] at hentry
        obtain ⟨mid, -, hentry⟩ := ok_of_bind hentry
        rw [hid] at hentry
        cases hentry
      | ok stageId =>
        have hentryId : entryId line = some stageId := by
          rw [entryId, hskipped, hitem, hid]
          rfl
        obtain ⟨s', hs', hfollows⟩ := h.begin_entry hitem hid (hnew stageId hentryId) hentry
        rw [hentryId, hs']
        exact ⟨s', rfl, hfollows⟩
    | false =>
      have hentryId : entryId line = none := by
        rw [entryId, hskipped, hitem]
        rfl
      obtain ⟨s', hs', hfollows⟩ := h.go_on hitem hentry
      rw [hentryId, hs']
      exact ⟨s', rfl, by simpa using hfollows⟩

end Following

section Files

variable {g g' : GatewayLoad} {s : StageLoad} {wanted : ℤ} {seen : List ℤ} {config : StageConfig}
  {before body scalars rest : List Bytes} {header : Bytes}

theorem stageLines_cons {line : Bytes} {lines : List Bytes} {s' : StageLoad}
    (h : stageLine wanted s line = .ok (some s')) :
    stageLines wanted s (line :: lines) = stageLines wanted s' lines := by
  rw [stageLines, h]
  rfl

/-- Through all entries the stage follows. -/
theorem Follows.run (h : Follows wanted seen g s) (hbody : ∀ line ∈ body, topLevelLine line = false)
    (hdistinct : (seen ++ body.filterMap entryId).Nodup)
    (hrun : body.foldlM gatewayLine g = .ok g') (lines : List Bytes) :
    ∃ s', stageLines wanted s (body ++ lines) = stageLines wanted s' lines ∧
      Follows wanted (seen ++ body.filterMap entryId) g' s' := by
  induction body generalizing g s seen with
  | nil =>
    cases hrun
    exact ⟨s, rfl, by simpa using h⟩
  | cons line body ih =>
    rw [List.foldlM_cons] at hrun
    obtain ⟨mid, hline, hrun⟩ := ok_of_bind hrun
    have hids : (line :: body).filterMap entryId = (entryId line).toList ++
        body.filterMap entryId := by
      rw [List.filterMap_cons]
      cases entryId line <;> rfl
    rw [hids, ← List.append_assoc] at hdistinct ⊢
    have hnew : ∀ id ∈ entryId line, id ∉ seen := by
      intro id hid hseen
      have hdisjoint := (List.nodup_append.mp (List.nodup_append.mp hdistinct).1).2.2
      exact hdisjoint id hseen id (by rw [Option.mem_def.mp hid]; exact List.mem_singleton_self id)
        rfl
    obtain ⟨s', hs', hfollows⟩ := h.step (hbody line List.mem_cons_self) hnew hline
    obtain ⟨s'', hs'', hfollows'⟩ := ih hfollows
      (fun line' hmem => hbody line' (List.mem_cons_of_mem line hmem)) hdistinct hrun
    exact ⟨s'', (stageLines_cons hs').trans hs'', hfollows'⟩

/-- Before the section of the stages nothing is read. -/
theorem stageLines_before (hinside : s.insideInferenceStages = false)
    (hbefore : ∀ line ∈ before, stagesKeyLine line = false) (lines : List Bytes) :
    stageLines wanted s (before ++ lines) = stageLines wanted s lines := by
  induction before with
  | nil => rfl
  | cons line before ih =>
    have hline : stageLine wanted s line = .ok (some s) := by
      cases hskipped : skippedLine line with
      | true => exact stageLine_skipped hskipped
      | false =>
        have hkey : (indentWidth line == 0 &&
            startsWith (trimCopy line) (ascii "inference_stages:")) = false := by
          rw [Bool.and_eq_false_iff]
          by_contra hkey
          rw [not_or, Bool.not_eq_false, Bool.not_eq_false, beq_iff_eq] at hkey
          have hline := hbefore line List.mem_cons_self
          rw [stagesKeyLine_of_key hskipped hkey.1 hkey.2] at hline
          cases hline
        have hread : ((trimCopy line).isEmpty || startsWith (trimCopy line) (ascii "#")) =
            false := hskipped
        rw [stageLine]
        simp only [hread, hinside, hkey, Bool.not_false, Bool.false_eq_true, if_false, if_true]
    rw [List.cons_append, stageLines_cons hline]
    exact ih fun line' hmem => hbefore line' (List.mem_cons_of_mem line hmem)

/-- What is known of a line with the key of the stages. -/
theorem stagesKeyLine_parts {line : Bytes} (h : stagesKeyLine line = true) :
    skippedLine line = false ∧ indentWidth line = 0 ∧
      startsWith (trimCopy line) (ascii "inference_stages:") = true := by
  rw [stagesKeyLine, topLevelLine, Bool.and_eq_true_iff, Bool.and_eq_true_iff, Bool.and_eq_true_iff,
    Bool.not_eq_true', beq_iff_eq] at h
  exact ⟨h.1.1.1, h.1.1.2, h.2⟩

theorem stageLine_header (hinside : s.insideInferenceStages = false)
    (h : stagesKeyLine header = true) :
    stageLine wanted s header = .ok (some { s with insideInferenceStages := true }) := by
  obtain ⟨hskipped, hindent, hkey⟩ := stagesKeyLine_parts h
  have hread : ((trimCopy header).isEmpty || startsWith (trimCopy header) (ascii "#")) = false :=
    hskipped
  rw [stageLine]
  simp only [hread, hinside, hindent, hkey, Bool.not_false, Bool.false_eq_true, if_false, if_true]
  rfl

theorem gatewayLine_header (houtside : Outside g) (h : stagesKeyLine header = true) :
    gatewayLine g header = .ok { g with
      insideGateway := false
      insideInferenceStages := true
      insideComponents := false
      insideLayers := false } := by
  obtain ⟨hskipped, hindent, hkey⟩ := stagesKeyLine_parts h
  have hother {key : Bytes} (hne : (startsWith (ascii "inference_stages:") key ||
      startsWith key (ascii "inference_stages:")) = false) :
      ¬(((0 : ℕ) == 0 && startsWith (trimCopy header) key) = true) := by
    rw [startsWith_other hne hkey]
    decide
  rw [gatewayLine_read hskipped, hindent, gatewayKeyLine, if_neg (hother (by decide)),
    if_neg (hother (by decide)), if_neg (hother (by decide)), if_neg (hother (by decide)),
    if_pos (by rw [hkey]; decide), finish_outside houtside.partition]
  rfl

/-- What the stage with the wanted id has read is what the gateway has or will have. -/
structure Read (wanted : ℤ) (config : StageConfig) (g : GatewayLoad) : Prop where
  gateway : g.insideGateway = false
  stages : g.insideInferenceStages = true
  finished : ∀ p ∈ g.config.partitions, p.stageId = wanted → Agrees config p
  current : g.insideCurrentPartition = true → g.currentPartition.stageId = wanted →
    Agrees config g.currentPartition

theorem Follows.read (h : Follows wanted seen g s) : Read wanted s.config g where
  gateway := h.gateway
  stages := h.stages
  finished := h.finished
  current hinside hid := by
    refine h.current ?_
    rw [h.target, hinside, hid]
    simp

theorem Read.finish (h : Read wanted config g) (hfinish : finishPartitionIfValid g = .ok g') :
    ∀ p ∈ g'.config.partitions, p.stageId = wanted → Agrees config p := by
  obtain ⟨-, -, -, hpartitions⟩ := finish_spec hfinish
  intro p hp hid
  rcases hpartitions p hp with hold | ⟨hinside, hsame, hagrees⟩
  · exact h.finished p hold hid
  · exact hagrees config (h.current hinside (hsame.symm.trans hid))

/-- A top-level value behind the stages. -/
theorem Read.scalar {line : Bytes} (h : Read wanted config g)
    (hline : skippedLine line = true ∨ scalarKeyLine line = true)
    (hstep : gatewayLine g line = .ok g') : Read wanted config g' := by
  rcases hline with hskipped | hscalar
  · rw [gatewayLine_skipped hskipped] at hstep
    cases hstep
    exact h
  · rw [scalarKeyLine, topLevelLine, Bool.and_eq_true_iff, Bool.and_eq_true_iff,
      Bool.and_eq_true_iff, Bool.not_eq_true', beq_iff_eq] at hscalar
    obtain ⟨⟨⟨hskipped, hindent⟩, hitem⟩, hkey⟩ := hscalar
    have hscalarKey : scalarKey (indentWidth line) (trimCopy line) = true := by
      rw [scalarKey, hindent, hkey]
      rfl
    have hother {key : Bytes} (hstarts : startsWith (trimCopy line) key = true)
        (hname : (startsWith key (ascii "model_name:") ||
          startsWith (ascii "model_name:") key) = false)
        (hpath : (startsWith key (ascii "model_path:") ||
          startsWith (ascii "model_path:") key) = false)
        (hlayers : (startsWith key (ascii "num_layers:") ||
          startsWith (ascii "num_layers:") key) = false) : False := by
      rw [startsWith_other hname hstarts, startsWith_other hpath hstarts,
        startsWith_other hlayers hstarts] at hkey
      cases hkey
    rw [gatewayLine_read hskipped] at hstep
    cases gatewayKeyLine_cases hstep with
    | scalar _ hsame =>
      refine ⟨?_, hsame.stages.trans h.stages, ?_, ?_⟩
      · refine Bool.eq_false_iff.mpr fun hgateway => ?_
        exact absurd (h.gateway.symm.trans (hsame.gateway hgateway)) (by decide)
      · rw [hsame.partitions]
        exact h.finished
      · rw [hsame.partition, hsame.current]
        exact h.current
    | gateway _ hstarts _ _ _ =>
      exact (hother hstarts (by decide) (by decide) (by decide)).elim
    | stages _ hstarts _ => exact (hother hstarts (by decide) (by decide) (by decide)).elim
    | leaves hnoscalar => exact absurd (hnoscalar.symm.trans hscalarKey) (by decide)
    | gatewaySection hgateway => exact absurd (hgateway.symm.trans h.gateway) (by decide)
    | outside houtside => exact absurd (houtside.symm.trans h.stages) (by decide)
    | entry hnoscalar => exact absurd (hnoscalar.symm.trans hscalarKey) (by decide)

/-- The line at which the section of the stages ends. -/
theorem Read.leave {line : Bytes} (h : Read wanted config g) (htop : topLevelLine line = true)
    (hscalar : scalarKeyLine line = false) (hstages : stagesKeyLine line = false)
    (hstep : gatewayLine g line = .ok g') :
    Outside g' ∧ ∀ p ∈ g'.config.partitions, p.stageId = wanted → Agrees config p := by
  have hparts := htop
  rw [topLevelLine, Bool.and_eq_true_iff, Bool.and_eq_true_iff, Bool.not_eq_true', beq_iff_eq,
    Bool.not_eq_true'] at hparts
  obtain ⟨⟨hskipped, hindent⟩, hitem⟩ := hparts
  rw [gatewayLine_read hskipped] at hstep
  cases gatewayKeyLine_cases hstep with
  | scalar hkey =>
    rw [scalarKey, Bool.and_eq_true_iff] at hkey
    rw [scalarKeyLine, htop, hkey.2] at hscalar
    cases hscalar
  | gateway _ _ hleft hpartition hpartitions =>
    refine ⟨⟨hleft, hpartition⟩, ?_⟩
    rw [hpartitions]
    exact h.finished
  | stages _ hkey =>
    rw [stagesKeyLine, htop, hkey] at hstages
    cases hstages
  | leaves _ _ _ _ hfinish =>
    obtain ⟨-, -, hpartition, -⟩ := finish_spec hfinish
    have hfinished := h.finish hfinish
    exact ⟨⟨rfl, hpartition⟩, fun p hp => hfinished p hp⟩
  | gatewaySection hgateway => exact absurd (hgateway.symm.trans h.gateway) (by decide)
  | outside houtside => exact absurd (houtside.symm.trans h.stages) (by decide)
  | entry _ hinner =>
    rcases hinner with hne | hlist
    · exact absurd hindent hne
    · exact absurd (hitem.symm.trans hlist) (by decide)

/-- The stage reads nothing behind its section. -/
theorem stageLines_behind (hinside : s.insideInferenceStages = true)
    (hscalars : ∀ line ∈ scalars, skippedLine line = true ∨ scalarKeyLine line = true)
    (hends : ∀ line ∈ rest.head?, topLevelLine line = true ∧ scalarKeyLine line = false)
    (hrest : ∀ line ∈ rest, stagesKeyLine line = false) :
    stageLines wanted s (scalars ++ rest) = .ok s := by
  have hstop {line : Bytes} {lines : List Bytes} (htop : topLevelLine line = true)
      (hstages : stagesKeyLine line = false) : stageLines wanted s (line :: lines) = .ok s := by
    rw [stagesKeyLine, htop, Bool.true_and] at hstages
    rw [topLevelLine, Bool.and_eq_true_iff, Bool.and_eq_true_iff, Bool.not_eq_true', beq_iff_eq,
      Bool.not_eq_true'] at htop
    obtain ⟨⟨hskipped, hindent⟩, hitem⟩ := htop
    have hread : ((trimCopy line).isEmpty || startsWith (trimCopy line) (ascii "#")) = false :=
      hskipped
    have hline : stageLine wanted s line = .ok none := by
      rw [stageLine]
      simp only [hread, hinside, hindent, hitem, hstages, Bool.not_true, Bool.not_false,
        Bool.false_eq_true, if_false, BEq.rfl, Bool.and_self, if_true]
    rw [stageLines, hline]
    rfl
  induction scalars with
  | nil =>
    cases rest with
    | nil => rfl
    | cons line rest =>
      exact hstop (hends line rfl).1 (hrest line List.mem_cons_self)
  | cons line scalars ih =>
    rw [List.cons_append]
    rcases hscalars line List.mem_cons_self with hskipped | hscalar
    · rw [stageLines_cons (stageLine_skipped hskipped)]
      exact ih fun line' hmem => hscalars line' (List.mem_cons_of_mem line hmem)
    · have hparts := hscalar
      rw [scalarKeyLine, Bool.and_eq_true_iff] at hparts
      refine hstop hparts.1 ?_
      rw [stagesKeyLine, hparts.1]
      by_contra hstages
      rw [Bool.true_and, Bool.not_eq_false] at hstages
      have hkey := hparts.2
      rw [startsWith_other (by decide) hstages, startsWith_other (by decide) hstages,
        startsWith_other (by decide) hstages] at hkey
      cases hkey

/-- The stage of a partition reads what the gateway reads. -/
theorem agrees_of_oneSection {text configPath : Bytes} {gateway : GatewayConfig}
    (hsection : OneSection (getLines text) before header body scalars rest)
    (hload : loadGatewayConfigFromFile configPath (some text) = .ok gateway)
    {p : GatewayPartition} (hp : p ∈ gateway.partitions) :
    ∃ config, loadStageConfigFromFile configPath (some text) p.stageId = .ok config ∧
      Agrees config p := by
  obtain ⟨hlines, hbefore, hbegins, hbody, hscalars, hends, hrest, hdistinct⟩ := hsection
  rw [loadGatewayConfigFromFile, hlines] at hload
  obtain ⟨final, hrun, hload⟩ := ok_of_bind hload
  obtain ⟨finished, hfinish, hload⟩ := ok_of_bind hload
  rw [List.foldlM_append] at hrun
  obtain ⟨g0, hrun0, hrun⟩ := ok_of_bind hrun
  have h0 : Outside g0 ∧ g0.config.partitions = [] := by
    refine foldlM_keeps (S := fun g : GatewayLoad => Outside g ∧ g.config.partitions = []) hrun0
      ⟨⟨rfl, rfl⟩, rfl⟩ ?_
    intro g hg line hline g' hstep
    obtain ⟨houtside, hsame⟩ := outside_step hg.1 (hbefore line hline) hstep
    exact ⟨houtside, hsame.trans hg.2⟩
  rw [List.foldlM_cons, gatewayLine_header h0.1 hbegins] at hrun
  obtain ⟨g1, hg1, hrun⟩ := ok_of_bind hrun
  cases hg1
  rw [List.foldlM_append] at hrun
  obtain ⟨g2, hrun2, hrun⟩ := ok_of_bind hrun
  rw [List.foldlM_append] at hrun
  obtain ⟨g3, hrun3, hrun4⟩ := ok_of_bind hrun
  have hstart : Follows p.stageId []
      { g0 with
        insideGateway := false
        insideInferenceStages := true
        insideComponents := false
        insideLayers := false }
      { config := { configPath := configPath, stageId := p.stageId, serviceName := [] }
        insideInferenceStages := true } :=
    { gateway := rfl
      stages := rfl
      inside := rfl
      target := by rw [h0.1.partition]; rfl
      places := nofun
      current := nofun
      finished := by
        rw [h0.2]
        exact fun _ hnone => nomatch hnone
      only := nofun
      fresh := fun _ => ⟨rfl, rfl, rfl, rfl, rfl, rfl, rfl⟩
      partitionIds := by
        rw [h0.2]
        exact fun _ hnone => nomatch hnone
      currentId := fun hinside => absurd (h0.1.partition.symm.trans hinside) (by decide) }
  obtain ⟨s, hs, hfollows⟩ := hstart.run hbody (by simpa using hdistinct) hrun2 (scalars ++ rest)
  have hread : Read p.stageId s.config g3 :=
    foldlM_keeps (S := Read p.stageId s.config) hrun3 hfollows.read
      fun g hg line hline g' hstep => hg.scalar (hscalars line hline) hstep
  have hpartitions : ∀ q ∈ finished.config.partitions, q.stageId = p.stageId →
      Agrees s.config q := by
    cases rest with
    | nil =>
      cases hrun4
      exact hread.finish hfinish
    | cons line rest =>
      obtain ⟨htop, hscalar⟩ := hends line rfl
      rw [List.foldlM_cons] at hrun4
      obtain ⟨g4, hline, hrun5⟩ := ok_of_bind hrun4
      have hleft := hread.leave htop hscalar (hrest line List.mem_cons_self) hline
      have hfinal : Outside final ∧
          ∀ q ∈ final.config.partitions, q.stageId = p.stageId → Agrees s.config q := by
        refine foldlM_keeps (S := fun g : GatewayLoad => Outside g ∧
          ∀ q ∈ g.config.partitions, q.stageId = p.stageId → Agrees s.config q) hrun5 hleft ?_
        intro g hg line' hmem g' hstep
        obtain ⟨houtside, hsame⟩ :=
          outside_step hg.1 (hrest line' (List.mem_cons_of_mem line hmem)) hstep
        exact ⟨houtside, by rw [hsame]; exact hg.2⟩
      rw [finish_outside hfinal.1.partition] at hfinish
      cases hfinish
      exact hfinal.2
  dsimp only at hload
  split at hload
  · cases hload
  · next hvalid =>
    cases hload
    have hagrees : Agrees s.config p := hpartitions p hp rfl
    have hvalid' : (validatePartitionGraph
        (finished.config.partitions.map GatewayPartition.toPartitionNodeConfig)
        finished.config.numLayers).valid = true := by simpa using hvalid
    have hname : p.serviceName ≠ [] :=
      (named_of_valid hvalid' p.toPartitionNodeConfig (List.mem_map_of_mem hp)).2
    refine ⟨s.config, ?_, hagrees⟩
    have hlinesRead : stageLines p.stageId
        { config := { configPath := configPath, stageId := p.stageId, serviceName := [] } }
        (getLines text) = .ok s := by
      rw [hlines, stageLines_before rfl hbefore,
        stageLines_cons (stageLine_header rfl hbegins)]
      exact hs.trans (stageLines_behind hfollows.inside hscalars hends hrest)
    rw [loadStageConfigFromFile, hlinesRead]
    refine if_neg ?_
    rw [hagrees.serviceName]
    simpa using hname

/-- A text whose stages stand together. -/
def StagesTogether (text : Bytes) : Prop :=
  ∃ before header body scalars rest, OneSection (getLines text) before header body scalars rest

/-- Gateway and stages read the same stage map, if its stages stand together. -/
theorem readers_agree {text configPath : Bytes} {gateway : GatewayConfig}
    (htogether : StagesTogether text)
    (hload : loadGatewayConfigFromFile configPath (some text) = .ok gateway) :
    ∀ p ∈ gateway.partitions, ∃ config,
      loadStageConfigFromFile configPath (some text) p.stageId = .ok config ∧ Agrees config p := by
  obtain ⟨before, header, body, scalars, rest, hsection⟩ := htogether
  exact fun p hp => agrees_of_oneSection hsection hload hp

end Files

section Examples

/-- The first of two stages. -/
def firstStage : List Bytes :=
  [ascii "- stage_id: 1", ascii "  service_name: stage-1", ascii "  components:",
    ascii "    embedding: true", ascii "    layers:", ascii "    - 0",
    ascii "  next_stage_url: http://stage-2:8000/forward-binary"]

/-- The last of two stages. -/
def secondStage : List Bytes :=
  [ascii "- stage_id: 2", ascii "  service_name: stage-2", ascii "  components:",
    ascii "    lm_head: true", ascii "    layers:", ascii "    - 1"]

/-- The number of layers stands between the stages. -/
def keyBetween : Bytes :=
  unlines (ascii "inference_stages:" :: firstStage ++ ascii "num_layers: 2" :: secondStage)

/-- The stages stand together. -/
def plainMap : Bytes :=
  unlines (ascii "num_layers: 2" :: ascii "inference_stages:" :: firstStage ++ secondStage ++
    [ascii "topology:"])

/-- The ids of the partitions that the gateway reads. -/
def gatewayStageIds (text : Bytes) : Option (List ℤ) :=
  (loadGatewayConfigFromFile [] (some text)).toOption.map fun config =>
    config.partitions.map GatewayPartition.stageId

/-- A key between the stages does not end their section for the gateway, but for
a stage. -/
theorem stage_behind_key_not_found :
    ∃ gateway, loadGatewayConfigFromFile [] (some keyBetween) = .ok gateway ∧
      ∃ p ∈ gateway.partitions,
        ¬∃ config, loadStageConfigFromFile [] (some keyBetween) p.stageId = .ok config := by
  have hids : gatewayStageIds keyBetween = some [1, 2] := by decide +kernel
  have hstage : (loadStageConfigFromFile [] (some keyBetween) 2).toOption.isSome = false := by
    decide +kernel
  rw [gatewayStageIds] at hids
  cases hload : loadGatewayConfigFromFile [] (some keyBetween) with
  | error message =>
    rw [hload] at hids
    cases hids
  | ok gateway =>
    rw [hload] at hids
    have hids' : gateway.partitions.map GatewayPartition.stageId = [1, 2] := Option.some.inj hids
    have htwo : (2 : ℤ) ∈ gateway.partitions.map GatewayPartition.stageId := by
      rw [hids']
      decide
    obtain ⟨p, hp, hid⟩ := List.mem_map.mp htwo
    refine ⟨gateway, rfl, p, hp, ?_⟩
    rintro ⟨config, hconfig⟩
    rw [hid] at hconfig
    rw [hconfig] at hstage
    cases hstage

/-- Two stages that stand together. -/
theorem readers_agree_plainMap :
    ∃ gateway, loadGatewayConfigFromFile [] (some plainMap) = .ok gateway ∧
      gateway.partitions.map GatewayPartition.stageId = [1, 2] ∧
      ∀ p ∈ gateway.partitions, ∃ config,
        loadStageConfigFromFile [] (some plainMap) p.stageId = .ok config ∧ Agrees config p := by
  have htogether : StagesTogether plainMap := by
    refine ⟨[ascii "num_layers: 2"], ascii "inference_stages:", firstStage ++ secondStage, [],
      [ascii "topology:"], ?_⟩
    exact ⟨by decide +kernel, by decide +kernel, by decide +kernel, by decide +kernel,
      by decide +kernel, by decide +kernel, by decide +kernel, by decide +kernel⟩
  have hids : gatewayStageIds plainMap = some [1, 2] := by decide +kernel
  rw [gatewayStageIds] at hids
  cases hload : loadGatewayConfigFromFile [] (some plainMap) with
  | error message =>
    rw [hload] at hids
    cases hids
  | ok gateway =>
    rw [hload] at hids
    exact ⟨gateway, rfl, Option.some.inj hids, readers_agree htogether hload⟩

end Examples

end LayerInference.StageMapAgreement
