import LayerInference.CommutingRuns
import LayerInference.StageMapAgreement

/-!
# The order of the sections of a stage map

A stage map is a sequence of complete sections: keys with a value, the section
of the gateway and the section of the stages. Every section sets its own part
of the configuration, so the parts may be set in any order. The last partition
is still being read when the section of the stages ends. The section of the
gateway drops it, so it matters which of these two comes first.
-/

namespace LayerInference.SectionOrder

open ByteStrings hiding trimCopy
open TextStreams ConfigLines FallibleRuns CommutingRuns PartitionRouting PartitionGraph
  StageMapFiles StageMapAgreement

section Sections

/-- The top-level keys. -/
inductive SectionKind where
  | modelName
  | modelPath
  | numLayers
  | gateway
  | stages
  deriving DecidableEq

def SectionKind.key : SectionKind → Bytes
  | .modelName => ascii "model_name:"
  | .modelPath => ascii "model_path:"
  | .numLayers => ascii "num_layers:"
  | .gateway => ascii "inference_gateway:"
  | .stages => ascii "inference_stages:"

/-- A line that belongs to a section: blanks and comments, in the section of the
gateway what is indented, in the section of the stages also their items. -/
def SectionKind.holds : SectionKind → Bytes → Bool
  | .gateway, line => skippedLine line || indentWidth line != 0
  | .stages, line => !topLevelLine line
  | _, line => skippedLine line

/-- A complete section: its key, perhaps behind comments, and its lines. -/
structure Section where
  kind : SectionKind
  lead : List Bytes
  header : Bytes
  body : List Bytes
  lead_skipped : ∀ line ∈ lead, skippedLine line = true
  header_read : skippedLine header = false
  header_indent : indentWidth header = 0
  header_key : startsWith (trimCopy header) kind.key = true
  body_holds : ∀ line ∈ body, kind.holds line = true

def Section.lines (s : Section) : List Bytes := s.lead ++ s.header :: s.body

/-- The value of a key. -/
def Section.value (s : Section) : Bytes := valueAfterColon (trimCopy s.header)

/-- The lines of sections, one section behind the other. -/
def sectionLines (sections : List Section) : List Bytes := sections.flatMap Section.lines

/-- At most one section of each kind, with a gateway and stages. -/
structure Complete (sections : List Section) : Prop where
  once : (sections.map Section.kind).Nodup
  gateway : .gateway ∈ sections.map Section.kind
  stages : .stages ∈ sections.map Section.kind

/-- The section of the gateway stands in front of the section of the stages. -/
def GatewayFirst (sections : List Section) : Prop :=
  (sections.map Section.kind).idxOf .gateway < (sections.map Section.kind).idxOf .stages

instance (sections : List Section) : Decidable (GatewayFirst sections) :=
  inferInstanceAs (Decidable (_ < _))

end Sections

section Parts

/-- The part of a configuration that the section of the gateway sets. -/
structure GatewaySettings where
  serviceName : Bytes
  firstStageUrl : Bytes
  port : ℤ

def settings (config : GatewayConfig) : GatewaySettings :=
  ⟨config.serviceName, config.firstStageUrl, config.port⟩

def setSettings (config : GatewayConfig) (s : GatewaySettings) : GatewayConfig :=
  { config with serviceName := s.serviceName, firstStageUrl := s.firstStageUrl, port := s.port }

/-- A line in the section of the gateway. -/
def settingLine (line : Bytes) : EStateM Bytes GatewaySettings Unit := fun s =>
  let trimmed := trimCopy line
  if skippedLine line then .ok () s
  else if startsWith trimmed (ascii "service_name:") then
    .ok () { s with serviceName := valueAfterColon trimmed }
  else if startsWith trimmed (ascii "first_stage_url:") then
    .ok () { s with firstStageUrl := valueAfterColon trimmed }
  else if startsWith trimmed (ascii "port:") then
    match stoi (valueAfterColon trimmed) with
    | some port => .ok () { s with port := port }
    | none => .error (ascii "invalid gateway port in config: " ++ valueAfterColon trimmed) s
  else .ok () s

/-- The gateway behind the key of the stages, before anything else is read. -/
def emptyLoad : GatewayLoad := { config := { configPath := [] }, insideInferenceStages := true }

/-- The lines of the stages on their own. -/
def readStages (body : List Bytes) : Except Bytes GatewayLoad := body.foldlM gatewayLine emptyLoad

/-- What a section sets in the configuration. -/
def Section.configure (s : Section) : EStateM Bytes GatewayConfig Unit :=
  match s.kind with
  | .modelName => onPart GatewayConfig.modelName (fun c v => { c with modelName := v })
      (EStateM.set s.value)
  | .modelPath => onPart GatewayConfig.modelPath (fun c v => { c with modelPath := v })
      (EStateM.set s.value)
  | .numLayers => onPart GatewayConfig.numLayers (fun c v => { c with numLayers := v })
      (stateless (stoiOrThrow s.value) >>= EStateM.set)
  | .gateway => onPart settings setSettings (s.body.forM settingLine)
  | .stages => onPart GatewayConfig.partitions (fun c v => { c with partitions := v })
      (stateless (readStages s.body) >>= fun load => EStateM.set load.config.partitions)

/-- Sections of different kinds set separate parts. -/
theorem configure_commutes {s t : Section} (hkind : s.kind ≠ t.kind) :
    Commutes (successes s.configure) (successes t.configure) := by
  unfold Section.configure
  cases hs : s.kind <;> cases ht : t.kind <;>
    first
      | exact absurd (hs.trans ht.symm) hkind
      | (refine commutes_onPart ?_ ?_ ?_ _ _ <;> intros <;> rfl)

/-- The sections configure the same in every order. -/
theorem configure_perm {sections sections' : List Section} (hperm : sections.Perm sections')
    (honce : (sections.map Section.kind).Nodup) :
    successes (sections.forM Section.configure) = successes (sections'.forM Section.configure) := by
  rw [successes_forM, successes_forM]
  exact forM_perm hperm ((List.pairwise_map.mp honce).imp fun hkind => configure_commutes hkind)

end Parts

section Lines

variable {load : GatewayLoad}

theorem foldlM_skipped {lines : List Bytes} (h : ∀ line ∈ lines, skippedLine line = true)
    (load : GatewayLoad) : lines.foldlM gatewayLine load = .ok load := by
  induction lines with
  | nil => rfl
  | cons line lines ih =>
    rw [List.foldlM_cons, gatewayLine_skipped (h line List.mem_cons_self)]
    exact ih fun line hline => h line (List.mem_cons_of_mem _ hline)

/-- A line that starts with one key does not start with another one. -/
theorem startsWith_kind {kind other : SectionKind} {text : Bytes} (hne : kind ≠ other)
    (h : startsWith text kind.key = true) : startsWith text other.key = false := by
  refine startsWith_other ?_ h
  cases kind <;> cases other <;> first | exact absurd rfl hne | decide

/-- What the key of a section does. -/
def headerStep (s : Section) (load : GatewayLoad) : Except Bytes GatewayLoad :=
  match s.kind with
  | .modelName => .ok { load with config := { load.config with modelName := s.value } }
  | .modelPath => .ok { load with config := { load.config with modelPath := s.value } }
  | .numLayers => do
    let numLayers ← stoiOrThrow s.value
    .ok { load with config := { load.config with numLayers := numLayers } }
  | .gateway => .ok { load with
      insideGateway := true
      insideInferenceStages := false
      insideCurrentPartition := false
      insideComponents := false
      insideLayers := false
      gatewayIndent := 0 }
  | .stages => do
    let load ← finishPartitionIfValid load
    .ok { load with
      insideGateway := false
      insideInferenceStages := true
      insideComponents := false
      insideLayers := false }

theorem gatewayLine_header (s : Section) (load : GatewayLoad) :
    gatewayLine load s.header = headerStep s load := by
  have hzero : (indentWidth s.header == 0) = true := beq_iff_eq.mpr s.header_indent
  have hkey := s.header_key
  have hother (other : SectionKind) (hne : s.kind ≠ other) :
      ¬(indentWidth s.header == 0 && startsWith (trimCopy s.header) other.key) = true := by
    rw [startsWith_kind hne hkey, Bool.and_false]
    exact Bool.false_ne_true
  have hthis : (indentWidth s.header == 0 && startsWith (trimCopy s.header) s.kind.key) = true := by
    rw [hzero, hkey]
    rfl
  rw [gatewayLine_read s.header_read, headerStep]
  unfold gatewayKeyLine
  cases hkind : s.kind with
  | modelName =>
    rw [hkind] at hthis
    exact if_pos hthis
  | modelPath =>
    rw [hkind] at hthis hother
    refine (if_neg (hother .modelName (by decide))).trans ?_
    exact if_pos hthis
  | numLayers =>
    rw [hkind] at hthis hother
    refine (if_neg (hother .modelName (by decide))).trans ?_
    refine (if_neg (hother .modelPath (by decide))).trans ?_
    exact if_pos hthis
  | gateway =>
    rw [hkind] at hthis hother
    refine (if_neg (hother .modelName (by decide))).trans ?_
    refine (if_neg (hother .modelPath (by decide))).trans ?_
    refine (if_neg (hother .numLayers (by decide))).trans ?_
    refine (if_pos hthis).trans ?_
    rw [s.header_indent]
    rfl
  | stages =>
    rw [hkind] at hthis hother
    refine (if_neg (hother .modelName (by decide))).trans ?_
    refine (if_neg (hother .modelPath (by decide))).trans ?_
    refine (if_neg (hother .numLayers (by decide))).trans ?_
    refine (if_neg (hother .gateway (by decide))).trans ?_
    exact if_pos hthis

/-- A line of the section of the gateway. -/
theorem gatewayLine_setting {line : Bytes} (hgateway : load.insideGateway = true)
    (hindent : load.gatewayIndent = 0) (hstages : load.insideInferenceStages = false)
    (hholds : SectionKind.gateway.holds line = true) :
    gatewayLine load line = match settingLine line (settings load.config) with
      | .ok _ s => .ok { load with config := setSettings load.config s }
      | .error message _ => .error message := by
  cases hskipped : skippedLine line with
  | true =>
    rw [gatewayLine_skipped hskipped, settingLine, if_pos hskipped]
    rfl
  | false =>
    have hindented : (indentWidth line == 0) = false := by
      rw [SectionKind.holds, hskipped, Bool.false_or] at hholds
      exact beq_eq_false_iff_ne.mpr (bne_iff_ne.mp hholds)
    have hstays : (load.insideGateway && decide ((indentWidth line : ℤ) ≤ load.gatewayIndent) &&
        !startsWith (trimCopy line) (ascii "inference_gateway:")) = false := by
      have hdeep : ¬(indentWidth line : ℤ) ≤ load.gatewayIndent := by
        rw [beq_eq_false_iff_ne] at hindented
        omega
      rw [decide_eq_false hdeep, Bool.and_false, Bool.false_and]
    have hnoskip : ¬skippedLine line = true := by
      rw [hskipped]
      exact Bool.false_ne_true
    rw [gatewayLine_read hskipped, settingLine, if_neg hnoskip]
    simp only [gatewayKeyLine, hindented, hstages, Bool.false_and, Bool.false_eq_true, if_false]
    simp only [gatewayOtherLine, hstays, Bool.false_eq_true, if_false]
    cases load with
    | mk config insideGateway insideStages =>
      cases hgateway
      cases hstages
      simp only [gatewaySectionLine, Bool.not_true, Bool.not_false, Bool.false_eq_true, if_false]
      by_cases hname : startsWith (trimCopy line) (ascii "service_name:") = true
      · rw [if_pos hname, if_pos hname]
        rfl
      · rw [if_neg hname, if_neg hname]
        by_cases hurl : startsWith (trimCopy line) (ascii "first_stage_url:") = true
        · rw [if_pos hurl, if_pos hurl]
          rfl
        · rw [if_neg hurl, if_neg hurl]
          by_cases hport : startsWith (trimCopy line) (ascii "port:") = true
          · rw [if_pos hport, if_pos hport]
            cases stoi (valueAfterColon (trimCopy line)) <;> rfl
          · rw [if_neg hport, if_neg hport]
            rfl

/-- The lines of the section of the gateway. -/
theorem foldlM_settings {body : List Bytes} (hgateway : load.insideGateway = true)
    (hindent : load.gatewayIndent = 0) (hstages : load.insideInferenceStages = false)
    (hbody : ∀ line ∈ body, SectionKind.gateway.holds line = true) :
    body.foldlM gatewayLine load = match body.forM settingLine (settings load.config) with
      | .ok _ s => .ok { load with config := setSettings load.config s }
      | .error message _ => .error message := by
  induction body generalizing load with
  | nil => rfl
  | cons line body ih =>
    have hforM : (line :: body).forM settingLine (settings load.config) =
        (settingLine line >>= fun _ => body.forM settingLine) (settings load.config) := rfl
    rw [List.foldlM_cons, gatewayLine_setting hgateway hindent hstages
      (hbody line List.mem_cons_self), hforM, bind_apply]
    cases settingLine line (settings load.config) with
    | error message s => rfl
    | ok u s =>
      have hrest : ∀ line ∈ body, SectionKind.gateway.holds line = true :=
        fun line hline => hbody line (List.mem_cons_of_mem _ hline)
      exact @ih { load with config := setSettings load.config s } hgateway hindent hstages hrest

/-- The places of the gateway behind a section. -/
def place (kind : SectionKind) (load : GatewayLoad) (config : GatewayConfig) : GatewayLoad :=
  match kind with
  | .gateway => { load with
      config := config
      insideGateway := true
      insideInferenceStages := false
      insideCurrentPartition := false
      insideComponents := false
      insideLayers := false
      gatewayIndent := 0 }
  | _ => { load with config := config }

/-- A section other than the one of the stages sets its part. -/
theorem foldlM_section {s : Section} (hkind : s.kind ≠ .stages) (load : GatewayLoad) :
    s.lines.foldlM gatewayLine load = match s.configure load.config with
      | .ok _ config => .ok (place s.kind load config)
      | .error message _ => .error message := by
  have hbody := s.body_holds
  rw [Section.lines, List.foldlM_append, foldlM_skipped s.lead_skipped]
  change List.foldlM gatewayLine load (s.header :: s.body) = _
  rw [List.foldlM_cons, gatewayLine_header, headerStep, Section.configure]
  cases hs : s.kind with
  | modelName =>
    rw [hs] at hbody
    exact foldlM_skipped hbody _
  | modelPath =>
    rw [hs] at hbody
    exact foldlM_skipped hbody _
  | numLayers =>
    rw [hs] at hbody
    dsimp only
    cases hvalue : stoiOrThrow s.value with
    | error message => rfl
    | ok numLayers => exact foldlM_skipped hbody _
  | gateway =>
    rw [hs] at hbody
    refine (foldlM_settings rfl rfl rfl hbody).trans ?_
    dsimp only
    rw [onPart_apply]
    cases s.body.forM settingLine (settings load.config) <;> rfl
  | stages => exact absurd hs hkind

end Lines

section Stages

variable {load load' : GatewayLoad} {config : GatewayConfig} {gatewayIndent : ℤ}

/-- The same place in the stages with another configuration around the partitions. -/
def framed (config : GatewayConfig) (gatewayIndent : ℤ) (load : GatewayLoad) : GatewayLoad :=
  { load with
    config := { config with partitions := load.config.partitions }
    gatewayIndent := gatewayIndent }

theorem framed_config (load : GatewayLoad) : (framed config gatewayIndent load).config =
    { config with partitions := load.config.partitions } := rfl

theorem finish_framed (load : GatewayLoad) :
    finishPartitionIfValid (framed config gatewayIndent load) =
      (finishPartitionIfValid load).map (framed config gatewayIndent) := by
  unfold finishPartitionIfValid framed
  dsimp only
  split_ifs <;> rfl

theorem gatewayStageLine_framed (indent : ℕ) (trimmed : Bytes) (load : GatewayLoad) :
    gatewayStageLine (framed config gatewayIndent load) indent trimmed =
      (gatewayStageLine load indent trimmed).map (framed config gatewayIndent) := by
  unfold gatewayStageLine
  by_cases hitem : isStageListItem trimmed = true
  · rw [if_pos hitem, if_pos hitem, finish_framed]
    cases finishPartitionIfValid load with
    | error message => rfl
    | ok load =>
      cases parseStageIdFromListItem trimmed <;> rfl
  · rw [if_neg hitem, if_neg hitem]
    cases load with
    | mk config' insideGateway insideStages insidePartition insideComponents =>
      cases insidePartition with
      | false => rfl
      | true =>
        simp only [framed, Bool.not_true, Bool.false_eq_true, if_false]
        by_cases hkey : startsWith trimmed (ascii "components:") = true
        · rw [if_pos hkey, if_pos hkey]
          rfl
        · rw [if_neg hkey, if_neg hkey]
          by_cases hleaves : (insideComponents && decide (indent ≤ 2) &&
              !startsWith trimmed (ascii "components:")) = true
          · simp only [hleaves, if_true]
            rfl
          · rw [Bool.not_eq_true] at hleaves
            simp only [hleaves, Bool.false_eq_true, if_false]
            cases insideComponents with
            | false => rfl
            | true =>
              simp only [Bool.not_true, Bool.false_eq_true, if_false]
              generalize componentLine _ _ trimmed = read
              cases read <;> rfl

/-- A line of the stages is read as a line of an entry. -/
theorem gatewayLine_inside {line : Bytes} (hgateway : load.insideGateway = false)
    (hstages : load.insideInferenceStages = true) (hholds : SectionKind.stages.holds line = true) :
    gatewayLine load line = if skippedLine line = true then .ok load
      else gatewayStageLine load (indentWidth line) (trimCopy line) := by
  cases hskipped : skippedLine line with
  | true => exact gatewayLine_skipped hskipped
  | false =>
    have hitem (hindent : (indentWidth line == 0) = true) :
        isStageListItem (trimCopy line) = true := by
      rw [SectionKind.holds, topLevelLine, hskipped, hindent] at hholds
      simpa using hholds
    have hnokey {key : Bytes}
        (hne : (startsWith (ascii "- stage_id:") key || startsWith key (ascii "- stage_id:")) =
          false) : (indentWidth line == 0 && startsWith (trimCopy line) key) = false := by
      cases hindent : indentWidth line == 0 with
      | false => rfl
      | true => exact startsWith_other hne (hitem hindent)
    have hstays : (load.insideInferenceStages && indentWidth line == 0 &&
        !isStageListItem (trimCopy line) &&
          !startsWith (trimCopy line) (ascii "inference_stages:")) = false := by
      cases hindent : indentWidth line == 0 with
      | false => rw [Bool.and_false, Bool.false_and, Bool.false_and]
      | true => rw [hitem hindent, Bool.not_true, Bool.and_false, Bool.false_and]
    have hname : (startsWith (ascii "- stage_id:") (ascii "model_name:") ||
        startsWith (ascii "model_name:") (ascii "- stage_id:")) = false := by decide
    have hpath : (startsWith (ascii "- stage_id:") (ascii "model_path:") ||
        startsWith (ascii "model_path:") (ascii "- stage_id:")) = false := by decide
    have hlayers : (startsWith (ascii "- stage_id:") (ascii "num_layers:") ||
        startsWith (ascii "num_layers:") (ascii "- stage_id:")) = false := by decide
    have hkey : (startsWith (ascii "- stage_id:") (ascii "inference_gateway:") ||
        startsWith (ascii "inference_gateway:") (ascii "- stage_id:")) = false := by decide
    have hsame : (startsWith (ascii "- stage_id:") (ascii "inference_stages:") ||
        startsWith (ascii "inference_stages:") (ascii "- stage_id:")) = false := by decide
    rw [gatewayLine_read hskipped]
    simp only [gatewayKeyLine, hstays, hnokey hname, hnokey hpath, hnokey hlayers, hnokey hkey,
      hnokey hsame, Bool.false_eq_true, if_false]
    simp only [gatewayOtherLine, gatewaySectionLine, hgateway, Bool.false_and, Bool.not_false,
      Bool.false_eq_true, if_false, if_true]
    change (if (!load.insideInferenceStages) = true then _ else _) = _
    rw [hstages]
    rfl

/-- Inside the stages; a partition is begun by the first item. -/
structure InStages (load : GatewayLoad) : Prop where
  gateway : load.insideGateway = false
  stages : load.insideInferenceStages = true
  begun : load.insideCurrentPartition = false → load.config.partitions = []

theorem inStages_step {line : Bytes} (h : InStages load)
    (hholds : SectionKind.stages.holds line = true) (hstep : gatewayLine load line = .ok load') :
    InStages load' := by
  rw [gatewayLine_inside h.gateway h.stages hholds] at hstep
  by_cases hskipped : skippedLine line = true
  · rw [if_pos hskipped] at hstep
    cases hstep
    exact h
  · rw [if_neg hskipped] at hstep
    cases hitem : isStageListItem (trimCopy line) with
    | false =>
      have hsame := gatewayStageLine_keeps hitem hstep
      refine ⟨hsame.gateway.trans h.gateway, hsame.stages.trans h.stages, fun hbegun => ?_⟩
      exact hsame.partitions.trans (h.begun (hsame.partition.symm.trans hbegun))
    | true =>
      rw [gatewayStageLine, if_pos hitem] at hstep
      obtain ⟨mid, hfinish, hstep⟩ := ok_of_bind hstep
      obtain ⟨stageId, -, hstep⟩ := ok_of_bind hstep
      obtain ⟨hgateway, hstages, -⟩ := finish_spec hfinish
      cases hstep
      refine ⟨hgateway.trans h.gateway, hstages.trans h.stages, fun hbegun => ?_⟩
      cases hbegun

/-- What the lines of the stages do does not depend on the other sections. -/
theorem foldlM_framed {body : List Bytes}
    (hbody : ∀ line ∈ body, SectionKind.stages.holds line = true) (h : InStages load) :
    body.foldlM gatewayLine (framed config gatewayIndent load) =
      (body.foldlM gatewayLine load).map (framed config gatewayIndent) := by
  induction body generalizing load with
  | nil => rfl
  | cons line body ih =>
    have hholds := hbody line List.mem_cons_self
    have hrest : ∀ line ∈ body, SectionKind.stages.holds line = true :=
      fun line hline => hbody line (List.mem_cons_of_mem _ hline)
    have hline : gatewayLine (framed config gatewayIndent load) line =
        (gatewayLine load line).map (framed config gatewayIndent) := by
      rw [gatewayLine_inside h.gateway h.stages hholds,
        @gatewayLine_inside (framed config gatewayIndent load) line h.gateway h.stages hholds,
        gatewayStageLine_framed]
      split <;> rfl
    rw [List.foldlM_cons, List.foldlM_cons, hline]
    cases hstep : gatewayLine load line with
    | error message => rfl
    | ok load' => exact ih hrest (inStages_step h hholds hstep)

theorem inStages_emptyLoad : InStages emptyLoad := ⟨rfl, rfl, fun _ => rfl⟩

/-- Before the stages no partition was begun. -/
structure Untouched (load : GatewayLoad) : Prop where
  partition : load.insideCurrentPartition = false
  current : load.currentPartition = emptyPartition
  partitions : load.config.partitions = []

/-- The section of the stages is read on its own. -/
theorem foldlM_stages {s : Section} (hkind : s.kind = .stages) (h : Untouched load) :
    s.lines.foldlM gatewayLine load =
      (readStages s.body).map (framed load.config load.gatewayIndent) := by
  have hbody := s.body_holds
  rw [hkind] at hbody
  have hheader : gatewayLine load s.header =
      .ok (framed load.config load.gatewayIndent emptyLoad) := by
    rw [gatewayLine_header, headerStep, hkind]
    dsimp only
    rw [finish_outside h.partition]
    cases load with
    | mk config insideGateway insideStages insidePartition insideComponents insideLayers indent
      current =>
      cases h.partition
      cases h.current
      cases config with
      | mk configPath serviceName modelName modelPath url port numLayers partitions =>
        cases h.partitions
        rfl
  rw [Section.lines, List.foldlM_append, foldlM_skipped s.lead_skipped]
  change List.foldlM gatewayLine load (s.header :: s.body) = _
  rw [List.foldlM_cons, hheader]
  exact foldlM_framed hbody inStages_emptyLoad

end Stages

section Files

variable {load : GatewayLoad}

/-- The sections in front of or behind the stages. -/
theorem foldlM_others {sections : List Section} (hkinds : ∀ s ∈ sections, s.kind ≠ .stages)
    (load : GatewayLoad) :
    match sections.forM Section.configure load.config with
    | .ok _ config => ∃ load', (sectionLines sections).foldlM gatewayLine load = .ok load' ∧
        load'.config = config ∧ load'.currentPartition = load.currentPartition ∧
        load'.insideCurrentPartition = (load.insideCurrentPartition &&
          decide (.gateway ∉ sections.map Section.kind))
    | .error message _ => (sectionLines sections).foldlM gatewayLine load = .error message := by
  induction sections generalizing load with
  | nil => exact ⟨load, rfl, rfl, rfl, (Bool.and_true _).symm⟩
  | cons s sections ih =>
    have hforM : (s :: sections).forM Section.configure load.config =
        (s.configure >>= fun _ => sections.forM Section.configure) load.config := rfl
    have hlines : sectionLines (s :: sections) = s.lines ++ sectionLines sections :=
      List.flatMap_cons
    have hrun := foldlM_section (hkinds s List.mem_cons_self) load
    have hrest := fun load => ih (fun t ht => hkinds t (List.mem_cons_of_mem s ht)) load
    rw [hforM, bind_apply, hlines, List.foldlM_append, hrun]
    cases s.configure load.config with
    | error message config => rfl
    | ok u config =>
      have htail := hrest (place s.kind load config)
      have hconfig : (place s.kind load config).config = config := by
        cases s.kind <;> rfl
      have hcurrent : (place s.kind load config).currentPartition = load.currentPartition := by
        cases s.kind <;> rfl
      have hinside : (place s.kind load config).insideCurrentPartition =
          (load.insideCurrentPartition && decide (s.kind ≠ .gateway)) := by
        cases s.kind <;> simp [place]
      rw [hconfig] at htail
      dsimp only
      generalize sections.forM Section.configure config = result at htail ⊢
      cases result with
      | error message config => exact htail
      | ok u config' =>
        obtain ⟨load', hload, hconfig', hcurrent', hinside'⟩ := htail
        refine ⟨load', hload, hconfig', hcurrent'.trans hcurrent, ?_⟩
        rw [hinside', hinside, Bool.and_assoc]
        have hiff : (s.kind ≠ .gateway ∧ .gateway ∉ sections.map Section.kind) ↔
            .gateway ∉ (s :: sections).map Section.kind := by
          rw [List.map_cons, List.mem_cons, not_or, ne_comm]
        rw [← Bool.decide_and, decide_eq_decide.mpr hiff]

/-- Finishing the last partition of a configuration. -/
def closeConfig (insidePartition : Bool) (current : GatewayPartition) (config : GatewayConfig) :
    Except Bytes GatewayConfig :=
  let load : GatewayLoad :=
    { config := config
      insideCurrentPartition := insidePartition
      currentPartition := current }
  (finishPartitionIfValid load).map GatewayLoad.config

/-- The check at the end of the file. -/
def checkConfig (config : GatewayConfig) : Except Bytes GatewayConfig :=
  let validation := validatePartitionGraph
    (config.partitions.map GatewayPartition.toPartitionNodeConfig) config.numLayers
  if !validation.valid then .error (ascii "invalid partition graph: " ++ validation.error)
  else .ok { config with partitionValidation := validation }

theorem finish_config (load : GatewayLoad) : (finishPartitionIfValid load).map GatewayLoad.config =
    closeConfig load.insideCurrentPartition load.currentPartition load.config := by
  unfold closeConfig finishPartitionIfValid
  dsimp only
  split_ifs <;> rfl

theorem closeConfig_false (current : GatewayPartition) (config : GatewayConfig) :
    closeConfig false current config = .ok config := rfl

/-- Finishing a partition that was begun adds one. -/
theorem closeConfig_true {current : GatewayPartition} {config config' : GatewayConfig}
    (h : closeConfig true current config = .ok config') :
    config'.partitions.length = config.partitions.length + 1 := by
  unfold closeConfig finishPartitionIfValid at h
  simp only [Bool.not_true, Bool.false_eq_true, if_false] at h
  split_ifs at h <;> cases h <;> exact List.length_append

theorem loadGatewayConfigFromFile_eq (configPath text : Bytes) :
    loadGatewayConfigFromFile configPath (some text) =
      ((getLines text).foldlM gatewayLine { config := { configPath := configPath } } >>=
        fun load => closeConfig load.insideCurrentPartition load.currentPartition load.config) >>=
          checkConfig := by
  rw [loadGatewayConfigFromFile]
  cases (getLines text).foldlM gatewayLine { config := { configPath := configPath } } with
  | error message => rfl
  | ok load =>
    change (finishPartitionIfValid load >>= fun load => _) =
      closeConfig load.insideCurrentPartition load.currentPartition load.config >>= checkConfig
    rw [← finish_config]
    cases finishPartitionIfValid load <;> rfl

/-- A section other than the one of the stages sets no partition. -/
theorem configure_partitions {s : Section} (hkind : s.kind ≠ .stages)
    {config config' : GatewayConfig} {u : Unit} (h : s.configure config = .ok u config') :
    config'.partitions = config.partitions := by
  rw [Section.configure] at h
  cases hs : s.kind <;> rw [hs] at h
  case stages => exact absurd hs hkind
  all_goals
    obtain ⟨value, rfl⟩ := onPart_state h
    rfl

theorem forM_partitions {sections : List Section} (hkinds : ∀ s ∈ sections, s.kind ≠ .stages)
    {config config' : GatewayConfig} {u : Unit}
    (h : sections.forM Section.configure config = .ok u config') :
    config'.partitions = config.partitions := by
  induction sections generalizing config with
  | nil =>
    cases h
    rfl
  | cons s sections ih =>
    change (s.configure >>= fun _ => sections.forM Section.configure) config = _ at h
    rw [bind_apply] at h
    cases hs : s.configure config with
    | error message mid =>
      rw [hs] at h
      cases h
    | ok v mid =>
      rw [hs] at h
      exact (ih (fun t ht => hkinds t (List.mem_cons_of_mem s ht)) h).trans
        (configure_partitions (hkinds s List.mem_cons_self) hs)

theorem configure_stages {s : Section} (hkind : s.kind = .stages) (config : GatewayConfig) :
    s.configure config = match readStages s.body with
      | .ok stages => .ok () { config with partitions := stages.config.partitions }
      | .error message => .error message config := by
  rw [Section.configure, hkind]
  dsimp only
  rw [onPart_apply]
  cases readStages s.body <;> rfl

/-- In front of the section of the stages or behind it. -/
theorem gatewayFirst_iff {before behind : List Section} {s : Section}
    (hcomplete : Complete (before ++ s :: behind)) (hkind : s.kind = .stages) :
    GatewayFirst (before ++ s :: behind) ↔ .gateway ∉ behind.map Section.kind := by
  have honce := hcomplete.once
  have hgateway := hcomplete.gateway
  rw [List.map_append, List.map_cons, hkind] at honce hgateway
  have hdisjoint := List.nodup_append.mp honce
  have hnot : SectionKind.stages ∉ before.map Section.kind := fun hmem =>
    hdisjoint.2.2 _ hmem _ List.mem_cons_self rfl
  rw [GatewayFirst, List.map_append, List.map_cons, hkind,
    List.idxOf_append_of_notMem hnot, List.idxOf_cons_self, Nat.add_zero]
  constructor
  · intro hfirst hbehind
    have hbefore : SectionKind.gateway ∉ before.map Section.kind := fun hmem =>
      hdisjoint.2.2 _ hmem _ (List.mem_cons_of_mem _ hbehind) rfl
    rw [List.idxOf_append_of_notMem hbefore] at hfirst
    omega
  · intro hbehind
    rcases List.mem_append.mp hgateway with hbefore | hrest
    · rw [List.idxOf_append_of_mem hbefore]
      exact List.idxOf_lt_length_of_mem hbefore
    · rcases List.mem_cons.mp hrest with h | h
      · cases h
      · exact absurd h hbehind

/-- Loading sections: each of them sets its part, and the last partition is
finished when the gateway stands in front. -/
theorem load_iff {configPath text : Bytes} {before behind : List Section} {s : Section}
    (hcomplete : Complete (before ++ s :: behind)) (hkind : s.kind = .stages)
    (hlines : getLines text = sectionLines (before ++ s :: behind)) {result : GatewayConfig} :
    loadGatewayConfigFromFile configPath (some text) = .ok result ↔
      ∃ config stages finished,
        successes ((before ++ s :: behind).forM Section.configure) { configPath := configPath } =
          some ((), config) ∧
        readStages s.body = .ok stages ∧ config.partitions = stages.config.partitions ∧
        closeConfig (stages.insideCurrentPartition &&
          decide (GatewayFirst (before ++ s :: behind))) stages.currentPartition config =
            .ok finished ∧
        checkConfig finished = .ok result := by
  have honce := hcomplete.once
  rw [List.map_append, List.map_cons, hkind] at honce
  have hdisjoint := List.nodup_append.mp honce
  have hbefore : ∀ t ∈ before, t.kind ≠ .stages := fun t ht hstages =>
    hdisjoint.2.2 _ (List.mem_map_of_mem ht) _ (hstages ▸ List.mem_cons_self) rfl
  have hbehind : ∀ t ∈ behind, t.kind ≠ .stages := fun t ht hstages =>
    (List.nodup_cons.mp hdisjoint.2.1).1 (hstages ▸ List.mem_map_of_mem ht)
  have hfirst : decide (GatewayFirst (before ++ s :: behind)) =
      decide (SectionKind.gateway ∉ behind.map Section.kind) :=
    decide_eq_decide.mpr (gatewayFirst_iff hcomplete hkind)
  have hsplit : sectionLines (before ++ s :: behind) =
      sectionLines before ++ (s.lines ++ sectionLines behind) := by
    rw [sectionLines, List.flatMap_append, List.flatMap_cons]
    rfl
  have hforM : (before ++ s :: behind).forM Section.configure =
      before.forM Section.configure >>= fun _ =>
        s.configure >>= fun _ => behind.forM Section.configure := List.forM_append
  rw [loadGatewayConfigFromFile_eq, hlines, hsplit, List.foldlM_append, hfirst]
  unfold successes
  rw [hforM, bind_apply]
  have hrun := foldlM_others hbefore { config := { configPath := configPath } }
  cases hconfigure : before.forM Section.configure { configPath := configPath } with
  | error message config =>
    rw [hconfigure] at hrun
    rw [hrun]
    refine iff_of_false (fun hresult => ?_) ?_
    · cases hresult
    · rintro ⟨_, _, _, hconfig, -⟩
      cases hconfig
  | ok u config =>
    rw [hconfigure] at hrun
    obtain ⟨load, hload, rfl, hcurrent, hinside⟩ := hrun
    have huntouched : Untouched load := ⟨hinside, hcurrent, forM_partitions hbefore hconfigure⟩
    rw [hload]
    dsimp only
    change ((s.lines ++ sectionLines behind).foldlM gatewayLine load >>= _) >>= _ = _ ↔ _
    rw [List.foldlM_append, foldlM_stages hkind huntouched, bind_apply, configure_stages hkind]
    cases hread : readStages s.body with
    | error message =>
      refine iff_of_false (fun hresult => ?_) ?_
      · cases hresult
      · rintro ⟨_, _, _, -, hstages, -⟩
        cases hstages
    | ok stages =>
      have hrun' := foldlM_others hbehind (framed load.config load.gatewayIndent stages)
      change (List.foldlM gatewayLine (framed load.config load.gatewayIndent stages) _ >>= _) >>= _
        = _ ↔ _
      dsimp only
      rw [framed_config] at hrun'
      cases hrest : behind.forM Section.configure
          { load.config with partitions := stages.config.partitions } with
      | error message config =>
        rw [hrest] at hrun'
        rw [hrun']
        refine iff_of_false (fun hresult => ?_) ?_
        · cases hresult
        · rintro ⟨_, _, _, hconfig, -⟩
          cases hconfig
      | ok u config =>
        rw [hrest] at hrun'
        obtain ⟨load', hload', rfl, hcurrent', hinside'⟩ := hrun'
        rw [hload']
        dsimp only
        change closeConfig _ _ _ >>= _ = _ ↔ _
        rw [hinside', hcurrent']
        have hpartitions := forM_partitions hbehind hrest
        constructor
        · intro hresult
          obtain ⟨finished, hclose, hcheck⟩ := ok_of_bind hresult
          exact ⟨_, stages, finished, rfl, rfl, hpartitions, hclose, hcheck⟩
        · rintro ⟨config, stages', finished, hconfig, hstages, -, hclose, hcheck⟩
          cases hconfig
          cases hstages
          change closeConfig (stages.insideCurrentPartition && _) stages.currentPartition _ >>= _ =
            _
          rw [hclose]
          exact hcheck

theorem begun_of_readStages {body : List Bytes} {stages : GatewayLoad}
    (hbody : ∀ line ∈ body, SectionKind.stages.holds line = true)
    (h : readStages body = .ok stages) : InStages stages :=
  foldlM_keeps h inStages_emptyLoad fun _ hload line hline _ hstep =>
    inStages_step hload (hbody line hline) hstep

theorem checkConfig_ok {config result : GatewayConfig} (h : checkConfig config = .ok result) :
    result.partitions = config.partitions ∧ config.partitions ≠ [] := by
  unfold checkConfig at h
  dsimp only at h
  split_ifs at h with hvalid
  cases h
  refine ⟨rfl, fun hnil => hvalid ?_⟩
  rw [hnil]
  rfl

/-- The last partition is lost or kept: the two outcomes are never the same. -/
theorem closeConfig_inj {stages : GatewayLoad} {config finished finished' result : GatewayConfig}
    {first first' : Bool} (hstages : InStages stages)
    (hpartitions : config.partitions = stages.config.partitions)
    (hclose : closeConfig (stages.insideCurrentPartition && first) stages.currentPartition config =
      .ok finished)
    (hclose' : closeConfig (stages.insideCurrentPartition && first') stages.currentPartition
      config = .ok finished')
    (hcheck : checkConfig finished = .ok result) (hcheck' : checkConfig finished' = .ok result) :
    first' = first := by
  obtain ⟨hresult, hnonempty⟩ := checkConfig_ok hcheck
  obtain ⟨hresult', -⟩ := checkConfig_ok hcheck'
  have hlength : finished'.partitions.length = finished.partitions.length := by
    rw [← hresult, ← hresult']
  cases hbegun : stages.insideCurrentPartition with
  | false =>
    rw [hbegun, Bool.false_and, closeConfig_false] at hclose
    cases hclose
    exact absurd (hpartitions.trans (hstages.begun hbegun)) hnonempty
  | true =>
    rw [hbegun, Bool.true_and] at hclose hclose'
    cases first <;> cases first'
    · rfl
    · rw [closeConfig_false, Except.ok.injEq] at hclose
      have hmore := closeConfig_true hclose'
      rw [hlength, ← hclose] at hmore
      omega
    · rw [closeConfig_false, Except.ok.injEq] at hclose'
      have hmore := closeConfig_true hclose
      rw [← hlength, ← hclose'] at hmore
      omega
    · rfl

/-- The sections around the stages. -/
theorem exists_stages {sections : List Section} (h : Complete sections) :
    ∃ before s behind, sections = before ++ s :: behind ∧ s.kind = .stages := by
  obtain ⟨s, hs, hkind⟩ := List.mem_map.mp h.stages
  obtain ⟨before, behind, rfl⟩ := List.append_of_mem hs
  exact ⟨before, s, behind, rfl, hkind⟩

theorem Complete.perm {sections sections' : List Section} (h : Complete sections)
    (hperm : sections.Perm sections') : Complete sections' where
  once := (hperm.map Section.kind).nodup_iff.mp h.once
  gateway := (hperm.map Section.kind).mem_iff.mp h.gateway
  stages := (hperm.map Section.kind).mem_iff.mp h.stages

/-- A stage map with its sections in another order is read as the same
configuration exactly when the gateway and the stages keep their order. -/
theorem reordered_iff_same_order {configPath text text' : Bytes}
    {sections sections' : List Section} (hcomplete : Complete sections)
    (hperm : sections.Perm sections') (hlines : getLines text = sectionLines sections)
    (hlines' : getLines text' = sectionLines sections') {result : GatewayConfig}
    (haccepted : loadGatewayConfigFromFile configPath (some text) = .ok result) :
    loadGatewayConfigFromFile configPath (some text') = .ok result ↔
      (GatewayFirst sections' ↔ GatewayFirst sections) := by
  have hcomplete' := hcomplete.perm hperm
  obtain ⟨before, s, behind, rfl, hkind⟩ := exists_stages hcomplete
  obtain ⟨before', s', behind', rfl, hkind'⟩ := exists_stages hcomplete'
  have hsame : s' = s := by
    have hmem : s' ∈ before ++ s :: behind := hperm.mem_iff.mpr
      (List.mem_append_right _ List.mem_cons_self)
    exact List.inj_on_of_nodup_map hcomplete.once hmem
      (List.mem_append_right _ List.mem_cons_self) (hkind'.trans hkind.symm)
  obtain ⟨config, stages, finished, hconfig, hread, hpartitions, hclose, hcheck⟩ :=
    (load_iff hcomplete hkind hlines).mp haccepted
  have hstages : InStages stages := by
    have hbody := s.body_holds
    rw [hkind] at hbody
    exact begun_of_readStages hbody hread
  rw [load_iff hcomplete' hkind' hlines', ← configure_perm hperm hcomplete.once, hconfig, hsame,
    hread]
  constructor
  · rintro ⟨config', stages', finished', hconfig', hread', -, hclose', hcheck'⟩
    cases hconfig'
    cases hread'
    exact decide_eq_decide.mp
      (closeConfig_inj hstages hpartitions hclose hclose' hcheck hcheck')
  · intro horder
    rw [decide_eq_decide.mpr horder]
    exact ⟨config, stages, finished, rfl, rfl, hpartitions, hclose, hcheck⟩

end Files

section Examples

def layersSection : Section where
  kind := .numLayers
  lead := [ascii "# two layers"]
  header := ascii "num_layers: 2"
  body := []
  lead_skipped := by decide +kernel
  header_read := by decide +kernel
  header_indent := by decide +kernel
  header_key := by decide +kernel
  body_holds := by decide +kernel

def gatewaySection : Section where
  kind := .gateway
  lead := []
  header := ascii "inference_gateway:"
  body := [ascii "  service_name: gateway", ascii "  port: 9000", []]
  lead_skipped := by decide +kernel
  header_read := by decide +kernel
  header_indent := by decide +kernel
  header_key := by decide +kernel
  body_holds := by decide +kernel

def stagesSection : Section where
  kind := .stages
  lead := []
  header := ascii "inference_stages:"
  body := firstStage ++ secondStage
  lead_skipped := by decide +kernel
  header_read := by decide +kernel
  header_indent := by decide +kernel
  header_key := by decide +kernel
  body_holds := by decide +kernel

/-- The generated order. -/
def gatewayInFront : List Section := [layersSection, gatewaySection, stagesSection]

def gatewayBehind : List Section := [layersSection, stagesSection, gatewaySection]

theorem complete_gatewayInFront : Complete gatewayInFront :=
  ⟨by decide, by decide, by decide⟩

/-- A stage map that is accepted, and rejected with its gateway behind the stages. -/
theorem gateway_behind_rejected :
    Complete gatewayInFront ∧ gatewayInFront.Perm gatewayBehind ∧
      ∃ result,
        loadGatewayConfigFromFile [] (some (unlines (sectionLines gatewayInFront))) = .ok result ∧
        ∀ result', loadGatewayConfigFromFile [] (some (unlines (sectionLines gatewayBehind))) ≠
          .ok result' := by
  have haccepted : gatewayStageIds (unlines (sectionLines gatewayInFront)) = some [1, 2] := by
    decide +kernel
  have hrejected : gatewayStageIds (unlines (sectionLines gatewayBehind)) = none := by
    decide +kernel
  refine ⟨complete_gatewayInFront, (List.Perm.swap _ _ _).cons _, ?_⟩
  rw [gatewayStageIds] at haccepted hrejected
  cases hload : loadGatewayConfigFromFile [] (some (unlines (sectionLines gatewayInFront))) with
  | error message =>
    rw [hload] at haccepted
    cases haccepted
  | ok result =>
    refine ⟨result, rfl, fun result' hother => ?_⟩
    rw [hother] at hrejected
    cases hrejected

/-- The number of layers moved behind the gateway. -/
theorem reordered_iff_same_order_layers :
    ∃ result,
      loadGatewayConfigFromFile [] (some (unlines (sectionLines gatewayInFront))) = .ok result ∧
      (loadGatewayConfigFromFile [] (some (unlines (sectionLines
        [gatewaySection, layersSection, stagesSection]))) = .ok result ↔
        (GatewayFirst [gatewaySection, layersSection, stagesSection] ↔
          GatewayFirst gatewayInFront)) := by
  have haccepted : gatewayStageIds (unlines (sectionLines gatewayInFront)) = some [1, 2] := by
    decide +kernel
  rw [gatewayStageIds] at haccepted
  cases hload : loadGatewayConfigFromFile [] (some (unlines (sectionLines gatewayInFront))) with
  | error message =>
    rw [hload] at haccepted
    cases haccepted
  | ok result =>
    exact ⟨result, rfl, reordered_iff_same_order complete_gatewayInFront (.swap _ _ _)
      (by decide +kernel) (by decide +kernel) hload⟩

end Examples

end LayerInference.SectionOrder
