import LayerInference.FieldRemoval
import LayerInference.HttpTransfer
import LayerInference.MetadataRoundTrips
import LayerInference.OpenTexts

/-!
# Metrics of a chain in the metadata

A stage that passes a call on merges its own metrics with those of the stages
behind it and writes the result into the metadata that it got back: old chain
metrics are cut out of the text, new ones are inserted before its last brace. A
reader takes the first field under one of several names, and computes what is
missing from the metrics of the last stage.
-/

namespace LayerInference.StageChainMetrics

open ByteStrings TextStreams QuotedTexts JsonFields Rounding NumberTexts JsonPieces FieldRemoval
  OpenTexts MetadataTexts HttpTransfer

/-- The metrics of the stages of a chain. -/
structure ChainMetrics where
  computeMs : ℚ := 0
  rpcWallMs : ℚ := 0
  trueCommMs : ℚ := 0
  transportPayloadBytes : ℕ := 0
  stageCount : ℕ := 0

section Reader

/-- A number out of range counts as absent. -/
def extractNumberField (json key : Bytes) : Option ℚ :=
  (searchField key metadataNumber json).bind stod

/-- The conversion of a double to 64 bits without sign. Outside the range its
result is left to the platform. -/
def toUint64 (overflow : ℚ → ℕ) (x : ℚ) : ℕ := if ⌊x⌋ < 2 ^ 64 then ⌊x⌋.toNat else overflow x

def extractU64Field (overflow : ℚ → ℕ) (json key : Bytes) : Option ℕ :=
  match extractNumberField json key with
  | none => none
  | some value => if value < 0 then none else some (toUint64 overflow value)

def extractNumberAliases (json : Bytes) (keys : List Bytes) : Option ℚ :=
  keys.findSome? (extractNumberField json)

def extractU64Aliases (overflow : ℚ → ℕ) (json : Bytes) (keys : List Bytes) : Option ℕ :=
  keys.findSome? (extractU64Field overflow json)

def metadataHasChainMetrics (metadataJson : Bytes) : Bool :=
  (find (ascii "\"chain_metrics\"") metadataJson).isSome ||
    ((find (ascii "\"chain_compute_time_ms\"") metadataJson).isSome ||
      (find (ascii "\"ccm\"") metadataJson).isSome)

/-- The chain metrics under their names and their aliases. -/
def readChainMetrics (overflow : ℚ → ℕ) (json : Bytes) : ChainMetrics where
  computeMs := (extractNumberAliases json
    [ascii "compute_ms", ascii "chain_compute_time_ms", ascii "ccm"]).getD 0
  rpcWallMs := (extractNumberAliases json
    [ascii "rpc_wall_ms", ascii "chain_rpc_wall_time_ms", ascii "crw"]).getD 0
  trueCommMs := (extractNumberAliases json
    [ascii "true_comm_ms", ascii "chain_true_comm_ms", ascii "ctc"]).getD 0
  transportPayloadBytes := (extractU64Aliases overflow json
    [ascii "transport_payload_bytes", ascii "chain_transport_payload_bytes", ascii "cpb"]).getD 0
  stageCount := (extractU64Aliases overflow json
    [ascii "stage_count", ascii "chain_stage_count", ascii "chain_hops", ascii "csc"]).getD 0

/-- The metrics of a last stage stand for those of its chain. -/
def fromStageMetrics (overflow : ℚ → ℕ) (json : Bytes) (out : ChainMetrics) : ChainMetrics where
  computeMs := (extractNumberField json (ascii "compute_time_ms")).getD out.computeMs
  rpcWallMs := (extractNumberField json (ascii "rpc_wall_time_ms")).getD out.rpcWallMs
  trueCommMs := (extractNumberField json (ascii "true_comm_ms")).getD out.trueCommMs
  transportPayloadBytes :=
    ((out.transportPayloadBytes +
      (extractU64Field overflow json (ascii "input_tensor_bytes")).getD 0) % 2 ^ 64 +
      (extractU64Field overflow json (ascii "output_tensor_bytes")).getD 0) % 2 ^ 64
  stageCount := 1

/-- What is still missing is computed. -/
def completed (out : ChainMetrics) : ChainMetrics :=
  let rpcWallMs := if out.rpcWallMs ≤ 0 ∧ 0 < out.computeMs then out.computeMs else out.rpcWallMs
  { out with
    rpcWallMs := rpcWallMs
    trueCommMs :=
      if out.trueCommMs ≤ 0 then max 0 (binary64.round (rpcWallMs - out.computeMs))
      else out.trueCommMs
    stageCount := if out.stageCount = 0 then 1 else out.stageCount }

def extractChainMetricsFromMetadata (overflow : ℚ → ℕ) (metadataJson : Bytes) : ChainMetrics :=
  let out := readChainMetrics overflow metadataJson
  completed (if metadataHasChainMetrics metadataJson then out
    else fromStageMetrics overflow metadataJson out)

end Reader

section Writer

/-- The numbers that are removed, after the object. -/
def numberKeys : List Bytes :=
  [ascii "chain_compute_time_ms", ascii "chain_rpc_wall_time_ms", ascii "chain_true_comm_ms",
    ascii "chain_transport_payload_bytes", ascii "chain_stage_count", ascii "chain_hops",
    ascii "ccm", ascii "crw", ascii "ctc", ascii "cpb", ascii "csc"]

def removeChainMetricFields (json : Bytes) : Bytes :=
  numberKeys.foldl removeNumberField (removeObjectField json (ascii "chain_metrics"))

theorem isName_computeMs : IsName (ascii "compute_ms") := by decide

theorem isName_rpcWallMs : IsName (ascii "rpc_wall_ms") := by decide

theorem isName_trueCommMs : IsName (ascii "true_comm_ms") := by decide

theorem isName_transportPayloadBytes : IsName (ascii "transport_payload_bytes") := by decide

theorem isName_stageCount : IsName (ascii "stage_count") := by decide

/-- The inner object. -/
def objectPieces (metrics : ChainMetrics) : List Piece :=
  [keyPiece "compute_ms" isName_computeMs, doublePiece metrics.computeMs .comma,
    keyPiece "rpc_wall_ms" isName_rpcWallMs, doublePiece metrics.rpcWallMs .comma,
    keyPiece "true_comm_ms" isName_trueCommMs, doublePiece metrics.trueCommMs .comma,
    keyPiece "transport_payload_bytes" isName_transportPayloadBytes,
    integerPiece metrics.transportPayloadBytes .comma,
    keyPiece "stage_count" isName_stageCount, integerPiece metrics.stageCount .close]

/-- The same numbers under long names, up to the last number. -/
def flatPieces (metrics : ChainMetrics) : List Piece :=
  [keyPiece "chain_compute_time_ms", doublePiece metrics.computeMs .comma,
    keyPiece "chain_rpc_wall_time_ms", doublePiece metrics.rpcWallMs .comma,
    keyPiece "chain_true_comm_ms", doublePiece metrics.trueCommMs .comma,
    keyPiece "chain_transport_payload_bytes", integerPiece metrics.transportPayloadBytes .comma,
    keyPiece "chain_stage_count", integerPiece metrics.stageCount .comma,
    keyPiece "chain_hops"]

def chainMetricsJson (metrics : ChainMetrics) : Bytes :=
  piecesText (keyPiece "chain_metrics" :: openBrace :: (objectPieces metrics ++
    (comma :: flatPieces metrics))) ++ decimal metrics.stageCount

def putChainMetricsInMetadata (metadataJson : Bytes) (metrics : ChainMetrics) : Bytes :=
  let json := removeChainMetricFields metadataJson
  match rfind 0x7d json with
  | none => json
  | some pos =>
    let needsComma := decide (0 < pos) && json.getD (pos - 1) 0 != 0x7b
    json.take pos ++ ((if needsComma then [44] else []) ++ chainMetricsJson metrics) ++
      json.drop pos

end Writer

section Merging

def localChainMetricsFromStage (metrics : StageMetrics) : ChainMetrics :=
  let rpcWallMs :=
    if 0 < metrics.rpcWallTimeMs then metrics.rpcWallTimeMs else metrics.computeTimeMs
  { computeMs := metrics.computeTimeMs
    rpcWallMs := rpcWallMs
    trueCommMs := max 0 (binary64.round (rpcWallMs - metrics.computeTimeMs))
    transportPayloadBytes := (metrics.inputTensorBytes + metrics.outputTensorBytes) % 2 ^ 64
    stageCount := 1 }

/-- The metrics of a chain with one more stage in front. -/
def mergeChainMetricsValues (localMetrics : StageMetrics) (downstreamMetrics : ChainMetrics)
    (downstreamRpcWallMs : ℚ) (requestBytes responseBytes : ℕ) : ChainMetrics :=
  let computeMs :=
    binary64.round ((localChainMetricsFromStage localMetrics).computeMs +
      downstreamMetrics.computeMs)
  let rpcWallMs :=
    binary64.round ((localChainMetricsFromStage localMetrics).computeMs + max 0 downstreamRpcWallMs)
  { computeMs := computeMs
    rpcWallMs := rpcWallMs
    trueCommMs := max 0 (binary64.round (rpcWallMs - computeMs))
    transportPayloadBytes :=
      (downstreamMetrics.transportPayloadBytes + requestBytes + responseBytes) % 2 ^ 64
    stageCount := (max 1 downstreamMetrics.stageCount + 1) % 2 ^ 64 }

def mergeChainMetrics (overflow : ℚ → ℕ) (downstreamMetadata : Bytes) (localMetrics : StageMetrics)
    (downstreamRpcWallMs : ℚ) (requestBytes responseBytes : ℕ) : Bytes :=
  putChainMetricsInMetadata downstreamMetadata
    (mergeChainMetricsValues localMetrics
      (extractChainMetricsFromMetadata overflow downstreamMetadata) downstreamRpcWallMs
      requestBytes responseBytes)

end Merging

section Pieces

variable {front : List Piece} {metrics : ChainMetrics}

/-- The new fields with the last brace. -/
def writtenPieces (metrics : ChainMetrics) : List Piece :=
  keyPiece "chain_metrics" :: openBrace :: (objectPieces metrics ++
    (comma :: (flatPieces metrics ++ [integerPiece metrics.stageCount .close])))

theorem chainMetricsJson_closed (metrics : ChainMetrics) :
    chainMetricsJson metrics ++ [0x7d] = piecesText (writtenPieces metrics) := by
  have hlast : piecesText [integerPiece metrics.stageCount .close] =
      decimal metrics.stageCount ++ [0x7d] := by
    show ((decimalLiteral metrics.stageCount).text ++ [0x7d]) ++ [] = _
    rw [List.append_nil, decimalLiteral_text]
  have hsplit : writtenPieces metrics = (keyPiece "chain_metrics" :: openBrace ::
      (objectPieces metrics ++ (comma :: flatPieces metrics))) ++
        [integerPiece metrics.stageCount .close] := by
    unfold writtenPieces
    simp only [List.cons_append, List.append_assoc]
  rw [hsplit, piecesText_append, hlast]
  exact List.append_assoc _ _ _

/-- Pieces without any name of a chain metric that is removed. -/
def Chainless (front : List Piece) : Prop :=
  behind (ascii "chain_metrics") front = none ∧ ∀ name ∈ numberKeys, behind name front = none

/-- A text in which no name of a chain metric that is removed is found. -/
def ChainFree (text : Bytes) : Prop :=
  ∀ name ∈ ascii "chain_metrics" :: numberKeys, PassedOver name text

theorem chainKeys_isName : ∀ name ∈ ascii "chain_metrics" :: numberKeys, IsName name := by decide

theorem chainFree_pieces (h : Chainless front) {text : Bytes} (htext : ChainFree text) :
    ChainFree (piecesText front ++ text) := by
  have hfront : ∀ name ∈ ascii "chain_metrics" :: numberKeys, behind name front = none :=
    List.forall_mem_cons.mpr h
  exact fun name hname =>
    passedOver_pieces (chainKeys_isName name hname) (hfront name hname) (htext name hname)

theorem ChainFree.number {text : Bytes} (h : ChainFree text) {name : Bytes}
    (hname : name ∈ numberKeys) : PassedOver name text := h name (List.mem_cons_of_mem _ hname)

theorem ChainFree.fieldless {text : Bytes} (h : ChainFree text) :
    ∀ name ∈ ascii "chain_metrics" :: numberKeys, Fieldless name (text ++ [0x7d]) :=
  fun name hname => fieldless_passed (h name hname) stop_brace rfl

/-- Numbers that are not there are not removed. -/
theorem foldl_removeNumber_fieldless {json : Bytes} {keys : List Bytes}
    (h : ∀ name ∈ keys, Fieldless name json) : keys.foldl removeNumberField json = json := by
  induction keys with
  | nil => rfl
  | cons name keys ih =>
    have hnone : removeNumberField json name = json :=
      removeField_absent (h name List.mem_cons_self)
    rw [List.foldl_cons, hnone]
    exact ih fun other hother => h other (List.mem_cons_of_mem name hother)

/-- Without chain metrics nothing is removed. -/
theorem remove_free {text : Bytes} (h : ChainFree text) :
    removeChainMetricFields (text ++ [0x7d]) = text ++ [0x7d] := by
  have hobject : removeObjectField (text ++ [0x7d]) (ascii "chain_metrics") = text ++ [0x7d] :=
    removeField_absent (h.fieldless _ List.mem_cons_self)
  unfold removeChainMetricFields
  rw [hobject, foldl_removeNumber_fieldless fun name hname =>
    h.fieldless name (List.mem_cons_of_mem _ hname)]

/-- A number field goes with the comma before it. -/
theorem removeNumber_field {text : Bytes} {name : String} {isName : IsName (ascii name)}
    {l : NumberLiteral} {hl : l.WellFormed} {mark : Mark} {after : List Piece}
    (htext : PassedOver (ascii name) text) (hafter : behind (ascii name) after = none) :
    removeNumberField (text ++ piecesText
      (comma :: keyPiece name isName :: literalPiece l hl mark :: after)) (ascii name) =
        text ++ mark.byte :: piecesText after := by
  have htarget : l.text ++ mark.byte :: piecesText after =
      piecesText (literalPiece l hl mark :: after) := by
    rw [piecesText_cons]
    exact (List.append_assoc l.text [mark.byte] _).symm
  have hfield : piecesText (comma :: keyPiece name isName :: literalPiece l hl mark :: after) =
      44 :: jsonField (ascii name) (l.text ++ mark.byte :: piecesText after) := by
    rw [piecesText_cons, piecesText_cons, htarget]
    show 44 :: (jsonField (ascii name) [] ++ piecesText (literalPiece l hl mark :: after)) = _
    rw [jsonField_append, List.nil_append]
  have hnone : ∀ other : Bytes → Option Bytes,
      searchField (ascii name) other (l.text ++ mark.byte :: piecesText after) = none := by
    intro other
    rw [htarget]
    exact searchField_none isName other hafter
  rw [hfield]
  exact removeField_passed isName htext (by cases mark; exacts [stop_comma, stop_brace])
    (skipSpaces_literal hl _) hnone (behindNumber_text hl mark.ends _) ⟨l.text, rfl⟩
    (searchField_none isName some hafter)

/-- Between two commas the field leaves the one behind it. -/
theorem removeNumber_comma {text : Bytes} {name : String} {isName : IsName (ascii name)}
    {l : NumberLiteral} {hl : l.WellFormed} {after : List Piece}
    (htext : PassedOver (ascii name) text) (hafter : behind (ascii name) after = none) :
    removeNumberField (text ++ piecesText
      (comma :: keyPiece name isName :: literalPiece l hl .comma :: after)) (ascii name) =
        text ++ piecesText (comma :: after) := removeNumber_field htext hafter

/-- Before the last brace the field leaves the brace. -/
theorem removeNumber_close {text : Bytes} {name : String} {isName : IsName (ascii name)}
    {l : NumberLiteral} {hl : l.WellFormed} (htext : PassedOver (ascii name) text) :
    removeNumberField (text ++ piecesText
      [comma, keyPiece name isName, literalPiece l hl .close]) (ascii name) =
        text ++ [0x7d] := removeNumber_field htext rfl

/-- The inner object has no braces but its own. -/
theorem objectPieces_text (metrics : ChainMetrics) :
    ∃ inner, piecesText (objectPieces metrics) = inner ++ [0x7d] ∧ Unbraced inner := by
  have hinteger := decimalLiteral_wellFormed metrics.stageCount
  refine ⟨piecesText [keyPiece "compute_ms", doublePiece metrics.computeMs .comma,
    keyPiece "rpc_wall_ms", doublePiece metrics.rpcWallMs .comma,
    keyPiece "true_comm_ms", doublePiece metrics.trueCommMs .comma,
    keyPiece "transport_payload_bytes", integerPiece metrics.transportPayloadBytes .comma,
    keyPiece "stage_count"] ++ (decimalLiteral metrics.stageCount).text, ?_,
    unbraced_append (unbraced_pieces ?_) (unbraced_literal hinteger)⟩
  · have hlast : piecesText [integerPiece metrics.stageCount .close] =
        (decimalLiteral metrics.stageCount).text ++ [0x7d] := List.append_nil _
    rw [List.append_assoc, ← hlast, ← piecesText_append]
    rfl
  · simp only [List.forall_mem_cons]
    exact ⟨unbraced_key _, unbraced_comma _, unbraced_key _, unbraced_comma _, unbraced_key _,
      unbraced_comma _, unbraced_key _, unbraced_comma _, unbraced_key _,
      fun _ hpiece => absurd hpiece List.not_mem_nil⟩

/-- The inner object goes with the comma before it. -/
theorem removeObject_written {text : Bytes} (htext : PassedOver (ascii "chain_metrics") text)
    {after : List Piece} (hafter : behind (ascii "chain_metrics") after = none) :
    removeObjectField (text ++ piecesText (comma :: keyPiece "chain_metrics" :: openBrace ::
      (objectPieces metrics ++ comma :: after))) (ascii "chain_metrics") =
        text ++ piecesText (comma :: after) := by
  obtain ⟨inner, hinner, hplain⟩ := objectPieces_text metrics
  set rest := openBrace :: (objectPieces metrics ++ comma :: after) with hrest
  have htarget : piecesText rest = 0x7b :: (inner ++ 0x7d :: (44 :: piecesText after)) := by
    rw [hrest, piecesText_cons, piecesText_append, hinner, List.append_assoc]
    rfl
  have hfield : piecesText (comma :: keyPiece "chain_metrics" :: rest) =
      44 :: jsonField (ascii "chain_metrics") (piecesText rest) := by
    rw [piecesText_cons, piecesText_cons]
    show 44 :: (jsonField (ascii "chain_metrics") [] ++ piecesText rest) = _
    rw [jsonField_append, List.nil_append]
  have hnone : behind (ascii "chain_metrics") rest = none :=
    (behind_append rfl (comma :: after)).trans hafter
  rw [hfield]
  refine removeField_passed (by decide) htext stop_comma ?_
    (fun other => searchField_none (by decide) other hnone) ?_ ?_
    (searchField_none (by decide) some hafter)
  · rw [htarget]
    exact skipSpaces_cons rfl _
  · rw [htarget]
    exact behindObject_text hplain _
  · refine ⟨0x7b :: (inner ++ [0x7d]), ?_⟩
    rw [htarget, List.cons_append, List.append_assoc]
    rfl

/-- All that was written is removed again. -/
theorem remove_written {text : Bytes} (h : ChainFree text) :
    removeChainMetricFields (text ++ piecesText (comma :: writtenPieces metrics)) =
      text ++ [0x7d] := by
  unfold removeChainMetricFields writtenPieces
  rw [removeObject_written (h _ List.mem_cons_self) rfl]
  unfold flatPieces doublePiece integerPiece
  simp only [List.cons_append, List.nil_append]
  have hkeys : ∀ name ∈ numberKeys, PassedOver name text := fun name hname => h.number hname
  unfold numberKeys at hkeys ⊢
  simp only [List.forall_mem_cons] at hkeys
  obtain ⟨hcompute, hwall, hcomm, hbytes, hcount, hhops, -⟩ := hkeys
  rw [List.foldl_cons, removeNumber_comma hcompute rfl,
    List.foldl_cons, removeNumber_comma hwall rfl,
    List.foldl_cons, removeNumber_comma hcomm rfl,
    List.foldl_cons, removeNumber_comma hbytes rfl,
    List.foldl_cons, removeNumber_comma hcount rfl,
    List.foldl_cons, removeNumber_close hhops]
  -- the short names are never written
  refine foldl_removeNumber_fieldless fun name hname => h.fieldless name ?_
  exact List.mem_cons_of_mem _ (@List.mem_of_mem_drop _ _ 6 _ hname)

/-- Whatever was removed, the new fields stand before the last brace. -/
theorem put_removed {json text : Bytes} (hend : ∃ inner, text = inner ++ [0x7d])
    (hremoved : removeChainMetricFields json = text ++ [0x7d]) :
    putChainMetricsInMetadata json metrics =
      text ++ piecesText (comma :: writtenPieces metrics) := by
  have hbefore : (text ++ [0x7d]).getD (text.length - 1) 0 = 0x7d := by
    obtain ⟨inner, rfl⟩ := hend
    rw [List.length_append, List.length_singleton, Nat.add_sub_cancel, List.append_assoc,
      List.getD_append_right _ _ _ _ (Nat.le_refl _), Nat.sub_self]
    rfl
  have hpos : 0 < text.length := by
    obtain ⟨inner, rfl⟩ := hend
    rw [List.length_append]
    exact Nat.succ_pos _
  unfold putChainMetricsInMetadata
  dsimp only
  rw [hremoved, rfind_append_cons List.not_mem_nil]
  dsimp only
  rw [hbefore, decide_eq_true hpos, List.take_left, List.drop_left, if_pos (by decide)]
  calc text ++ ([44] ++ chainMetricsJson metrics) ++ [0x7d] =
        text ++ 44 :: (chainMetricsJson metrics ++ [0x7d]) := by
        rw [List.append_assoc]
        rfl
    _ = text ++ piecesText (comma :: writtenPieces metrics) := by
        rw [chainMetricsJson_closed]
        rfl

theorem chainFree_front (h : Chainless front) : ChainFree (piecesText front) := by
  have hfree := chainFree_pieces h fun name _ => passedOver_nil name
  rwa [List.append_nil] at hfree

/-- New chain metrics are inserted. -/
theorem put_chainless (h : Chainless front) (hend : ∃ inner, piecesText front = inner ++ [0x7d]) :
    putChainMetricsInMetadata (piecesText (front ++ [lastBrace])) metrics =
      piecesText (front ++ comma :: writtenPieces metrics) := by
  rw [piecesText_append, piecesText_append]
  exact put_removed hend (remove_free (chainFree_front h))

/-- Old chain metrics are replaced. -/
theorem put_written (h : Chainless front) (hend : ∃ inner, piecesText front = inner ++ [0x7d])
    (old : ChainMetrics) :
    putChainMetricsInMetadata (piecesText (front ++ comma :: writtenPieces old)) metrics =
      piecesText (front ++ comma :: writtenPieces metrics) := by
  rw [piecesText_append, piecesText_append]
  exact put_removed hend (remove_written (chainFree_front h))

end Pieces

end LayerInference.StageChainMetrics
