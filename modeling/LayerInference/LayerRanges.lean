import LayerInference.FallibleRuns
import Mathlib.Data.Int.Interval
import Mathlib.Data.List.DropRight
import Mathlib.Data.List.Forall2
import Mathlib.Data.List.Sort
import Mathlib.Tactic.Ring

/-!
# The layer ranges of a split plan

The splitter balances the layers over the stages, or reads one range of layers a
stage, as `first-last` or as a list. Of what it reads it checks the set of all
layers only: within the model, none twice, none missing. The stages are a
pipeline exactly when the numbers that are written in the ranges never descend
from left to right.
-/

namespace LayerInference.LayerRanges

open FallibleRuns

section PythonText

/-- Text as the interpreter has it, a list of code points. -/
abbrev Text := List Char

/-- The tables of the interpreter: white space, and the values of decimal digits. -/
structure UnicodeTables where
  isSpace : Char → Bool
  decimal : Char → Option ℕ

variable (unicode : UnicodeTables)

def strip (text : Text) : Text := (text.dropWhile unicode.isSpace).rdropWhile unicode.isSpace

/-- Digits with single underscores between them; the flag says that a digit was last. -/
def readDigits : ℕ → Bool → Text → Option ℕ
  | value, afterDigit, [] => if afterDigit then some value else none
  | value, afterDigit, c :: rest =>
    if c = '_' then if afterDigit then readDigits value false rest else none
    else
      match unicode.decimal c with
      | some digit => readDigits (value * 10 + digit) true rest
      | none => none

/-- The conversion `int` of a text. -/
def int (text : Text) : Option ℤ :=
  match strip unicode text with
  | '-' :: digits => (readDigits unicode 0 false digits).map fun n => -(n : ℤ)
  | '+' :: digits => (readDigits unicode 0 false digits).map Int.ofNat
  | digits => (readDigits unicode 0 false digits).map Int.ofNat

/-- The integers from `first` up to `last - 1`. -/
def range (first last : ℤ) : List ℤ :=
  (List.range (last - first).toNat).map fun i : ℕ => first + (i : ℤ)

end PythonText

section Plans

variable (unicode : UnicodeTables)

/-- What is raised, with the values that the message names. -/
inductive ValueError where
  | emptyRange
  | invalidLiteral (text : Text)
  | decreasingRange (raw : Text)
  | noLayers (raw : Text)
  | outside (layer numLayers : ℤ)
  | repeated (layer : ℤ)
  | coverage (missing extra : List ℤ)
  | rangeCount (ranges : ℕ) (numStages : ℤ)
  | stagesNotPositive
  | layersNotPositive
  | moreStagesThanLayers (numStages numLayers : ℤ)

def readInt (text : Text) : Except ValueError ℤ :=
  match int unicode text with
  | some n => .ok n
  | none => .error (.invalidLiteral text)

/-- The layers that a range lists, in one of the two notations. -/
def listedLayers (raw : Text) : Except ValueError (List ℤ) :=
  if '-' ∈ raw then do
    let first ← readInt unicode (raw.takeWhile (· ≠ '-'))
    let last ← readInt unicode ((raw.dropWhile (· ≠ '-')).tail)
    if last < first then .error (.decreasingRange raw) else .ok (range first (last + 1))
  else (((raw.splitOn ',').map (strip unicode)).filter (· ≠ [])).mapM (readInt unicode)

/-- The layers of one range, which is stripped already. -/
def rangeLayers (raw : Text) : Except ValueError (List ℤ) :=
  if raw = [] then .error .emptyRange
  else do
    let layers ← listedLayers unicode raw
    if layers = [] then .error (.noLayers raw) else .ok layers

/-- Enter the layers of one range into the set of the layers seen so far. -/
def enterLayers (numLayers : ℤ) (seen : List ℤ) : List ℤ → Except ValueError (List ℤ)
  | [] => .ok seen
  | layer :: layers =>
    if layer < 0 ∨ numLayers ≤ layer then .error (.outside layer numLayers)
    else if layer ∈ seen then .error (.repeated layer)
    else enterLayers numLayers (seen ++ [layer]) layers

/-- The loop over the ranges. -/
def parseRanges (numLayers : ℤ) (seen : List ℤ) :
    List Text → Except ValueError (List (List ℤ) × List ℤ)
  | [] => .ok ([], seen)
  | raw :: raws => do
    let layers ← rangeLayers unicode (strip unicode raw)
    let seen ← enterLayers numLayers seen layers
    let (parsed, seen) ← parseRanges numLayers seen raws
    return (layers :: parsed, seen)

def parseLayerRanges (rawRanges : List Text) (numLayers : ℤ) : Except ValueError (List (List ℤ)) := do
  let (parsed, seen) ← parseRanges unicode numLayers [] rawRanges
  let expected := range 0 numLayers
  let missing := expected.filter (· ∉ seen)
  let extra := seen.filter (· ∉ expected)
  if missing ≠ [] ∨ extra ≠ [] then throw (.coverage missing (extra.mergeSort (· ≤ ·)))
  return parsed

/-- The loop of the balanced split; the first stages have one layer more. -/
def balancedFrom (base remainder : ℤ) : ℕ → ℤ → ℤ → List (List ℤ)
  | 0, _, _ => []
  | stages + 1, stageIdx, cursor =>
    let size := base + if stageIdx < remainder then 1 else 0
    range cursor (cursor + size) :: balancedFrom base remainder stages (stageIdx + 1) (cursor + size)

def buildBalancedLayerRanges (numLayers numStages : ℤ) : Except ValueError (List (List ℤ)) := do
  if numStages ≤ 0 then throw .stagesNotPositive
  if numLayers ≤ 0 then throw .layersNotPositive
  if numLayers < numStages then throw (.moreStagesThanLayers numStages numLayers)
  return balancedFrom (numLayers / numStages) (numLayers % numStages) numStages.toNat 0 0

/-- One stage of a plan; its file is a name in the output directory. -/
structure StageSpec where
  stageId : ℤ
  layerIndices : List ℤ
  includeEmbedding : Bool
  includeNorm : Bool
  includeLmHead : Bool
  outputFile : String × String

structure ModelSplitPlan where
  modelId : String
  modelSource : String
  outputDir : String
  numStages : ℤ
  numLayers : ℤ
  stages : List StageSpec

/-- The stage with an index. -/
def stageSpec (outputDir : String) (numStages : ℤ) (index : ℕ) (layers : List ℤ) : StageSpec :=
  let stageId : ℤ := index + 1
  { stageId := stageId
    layerIndices := layers
    includeEmbedding := stageId == 1
    includeNorm := stageId == numStages
    includeLmHead := stageId == numStages
    outputFile := (outputDir, "stage_" ++ toString stageId ++ ".pt") }

/-- The ranges of a plan: read, or balanced when there are none to read. -/
def planRanges (numLayers numStages : ℤ) (layerRanges : Option (List Text)) :
    Except ValueError (List (List ℤ)) :=
  match layerRanges with
  | some (raw :: raws) => do
    let ranges ← parseLayerRanges unicode (raw :: raws) numLayers
    if (ranges.length : ℤ) ≠ numStages then throw (.rangeCount ranges.length numStages)
    return ranges
  | _ => buildBalancedLayerRanges numLayers numStages

def buildSplitPlan (modelId modelSource outputDir : String) (numLayers numStages : ℤ)
    (layerRanges : Option (List Text)) : Except ValueError ModelSplitPlan := do
  let ranges ← planRanges unicode numLayers numStages layerRanges
  return {
    modelId := modelId
    modelSource := modelSource
    outputDir := outputDir
    numStages := numStages
    numLayers := numLayers
    stages := ranges.mapIdx (stageSpec outputDir numStages) }

end Plans

section Conditions

variable (unicode : UnicodeTables)

/-- The texts of a stripped range that are read as numbers. -/
def numberTexts (raw : Text) : List Text :=
  if '-' ∈ raw then [raw.takeWhile (· ≠ '-'), (raw.dropWhile (· ≠ '-')).tail]
  else ((raw.splitOn ',').map (strip unicode)).filter (· ≠ [])

/-- The numbers written in a range, from left to right. -/
def writtenNumbers (raw : Text) : List ℤ :=
  (numberTexts unicode (strip unicode raw)).filterMap (int unicode)

/-- The numbers of all ranges never descend. -/
def WrittenInOrder (layerRanges : Option (List Text)) : Prop :=
  ((layerRanges.getD []).flatMap (writtenNumbers unicode)).Pairwise (· ≤ ·)

/-- The stages of a plan apply all layers in order, from the stage with the
embedding to the one with norm and output. -/
structure IsPipeline (plan : ModelSplitPlan) : Prop where
  layers : plan.stages.flatMap StageSpec.layerIndices = range 0 plan.numLayers
  embedding : ∀ stage ∈ plan.stages, stage.includeEmbedding = true →
    stage.layerIndices.head? = some 0
  norm : ∀ stage ∈ plan.stages, stage.includeNorm = true →
    stage.layerIndices.getLast? = some (plan.numLayers - 1)
  lmHead : ∀ stage ∈ plan.stages, stage.includeLmHead = true →
    stage.layerIndices.getLast? = some (plan.numLayers - 1)

end Conditions

section Ranges

variable {first last x : ℤ}

theorem mem_range : x ∈ range first last ↔ first ≤ x ∧ x < last := by
  unfold range
  rw [List.mem_map]
  constructor
  · rintro ⟨i, hi, rfl⟩
    have hlt := List.mem_range.mp hi
    omega
  · intro h
    exact ⟨(x - first).toNat, List.mem_range.mpr (by omega), by omega⟩

theorem range_ascending (first last : ℤ) : (range first last).Pairwise (· < ·) := by
  unfold range
  rw [List.pairwise_map]
  exact List.pairwise_lt_range.imp fun h => by omega

/-- The same numbers in ascending order are the same list. -/
theorem eq_range_iff {layers : List ℤ} (hnodup : layers.Nodup)
    (hmem : ∀ x, x ∈ layers ↔ x ∈ range first last) :
    layers = range first last ↔ layers.Pairwise (· ≤ ·) := by
  constructor
  · rintro rfl
    exact (range_ascending first last).imp Int.le_of_lt
  · intro hsorted
    have hrange := range_ascending first last
    have hperm : layers.Perm (range first last) :=
      (List.perm_ext_iff_of_nodup hnodup (hrange.imp fun h => h.ne)).mpr hmem
    exact hperm.eq_of_pairwise (fun a b _ _ => le_antisymm) hsorted (hrange.imp Int.le_of_lt)

theorem range_append {middle : ℤ} (hfirst : first ≤ middle) (hlast : middle ≤ last) :
    range first middle ++ range middle last = range first last := by
  refine (eq_range_iff ?_ fun x => ?_).mpr ?_
  · refine List.Nodup.append ((range_ascending _ _).imp fun h => h.ne)
      ((range_ascending _ _).imp fun h => h.ne) fun x hx hx' => ?_
    have hlow := (mem_range.mp hx).2
    have hhigh := (mem_range.mp hx').1
    omega
  · rw [List.mem_append, mem_range, mem_range, mem_range]
    omega
  · refine List.pairwise_append.mpr ⟨(range_ascending _ _).imp Int.le_of_lt,
      (range_ascending _ _).imp Int.le_of_lt, fun x hx y hy => ?_⟩
    have hlow := (mem_range.mp hx).2
    have hhigh := (mem_range.mp hy).1
    omega

theorem range_succ (first : ℤ) : range first (first + 1) = [first] := by
  have hone : (first + 1 - first).toNat = 1 := by omega
  rw [range, hone, List.range_one, List.map_singleton, Nat.cast_zero, add_zero]

theorem range_ends (h : first < last) :
    (range first last).head? = some first ∧ (range first last).getLast? = some (last - 1) := by
  have hfirst : range first (first + 1) ++ range (first + 1) last = range first last :=
    range_append (by omega) (by omega)
  have hlast : range first (last - 1) ++ range (last - 1) last = range first last :=
    range_append (by omega) (by omega)
  have hone := range_succ (last - 1)
  rw [sub_add_cancel] at hone
  refine ⟨?_, ?_⟩
  · rw [← hfirst, range_succ]
    rfl
  · rw [← hlast, hone, List.getLast?_concat]

end Ranges

section Checks

variable {unicode : UnicodeTables} {numLayers : ℤ}

/-- The set after a range has been entered. -/
theorem enterLayers_ok {seen layers seen' : List ℤ}
    (h : enterLayers numLayers seen layers = .ok seen') :
    seen' = seen ++ layers ∧ (∀ x ∈ layers, 0 ≤ x ∧ x < numLayers) ∧
      (seen.Nodup → (seen ++ layers).Nodup) := by
  induction layers generalizing seen with
  | nil =>
    rw [List.append_nil]
    exact ⟨(Except.ok.inj h).symm, fun x hx => absurd hx List.not_mem_nil, id⟩
  | cons layer layers ih =>
    rw [enterLayers] at h
    by_cases houtside : layer < 0 ∨ numLayers ≤ layer
    · rw [if_pos houtside] at h
      cases h
    · rw [if_neg houtside] at h
      by_cases hseen : layer ∈ seen
      · rw [if_pos hseen] at h
        cases h
      · rw [if_neg hseen] at h
        obtain ⟨hall, hbounds, hnodup⟩ := ih h
        rw [List.append_assoc, List.singleton_append] at hall hnodup
        refine ⟨hall, fun x hx => ?_, fun hdistinct => hnodup ?_⟩
        · rcases List.mem_cons.mp hx with rfl | hx
          · omega
          · exact hbounds x hx
        · rw [List.nodup_append]
          refine ⟨hdistinct, List.nodup_singleton layer, fun x hx y hy heq => hseen ?_⟩
          rw [← List.mem_singleton.mp hy, ← heq]
          exact hx

/-- What the loop over the ranges has read and checked. -/
theorem parseRanges_ok {raws : List Text} {seen seen' : List ℤ} {parsed : List (List ℤ)}
    (h : parseRanges unicode numLayers seen raws = .ok (parsed, seen')) :
    List.Forall₂ (fun raw layers => rangeLayers unicode (strip unicode raw) = .ok layers)
        raws parsed ∧
      seen' = seen ++ parsed.flatten ∧ (∀ x ∈ parsed.flatten, 0 ≤ x ∧ x < numLayers) ∧
      (seen.Nodup → (seen ++ parsed.flatten).Nodup) := by
  induction raws generalizing seen parsed with
  | nil =>
    cases h
    rw [List.flatten_nil, List.append_nil]
    exact ⟨.nil, rfl, fun x hx => absurd hx List.not_mem_nil, id⟩
  | cons raw raws ih =>
    rw [parseRanges] at h
    obtain ⟨layers, hlayers, h⟩ := ok_of_bind h
    obtain ⟨entered, hentered, h⟩ := ok_of_bind h
    obtain ⟨⟨rest, final⟩, hrest, h⟩ := ok_of_bind h
    cases h
    obtain ⟨rfl, hbounds, hnodup⟩ := enterLayers_ok hentered
    obtain ⟨hforall, rfl, hbounds', hnodup'⟩ := ih hrest
    rw [List.append_assoc, ← List.flatten_cons] at *
    refine ⟨.cons hlayers hforall, rfl, fun x hx => ?_, fun hdistinct => hnodup' (hnodup hdistinct)⟩
    rcases List.mem_append.mp hx with hx | hx
    · exact hbounds x hx
    · exact hbounds' x hx

/-- The accepted ranges together are the layers of the model, in some order. -/
theorem parseLayerRanges_ok {raws : List Text} {parsed : List (List ℤ)}
    (h : parseLayerRanges unicode raws numLayers = .ok parsed) :
    List.Forall₂ (fun raw layers => rangeLayers unicode (strip unicode raw) = .ok layers)
        raws parsed ∧
      parsed.flatten.Nodup ∧ ∀ x, x ∈ parsed.flatten ↔ x ∈ range 0 numLayers := by
  unfold parseLayerRanges at h
  obtain ⟨⟨read, seen⟩, hread, h⟩ := ok_of_bind h
  obtain ⟨hforall, hseen, hbounds, hnodup⟩ := parseRanges_ok hread
  rw [List.nil_append] at hseen hnodup
  subst hseen
  dsimp only at h
  by_cases hcovers : (range 0 numLayers).filter (· ∉ read.flatten) ≠ [] ∨
      read.flatten.filter (· ∉ range 0 numLayers) ≠ []
  · rw [if_pos hcovers] at h
    cases h
  · rw [if_neg hcovers] at h
    cases h
    rw [not_or, not_not, List.filter_eq_nil_iff] at hcovers
    refine ⟨hforall, hnodup List.nodup_nil, fun x => ⟨fun hx => ?_, fun hx => ?_⟩⟩
    · have hbound := hbounds x hx
      exact mem_range.mpr hbound
    · have hmissing := hcovers.1 x hx
      rwa [decide_eq_true_eq, not_not] at hmissing

/-- The layers of a range lie between the numbers that are written in it. -/
structure Denotes (numbers layers : List ℤ) : Prop where
  sub : ∀ n ∈ numbers, n ∈ layers
  between : ∀ x ∈ layers, ∃ low ∈ numbers, ∃ high ∈ numbers, low ≤ x ∧ x ≤ high
  ascending : layers.Pairwise (· ≤ ·) ↔ numbers.Pairwise (· ≤ ·)

theorem denotes_self (numbers : List ℤ) : Denotes numbers numbers :=
  ⟨fun _ hn => hn, fun x hx => ⟨x, hx, x, hx, le_rfl, le_rfl⟩, Iff.rfl⟩

theorem denotes_range {first last : ℤ} (h : first ≤ last) :
    Denotes [first, last] (range first (last + 1)) := by
  refine ⟨fun n hn => ?_, fun x hx => ?_, ?_⟩
  · rw [mem_range]
    rcases List.mem_cons.mp hn with rfl | hn
    · omega
    · rw [List.mem_singleton.mp hn]
      omega
  · have hbounds := mem_range.mp hx
    exact ⟨first, List.mem_cons_self, last, List.mem_cons_of_mem _ List.mem_cons_self, hbounds.1,
      by omega⟩
  · refine iff_of_true ((range_ascending _ _).imp Int.le_of_lt) ?_
    exact List.pairwise_pair.mpr h

theorem readInt_ok {text : Text} {n : ℤ} (h : readInt unicode text = .ok n) :
    int unicode text = some n := by
  unfold readInt at h
  cases hint : int unicode text with
  | some value =>
    rw [hint] at h
    rw [Except.ok.inj h]
  | none =>
    rw [hint] at h
    cases h

theorem mapM_readInt_ok {texts : List Text} {numbers : List ℤ}
    (h : texts.mapM (readInt unicode) = .ok numbers) : texts.filterMap (int unicode) = numbers := by
  induction texts generalizing numbers with
  | nil =>
    cases h
    rfl
  | cons text texts ih =>
    rw [List.mapM_cons] at h
    obtain ⟨n, hn, h⟩ := ok_of_bind h
    obtain ⟨rest, hrest, h⟩ := ok_of_bind h
    cases h
    rw [List.filterMap_cons, readInt_ok hn, ih hrest]

/-- The numbers written in a range denote the layers that it lists. -/
theorem listedLayers_ok {raw : Text} {layers : List ℤ} (h : listedLayers unicode raw = .ok layers) :
    Denotes ((numberTexts unicode raw).filterMap (int unicode)) layers := by
  unfold listedLayers at h
  unfold numberTexts
  by_cases hdash : '-' ∈ raw
  · rw [if_pos hdash] at h ⊢
    obtain ⟨first, hfirst, h⟩ := ok_of_bind h
    obtain ⟨last, hlast, h⟩ := ok_of_bind h
    by_cases hdecreasing : last < first
    · rw [if_pos hdecreasing] at h
      cases h
    · rw [if_neg hdecreasing] at h
      rw [← Except.ok.inj h, List.filterMap_cons, readInt_ok hfirst, List.filterMap_cons,
        readInt_ok hlast, List.filterMap_nil]
      exact denotes_range (not_lt.mp hdecreasing)
  · rw [if_neg hdash] at h ⊢
    rw [mapM_readInt_ok h]
    exact denotes_self layers

/-- A range that is read has layers, and the numbers written in it denote them. -/
theorem rangeLayers_ok {raw : Text} {layers : List ℤ}
    (h : rangeLayers unicode (strip unicode raw) = .ok layers) :
    layers ≠ [] ∧ Denotes (writtenNumbers unicode raw) layers := by
  unfold rangeLayers at h
  by_cases hempty : strip unicode raw = []
  · rw [if_pos hempty] at h
    cases h
  · rw [if_neg hempty] at h
    obtain ⟨listed, hlisted, h⟩ := ok_of_bind h
    by_cases hnone : listed = []
    · rw [if_pos hnone] at h
      cases h
    · rw [if_neg hnone] at h
      rw [← Except.ok.inj h]
      exact ⟨hnone, listedLayers_ok hlisted⟩

/-- Ranges are ascending together exactly when the numbers written in them are. -/
theorem flatten_ascending_iff {raws : List Text} {parsed : List (List ℤ)}
    (h : List.Forall₂ (fun raw layers => Denotes (writtenNumbers unicode raw) layers) raws parsed) :
    parsed.flatten.Pairwise (· ≤ ·) ↔
      (raws.flatMap (writtenNumbers unicode)).Pairwise (· ≤ ·) := by
  -- every layer lies between two written numbers, on either side
  have hall : ∀ {raws : List Text} {parsed : List (List ℤ)},
      List.Forall₂ (fun raw layers => Denotes (writtenNumbers unicode raw) layers) raws parsed →
        (∀ n ∈ raws.flatMap (writtenNumbers unicode), n ∈ parsed.flatten) ∧
        ∀ x ∈ parsed.flatten, ∃ low ∈ raws.flatMap (writtenNumbers unicode), low ≤ x := by
    intro raws parsed h
    induction h with
    | nil => exact ⟨fun n hn => hn, fun x hx => absurd hx List.not_mem_nil⟩
    | @cons raw layers raws parsed hfirst _ ih =>
      rw [List.flatMap_cons, List.flatten_cons]
      refine ⟨fun n hn => ?_, fun x hx => ?_⟩
      · rcases List.mem_append.mp hn with hn | hn
        · exact List.mem_append_left _ (hfirst.sub n hn)
        · exact List.mem_append_right _ (ih.1 n hn)
      · rcases List.mem_append.mp hx with hx | hx
        · obtain ⟨low, hlow, -, -, hle, -⟩ := hfirst.between x hx
          exact ⟨low, List.mem_append_left _ hlow, hle⟩
        · obtain ⟨low, hlow, hle⟩ := ih.2 x hx
          exact ⟨low, List.mem_append_right _ hlow, hle⟩
  induction h with
  | nil => exact Iff.rfl
  | @cons raw layers raws parsed hfirst hrest ih =>
    rw [List.flatMap_cons, List.flatten_cons, List.pairwise_append, List.pairwise_append]
    refine and_congr hfirst.ascending
      (and_congr ih ⟨fun h n hn m hm => ?_, fun h x hx y hy => ?_⟩)
    · exact h n (hfirst.sub n hn) m ((hall hrest).1 m hm)
    · obtain ⟨-, -, high, hhigh, -, hx⟩ := hfirst.between x hx
      obtain ⟨low, hlow, hy⟩ := (hall hrest).2 y hy
      exact hx.trans ((h high hhigh low hlow).trans hy)

end Checks

section Balanced

variable {base remainder : ℤ}

theorem range_ne_nil {first last : ℤ} (h : first < last) : range first last ≠ [] :=
  List.ne_nil_of_mem (mem_range.mpr ⟨le_refl first, h⟩)

/-- A balanced split goes on where it has stopped. -/
theorem balancedFrom_flatten (hbase : 0 ≤ base) (stages : ℕ) (stageIdx cursor : ℤ) :
    (balancedFrom base remainder stages stageIdx cursor).flatten =
      range cursor (cursor + stages * base +
        (min (stageIdx + stages) remainder - min stageIdx remainder)) := by
  induction stages generalizing stageIdx cursor with
  | zero =>
    have hempty : cursor + (0 : ℕ) * base +
        (min (stageIdx + (0 : ℕ)) remainder - min stageIdx remainder) = cursor := by
      rw [Nat.cast_zero, zero_mul]
      omega
    rw [hempty, range, sub_self]
    rfl
  | succ stages ih =>
    have hproduct : ((stages + 1 : ℕ) : ℤ) * base = stages * base + base := by
      push_cast
      ring
    have hpositive : 0 ≤ (stages : ℤ) * base :=
      Int.mul_nonneg (Int.natCast_nonneg stages) hbase
    rw [balancedFrom, List.flatten_cons, ih, hproduct]
    by_cases hextra : stageIdx < remainder
    · rw [if_pos hextra, range_append (by omega) (by omega)]
      congr 1
      omega
    · rw [if_neg hextra, range_append (by omega) (by omega)]
      congr 1
      omega

theorem balancedFrom_length (stages : ℕ) (stageIdx cursor : ℤ) :
    (balancedFrom base remainder stages stageIdx cursor).length = stages := by
  induction stages generalizing stageIdx cursor with
  | zero => rfl
  | succ stages ih => rw [balancedFrom, List.length_cons, ih]

theorem balancedFrom_ne_nil (hbase : 1 ≤ base) (stages : ℕ) (stageIdx cursor : ℤ) :
    ∀ layers ∈ balancedFrom base remainder stages stageIdx cursor, layers ≠ [] := by
  induction stages generalizing stageIdx cursor with
  | zero => exact fun layers hlayers => absurd hlayers List.not_mem_nil
  | succ stages ih =>
    intro layers hlayers
    rw [balancedFrom] at hlayers
    rcases List.mem_cons.mp hlayers with rfl | hlayers
    · refine range_ne_nil ?_
      split <;> omega
    · exact ih _ _ layers hlayers

/-- A balanced split covers the model in order. -/
theorem buildBalancedLayerRanges_ok {numLayers numStages : ℤ} {ranges : List (List ℤ)}
    (h : buildBalancedLayerRanges numLayers numStages = .ok ranges) :
    (∀ layers ∈ ranges, layers ≠ []) ∧ (ranges.length : ℤ) = numStages ∧
      ranges.flatten = range 0 numLayers := by
  unfold buildBalancedLayerRanges at h
  by_cases hstages : numStages ≤ 0
  · rw [if_pos hstages] at h
    cases h
  by_cases hlayers : numLayers ≤ 0
  · rw [if_neg hstages, if_pos hlayers] at h
    cases h
  by_cases hmore : numLayers < numStages
  · rw [if_neg hstages, if_neg hlayers, if_pos hmore] at h
    cases h
  rw [if_neg hstages, if_neg hlayers, if_neg hmore] at h
  have hpos : 0 < numStages := by omega
  have hbase : 1 ≤ numLayers / numStages := (Int.le_ediv_iff_mul_le hpos).mpr (by omega)
  have hrest := Int.emod_nonneg numLayers hpos.ne'
  have hlt := Int.emod_lt_of_pos numLayers hpos
  have hdivision := Int.mul_ediv_add_emod numLayers numStages
  rw [← Except.ok.inj h]
  refine ⟨balancedFrom_ne_nil hbase _ _ _, ?_, ?_⟩
  · rw [balancedFrom_length]
    omega
  · rw [balancedFrom_flatten (by omega)]
    have hcount : ((numStages.toNat : ℕ) : ℤ) = numStages := by omega
    rw [hcount]
    congr 1
    omega

end Balanced

section Results

variable {unicode : UnicodeTables} {numLayers numStages : ℤ} {layerRanges : Option (List Text)}

/-- The ranges of a plan: one for each stage, none of them empty, in order exactly
when they are written so. -/
theorem planRanges_ok {ranges : List (List ℤ)}
    (h : planRanges unicode numLayers numStages layerRanges = .ok ranges) :
    (∀ layers ∈ ranges, layers ≠ []) ∧ (ranges.length : ℤ) = numStages ∧
      (ranges.flatten = range 0 numLayers ↔ WrittenInOrder unicode layerRanges) := by
  have hbalanced : (layerRanges.getD [] = []) →
      buildBalancedLayerRanges numLayers numStages = .ok ranges →
        (∀ layers ∈ ranges, layers ≠ []) ∧ (ranges.length : ℤ) = numStages ∧
          (ranges.flatten = range 0 numLayers ↔ WrittenInOrder unicode layerRanges) := by
    intro hnone hbuild
    obtain ⟨hne, hlength, hflatten⟩ := buildBalancedLayerRanges_ok hbuild
    refine ⟨hne, hlength, iff_of_true hflatten ?_⟩
    rw [WrittenInOrder, hnone]
    exact List.Pairwise.nil
  match layerRanges, h, hbalanced with
  | none, h, hbalanced => exact hbalanced rfl h
  | some [], h, hbalanced => exact hbalanced rfl h
  | some (raw :: raws), h, _ =>
    obtain ⟨read, hread, h⟩ := ok_of_bind h
    by_cases hcount : (read.length : ℤ) ≠ numStages
    · rw [if_pos hcount] at h
      cases h
    · rw [if_neg hcount] at h
      obtain rfl : read = ranges := Except.ok.inj h
      obtain ⟨hforall, hnodup, hmem⟩ := parseLayerRanges_ok hread
      have hdenotes := hforall.imp fun raw layers hlayers => rangeLayers_ok hlayers
      refine ⟨((List.forall₂_and_left _ _).mp hdenotes.flip).1, not_not.mp hcount, ?_⟩
      rw [eq_range_iff hnodup hmem]
      exact flatten_ascending_iff (hdenotes.imp fun raw layers hlayers => hlayers.2)

theorem stages_layers (outputDir : String) (ranges : List (List ℤ)) :
    (ranges.mapIdx (stageSpec outputDir numStages)).flatMap StageSpec.layerIndices =
      ranges.flatten := by
  have hsame : (ranges.mapIdx (stageSpec outputDir numStages)).map StageSpec.layerIndices = ranges :=
    List.ext_getElem (by rw [List.length_map, List.length_mapIdx]) fun i hi hi' => by
      rw [List.getElem_map, List.getElem_mapIdx]
      rfl
  rw [List.flatMap_def, hsame]

/-- Stages that hold all layers in order start and end where they should. -/
theorem isPipeline_iff {plan : ModelSplitPlan} {ranges : List (List ℤ)}
    (hne : ∀ layers ∈ ranges, layers ≠ []) (hlength : (ranges.length : ℤ) = plan.numStages)
    (hstages : plan.stages = ranges.mapIdx (stageSpec plan.outputDir plan.numStages)) :
    IsPipeline plan ↔ ranges.flatten = range 0 plan.numLayers := by
  have hlayers : plan.stages.flatMap StageSpec.layerIndices = ranges.flatten := by
    rw [hstages, stages_layers]
  refine ⟨fun h => hlayers.symm.trans h.layers, fun h => ?_⟩
  have hpositive : ∀ i (hi : i < ranges.length), 0 < plan.numLayers := by
    intro i hi
    obtain ⟨x, hx⟩ := List.exists_mem_of_ne_nil _ (hne _ (List.getElem_mem hi))
    have hmem : x ∈ range 0 plan.numLayers := h ▸ List.mem_flatten.mpr ⟨_, List.getElem_mem hi, hx⟩
    have hbounds := mem_range.mp hmem
    omega
  have hlast : ∀ i (hi : i < ranges.length), ((i : ℤ) + 1 == plan.numStages) = true →
      ranges[i].getLast? = some (plan.numLayers - 1) := by
    intro i hi hlastStage
    have hindex : i + 1 = ranges.length := by
      rw [beq_iff_eq] at hlastStage
      omega
    have hsplit : ranges.take i ++ [ranges[i]] = ranges := by
      rw [List.take_concat_get' ranges i hi, hindex, List.take_length]
    have hflatten : (ranges.take i).flatten ++ ranges[i] = range 0 plan.numLayers := by
      rw [← h]
      conv_rhs => rw [← hsplit]
      rw [List.flatten_append, List.flatten_singleton]
    have hend := congrArg List.getLast? hflatten
    rw [List.getLast?_append_of_ne_nil _ (hne _ (List.getElem_mem hi))] at hend
    rw [hend]
    exact (range_ends (hpositive _ hi)).2
  refine ⟨hlayers.trans h, ?_, ?_, ?_⟩
  · intro stage hstage hfirst
    rw [hstages] at hstage
    obtain ⟨i, hi, rfl⟩ := List.mem_mapIdx.mp hstage
    obtain rfl : i = 0 := by
      have hindex : ((i : ℤ) + 1 == 1) = true := hfirst
      rw [beq_iff_eq] at hindex
      omega
    change ranges[0].head? = some 0
    obtain ⟨first, rest, rfl⟩ := List.exists_cons_of_length_pos hi
    have hhead := (range_ends (hpositive _ hi)).1
    rw [← h, List.flatten_cons, List.head?_append_of_ne_nil _ (hne first List.mem_cons_self)] at hhead
    exact hhead
  · intro stage hstage hnorm
    rw [hstages] at hstage
    obtain ⟨i, hi, rfl⟩ := List.mem_mapIdx.mp hstage
    exact hlast i hi hnorm
  · intro stage hstage hhead
    rw [hstages] at hstage
    obtain ⟨i, hi, rfl⟩ := List.mem_mapIdx.mp hstage
    exact hlast i hi hhead

/-- An accepted plan is a pipeline exactly when the numbers of its ranges are
written in order; without ranges it always is one. -/
theorem isPipeline_iff_writtenInOrder {modelId modelSource outputDir : String} {plan : ModelSplitPlan}
    (h : buildSplitPlan unicode modelId modelSource outputDir numLayers numStages layerRanges =
      .ok plan) : IsPipeline plan ↔ WrittenInOrder unicode layerRanges := by
  unfold buildSplitPlan at h
  obtain ⟨ranges, hranges, h⟩ := ok_of_bind h
  obtain ⟨hne, hlength, hiff⟩ := planRanges_ok hranges
  rw [← Except.ok.inj h]
  exact (isPipeline_iff hne hlength rfl).trans hiff

/-- The tables for ASCII texts. -/
def asciiTables : UnicodeTables where
  isSpace c := c == ' ' || ('\t' ≤ c && c ≤ '\r')
  decimal c := if '0' ≤ c ∧ c ≤ '9' then some (c.toNat - 48) else none

/-- The plan for four layers in two stages. -/
def fourLayerPlan (ranges : List String) : Except ValueError ModelSplitPlan :=
  buildSplitPlan asciiTables "m" "m" "out" 4 2 (some (ranges.map String.toList))

/-- Both notations in one plan. -/
theorem isPipeline_iff_mixed : ∃ plan, fourLayerPlan ["0-1", "2, 3"] = .ok plan ∧
    (IsPipeline plan ↔
      WrittenInOrder asciiTables (some (["0-1", "2, 3"].map String.toList))) :=
  ⟨_, rfl, isPipeline_iff_writtenInOrder (show fourLayerPlan ["0-1", "2, 3"] = _ from rfl)⟩

/-- The last two layers come first, and the plan is accepted. -/
theorem swapped_ranges_accepted : ∃ plan, fourLayerPlan ["2-3", "0-1"] = .ok plan ∧
    plan.stages.flatMap StageSpec.layerIndices = [2, 3, 0, 1] ∧ ¬IsPipeline plan := by
  refine ⟨_, rfl, rfl, fun h => ?_⟩
  have hlayers := h.layers
  exact absurd (show ([2, 3, 0, 1] : List ℤ) = [0, 1, 2, 3] from hlayers) (by decide)

end Results

end LayerInference.LayerRanges
