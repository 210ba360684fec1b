import LayerInference.JsonFields
import LayerInference.TensorPlans

/-!
# Partition manifests

A manifest is written as one JSON object and read back by a small parser that
looks for the first occurrence of each quoted key and for the next colon. A
string that ends with a key can lead this search astray. It then finds a value
of the wrong kind, so what is read without an error is what was written.
-/

namespace LayerInference.ManifestTexts

open ByteStrings FallibleRuns PartitionRouting PartitionGraph TextStreams JsonText QuotedTexts
  JsonFields TensorPlans

/-- All that the stage map says about a partition. -/
structure PartitionEntry extends PartitionNodeConfig where
  stageId : ℤ := 0
  physicalNode : Bytes := []
  partitionFile : Bytes := []
  nativePartitionFile : Bytes := []
  backend : Bytes := []
  deriving DecidableEq

section Writing

def intVectorJson (values : List ℤ) : Bytes := 91 :: (joinInts values ++ [93])

def stringVectorJson (values : List Bytes) : Bytes := 91 :: (joinFields (values.map quoted) ++ [93])

def componentsJson (components : PartitionComponents) : Bytes :=
  jsonObject
    [jsonField (ascii "embedding") (boolText components.embedding),
      jsonField (ascii "layers") (intVectorJson components.layers),
      jsonField (ascii "norm") (boolText components.norm),
      jsonField (ascii "lm_head") (boolText components.lmHead)]

def partitionManifestJson (partition : PartitionEntry) (assignment : PartitionTensorAssignment) :
    Bytes :=
  jsonObject
    [jsonField (ascii "partition_id") (quoted partition.partitionId),
      jsonField (ascii "stage_id") (decimal partition.stageId),
      jsonField (ascii "service_name") (quoted partition.serviceName),
      jsonField (ascii "physical_node") (quoted partition.physicalNode),
      jsonField (ascii "partition_file") (quoted partition.partitionFile),
      jsonField (ascii "next_stage_url") (quoted partition.nextStageUrl),
      jsonField (ascii "components") (componentsJson partition.components),
      jsonField (ascii "tensor_count") (decimalNat assignment.tensorNames.length),
      jsonField (ascii "missing_required_names") (stringVectorJson assignment.missingRequiredNames),
      jsonField (ascii "missing_required_prefixes")
        (stringVectorJson assignment.missingRequiredPrefixes),
      jsonField (ascii "tensor_names") (stringVectorJson assignment.tensorNames)]

end Writing

section Reading

/-- The value behind the next colon. -/
def valueBehind (text : Bytes) : Option Bytes :=
  match text.dropWhile (· ≠ 58) with
  | [] => none
  | _ :: value => some (skipSpaces value)

/-- The text from the value of a key on. -/
def findKey (json key : Bytes) : Except Bytes Bytes :=
  match searchKey key some json with
  | none => .error (ascii "manifest missing key: " ++ key)
  | some behind =>
    match valueBehind behind with
    | none => .error (ascii "manifest key has no value: " ++ key)
    | some value => .ok value

/-- The byte that an escape stands for. -/
def unescapeByte (esc : UInt8) : Option UInt8 :=
  if esc = 34 then some 34
  else if esc = 92 then some 92
  else if esc = 47 then some 47
  else if esc = 98 then some 8
  else if esc = 102 then some 12
  else if esc = 110 then some 10
  else if esc = 114 then some 13
  else if esc = 116 then some 9
  else none

/-- A string behind its opening quote, and what follows it. -/
def stringRest : Bytes → Except Bytes (Bytes × Bytes)
  | [] => .error (ascii "unterminated JSON string")
  | c :: rest =>
    if c = 34 then .ok ([], rest)
    else if c = 92 then
      match rest with
      | [] => .error (ascii "unterminated JSON escape sequence")
      | esc :: rest =>
        match unescapeByte esc with
        | none => .error (ascii "unsupported JSON escape sequence")
        | some b => (stringRest rest).map fun (value, after) => (b :: value, after)
    else (stringRest rest).map fun (value, after) => (c :: value, after)

theorem stringRest_quote (rest : Bytes) : stringRest (34 :: rest) = .ok ([], rest) := by
  rw [stringRest.eq_def]
  rfl

theorem stringRest_escape {esc b : UInt8} (h : unescapeByte esc = some b) (rest : Bytes) :
    stringRest (92 :: esc :: rest) =
      (stringRest rest).map fun (value, after) => (b :: value, after) := by
  rw [stringRest.eq_def]
  dsimp only
  rw [if_neg (by decide), if_pos rfl, h]

theorem stringRest_plain {c : UInt8} (hquote : c ≠ 34) (hslash : c ≠ 92) (rest : Bytes) :
    stringRest (c :: rest) = (stringRest rest).map fun (value, after) => (c :: value, after) := by
  rw [stringRest.eq_def]
  dsimp only
  rw [if_neg hquote, if_neg hslash]

def parseJsonStringAt (text : Bytes) : Except Bytes (Bytes × Bytes) :=
  match skipSpaces text with
  | 34 :: rest => stringRest rest
  | _ => .error (ascii "expected JSON string")

def parseJsonStringValue (json key : Bytes) : Except Bytes Bytes :=
  match findKey json key with
  | .error e => .error e
  | .ok value => (parseJsonStringAt value).map Prod.fst

/-- The number at the start of a text, if it has a sign or a digit, and the
rest. The number is out of range where `std::stoi` throws. -/
def integerAt (text : Bytes) : Option (Option ℤ × Bytes) :=
  let (sign, digits) : Bytes × Bytes := match text with
    | 45 :: rest => ([45], rest)
    | _ => ([], text)
  let number := sign ++ digits.takeWhile isDigit
  if number = [] then none else some (stoi number, digits.dropWhile isDigit)

def parseJsonIntValue (json key : Bytes) : Except Bytes ℤ := do
  match integerAt (← findKey json key) with
  | none => .error (ascii "expected integer value for key: " ++ key)
  | some (none, _) => .error (ascii "stoi")
  | some (some number, _) => .ok number

def parseJsonBoolValue (json key : Bytes) : Except Bytes Bool := do
  let value ← findKey json key
  if (ascii "true").isPrefixOf value then .ok true
  else if (ascii "false").isPrefixOf value then .ok false
  else .error (ascii "expected boolean value for key: " ++ key)

/-- The items of an array behind its opening bracket. Each round of the loop
takes a byte, so `fuel` is not used up while it exceeds the length. -/
def arrayItems {α : Type} (kind : Bytes) (item : Bytes → Except Bytes (α × Bytes))
    (key : Bytes) : ℕ → Bytes → Except Bytes (List α)
  | 0, _ => .error []
  | fuel + 1, text =>
    match skipSpaces text with
    | [] => .error (ascii "unterminated " ++ kind ++ ascii " array for key: " ++ key)
    | b :: rest =>
      if b = 93 then .ok []
      else
        match item (b :: rest) with
        | .error e => .error e
        | .ok (value, rest) =>
          match skipSpaces rest with
          | 44 :: rest => (arrayItems kind item key fuel rest).map (value :: ·)
          | 93 :: _ => .ok [value]
          | _ => .error (ascii "expected ',' or ']' in " ++ kind ++ ascii " array for key: " ++ key)

def parseJsonArrayValue {α : Type} (kind : Bytes) (item : Bytes → Except Bytes (α × Bytes))
    (json key : Bytes) : Except Bytes (List α) :=
  match findKey json key with
  | .error e => .error e
  | .ok (91 :: rest) => arrayItems kind item key (rest.length + 1) rest
  | .ok _ => .error (ascii "expected " ++ kind ++ ascii " array for key: " ++ key)

def parseJsonStringArrayValue (json key : Bytes) : Except Bytes (List Bytes) :=
  parseJsonArrayValue (ascii "string") parseJsonStringAt json key

def integerItem (key text : Bytes) : Except Bytes (ℤ × Bytes) :=
  match integerAt text with
  | none => .error (ascii "expected integer item in array for key: " ++ key)
  | some (none, _) => .error (ascii "stoi")
  | some (some value, rest) => .ok (value, rest)

def parseJsonIntArrayValue (json key : Bytes) : Except Bytes (List ℤ) :=
  parseJsonArrayValue (ascii "integer") (integerItem key) json key

structure PartitionManifest where
  partitionId : Bytes
  stageId : ℤ
  serviceName : Bytes
  physicalNode : Bytes
  partitionFile : Bytes
  nextStageUrl : Bytes
  ownsEmbedding : Bool
  ownsNorm : Bool
  ownsLmHead : Bool
  layers : List ℤ
  tensorNames : List Bytes

def parsePartitionManifestText (json : Bytes) : Except Bytes PartitionManifest := do
  let partitionId ← parseJsonStringValue json (ascii "partition_id")
  let stageId ← parseJsonIntValue json (ascii "stage_id")
  let serviceName ← parseJsonStringValue json (ascii "service_name")
  let physicalNode ← parseJsonStringValue json (ascii "physical_node")
  let partitionFile ← parseJsonStringValue json (ascii "partition_file")
  let nextStageUrl ← parseJsonStringValue json (ascii "next_stage_url")
  let ownsEmbedding ← parseJsonBoolValue json (ascii "embedding")
  let ownsNorm ← parseJsonBoolValue json (ascii "norm")
  let ownsLmHead ← parseJsonBoolValue json (ascii "lm_head")
  let layers ← parseJsonIntArrayValue json (ascii "layers")
  let tensorNames ← parseJsonStringArrayValue json (ascii "tensor_names")
  if partitionId.isEmpty then .error (ascii "manifest partition_id is empty")
  else if stageId ≤ 0 then .error (ascii "manifest stage_id must be positive")
  else
    .ok
      { partitionId := partitionId
        stageId := stageId
        serviceName := serviceName
        physicalNode := physicalNode
        partitionFile := partitionFile
        nextStageUrl := nextStageUrl
        ownsEmbedding := ownsEmbedding
        ownsNorm := ownsNorm
        ownsLmHead := ownsLmHead
        layers := layers
        tensorNames := tensorNames }

theorem skipSpaces_length_le (text : Bytes) : (skipSpaces text).length ≤ text.length :=
  (List.dropWhile_suffix isSpace).length_le

/-- With an item parser that takes a byte the loop ends before its fuel does. -/
theorem arrayItems_fuel {α : Type} {kind key : Bytes} {item : Bytes → Except Bytes (α × Bytes)}
    (hitem : ∀ text value rest, item text = .ok (value, rest) → rest.length < text.length)
    {fuel fuel' : ℕ} {text : Bytes} (h : text.length < fuel) (h' : text.length < fuel') :
    arrayItems kind item key fuel text = arrayItems kind item key fuel' text := by
  induction fuel generalizing fuel' text with
  | zero => exact absurd h (Nat.not_lt_zero _)
  | succ fuel ih =>
    cases fuel' with
    | zero => exact absurd h' (Nat.not_lt_zero _)
    | succ fuel' =>
      have hskip := skipSpaces_length_le text
      rw [arrayItems, arrayItems]
      cases hspaces : skipSpaces text with
      | nil => rfl
      | cons b rest =>
        dsimp only
        by_cases hend : b = 93
        · rw [if_pos hend, if_pos hend]
        rw [if_neg hend, if_neg hend]
        cases hfirst : item (b :: rest) with
        | error e => rfl
        | ok found =>
          obtain ⟨value, after⟩ := found
          dsimp only
          have hshort := hitem _ _ _ hfirst
          have hafter := skipSpaces_length_le after
          rw [← hspaces] at hshort
          split
          · next tail heq =>
            rw [heq, List.length_cons] at hafter
            have hnext : tail.length < fuel ∧ tail.length < fuel' := by omega
            rw [ih hnext.1 hnext.2]
          · rfl
          · rfl

theorem stringRest_length {text value rest : Bytes} (h : stringRest text = .ok (value, rest)) :
    rest.length < text.length := by
  fun_induction stringRest text generalizing value with
  | case1 => cases h
  | case2 tail =>
    cases h
    exact Nat.lt_succ_self _
  | case3 => cases h
  | case4 => cases h
  | case5 hquote tail esc b hesc ih =>
    cases hrest : stringRest tail with
    | error e =>
      rw [hrest] at h
      cases h
    | ok found =>
      obtain ⟨inner, after⟩ := found
      rw [hrest] at h
      cases h
      have hlt := ih hrest
      simp only [List.length_cons]
      omega
  | case6 c tail hquote hslash ih =>
    cases hrest : stringRest tail with
    | error e =>
      rw [hrest] at h
      cases h
    | ok found =>
      obtain ⟨inner, after⟩ := found
      rw [hrest] at h
      cases h
      have hlt := ih hrest
      rw [List.length_cons]
      omega

theorem parseJsonStringAt_length (text value rest : Bytes)
    (h : parseJsonStringAt text = .ok (value, rest)) : rest.length < text.length := by
  have hskip := skipSpaces_length_le text
  unfold parseJsonStringAt at h
  split at h
  · next inner heq =>
    have hlt := stringRest_length h
    rw [heq, List.length_cons] at hskip
    omega
  · cases h

theorem integerItem_length (key text : Bytes) (value : ℤ) (rest : Bytes)
    (h : integerItem key text = .ok (value, rest)) : rest.length < text.length := by
  have hsplit (digits : Bytes) : (digits.takeWhile isDigit).length +
      (digits.dropWhile isDigit).length = digits.length := by
    rw [← List.length_append, List.takeWhile_append_dropWhile]
  unfold integerItem at h
  cases hat : integerAt text with
  | none =>
    rw [hat] at h
    cases h
  | some found =>
    obtain ⟨number, after⟩ := found
    rw [hat] at h
    cases number with
    | none => cases h
    | some number =>
      cases h
      unfold integerAt at hat
      split at hat
      next sign digits heq =>
        dsimp only at hat
        split at hat
        · cases hat
        · next hne =>
          have hrest := (Prod.mk.inj (Option.some.inj hat)).2
          have hdigits := hsplit digits
          rw [hrest] at hdigits
          have hpos : 0 < (sign ++ digits.takeWhile isDigit).length :=
            List.length_pos_iff.mpr hne
          rw [List.length_append] at hpos
          split at heq
          · cases heq
            rw [List.length_cons]
            omega
          · cases heq
            rw [List.length_nil] at hpos
            omega

end Reading

section RoundTrip

/-- A byte that comes back: the escapes of other control bytes are not read. -/
def isReadable (b : UInt8) : Bool :=
  0x20 ≤ b || b == 8 || b == 9 || b == 10 || b == 12 || b == 13

/-- A string of such bytes. -/
def Readable (text : Bytes) : Prop := ∀ b ∈ text, isReadable b = true

instance (text : Bytes) : Decidable (Readable text) :=
  inferInstanceAs (Decidable (∀ b ∈ text, isReadable b = true))

def unsupportedEscape : Bytes := ascii "unsupported JSON escape sequence"

/-- Reading one escaped byte. -/
theorem stringRest_escapeByte (c : UInt8) (tail : Bytes) :
    stringRest (jsonEscapeByte c ++ tail) =
      if isReadable c = true then
        (stringRest tail).map fun (value, after) => (c :: value, after)
      else .error unsupportedEscape := by
  have hescape : ∀ esc b : UInt8, unescapeByte esc = some b → isReadable b = true →
      stringRest (92 :: esc :: tail) =
        if isReadable b = true then
          (stringRest tail).map fun (value, after) => (b :: value, after)
        else .error unsupportedEscape := by
    intro esc b hesc hread
    rw [if_pos hread, stringRest_escape hesc]
  unfold jsonEscapeByte
  by_cases hquote : c = 34
  · rw [if_pos hquote, hquote]
    exact hescape 34 34 rfl rfl
  rw [if_neg hquote]
  by_cases hslash : c = 92
  · rw [if_pos hslash, hslash]
    exact hescape 92 92 rfl rfl
  rw [if_neg hslash]
  by_cases hback : c = 8
  · rw [if_pos hback, hback]
    exact hescape 98 8 rfl rfl
  rw [if_neg hback]
  by_cases hfeed : c = 12
  · rw [if_pos hfeed, hfeed]
    exact hescape 102 12 rfl rfl
  rw [if_neg hfeed]
  by_cases hline : c = 10
  · rw [if_pos hline, hline]
    exact hescape 110 10 rfl rfl
  rw [if_neg hline]
  by_cases hreturn : c = 13
  · rw [if_pos hreturn, hreturn]
    exact hescape 114 13 rfl rfl
  rw [if_neg hreturn]
  by_cases htab : c = 9
  · rw [if_pos htab, htab]
    exact hescape 116 9 rfl rfl
  rw [if_neg htab]
  by_cases hcontrol : c < 0x20
  · have hread : ¬isReadable c = true := by
      unfold isReadable
      simp only [Bool.or_eq_true, decide_eq_true_eq, beq_iff_eq, hback, hfeed, hline, hreturn,
        htab, or_false, UInt8.not_le]
      exact hcontrol
    rw [if_pos hcontrol, if_neg hread]
    rfl
  · have hread : isReadable c = true := by
      unfold isReadable
      simp only [Bool.or_eq_true, decide_eq_true_eq, UInt8.not_lt.mp hcontrol, true_or]
    rw [if_neg hcontrol, if_pos hread, List.singleton_append, stringRest_plain hquote hslash]

/-- An escaped string gives the string, if all its bytes come back. -/
theorem stringRest_jsonEscape (text rest : Bytes) :
    stringRest (jsonEscape text ++ 34 :: rest) =
      if Readable text then .ok (text, rest) else .error unsupportedEscape := by
  induction text with
  | nil =>
    rw [if_pos (show Readable [] from fun b hb => absurd hb List.not_mem_nil)]
    exact stringRest_quote rest
  | cons c text ih =>
    have hcons : Readable (c :: text) ↔ isReadable c = true ∧ Readable text := List.forall_mem_cons
    rw [jsonEscape_cons, List.append_assoc, stringRest_escapeByte, ih]
    by_cases hbyte : isReadable c = true
    · rw [if_pos hbyte]
      by_cases htext : Readable text
      · rw [if_pos htext, if_pos (hcons.mpr ⟨hbyte, htext⟩)]
        rfl
      · rw [if_neg htext, if_neg (fun h => htext (hcons.mp h).2)]
        rfl
    · rw [if_neg hbyte, if_neg (fun h => hbyte (hcons.mp h).1)]

theorem parseJsonStringAt_quoted (text rest : Bytes) :
    parseJsonStringAt (quoted text ++ rest) =
      if Readable text then .ok (text, rest) else .error unsupportedEscape := by
  have hquoted : quoted text ++ rest = 34 :: (jsonEscape text ++ 34 :: rest) := by
    unfold quoted
    rw [List.cons_append, List.append_assoc]
    rfl
  rw [hquoted]
  exact stringRest_jsonEscape text rest

/-- Joined texts that are not empty have a byte each. -/
theorem length_le_intercalate {fields : List Bytes} (h : ∀ field ∈ fields, field ≠ []) :
    fields.length ≤ ([44].intercalate fields).length := by
  induction fields with
  | nil => exact Nat.zero_le _
  | cons field fields ih =>
    have hpos := List.length_pos_iff.mpr (h field List.mem_cons_self)
    have hrest := ih fun other hother => h other (List.mem_cons_of_mem field hother)
    cases fields with
    | nil =>
      rw [List.intercalate_singleton]
      exact hpos
    | cons next fields =>
      rw [List.intercalate_cons_cons, List.length_append, List.length_append, List.length_cons]
      omega

theorem length_le_joinFields (texts : List Bytes) :
    texts.length ≤ (joinFields (texts.map quoted)).length := by
  have hne : ∀ field ∈ texts.map quoted, field ≠ [] := by
    intro field hfield
    obtain ⟨text, -, rfl⟩ := List.mem_map.mp hfield
    exact List.cons_ne_nil _ _
  have hle := length_le_intercalate hne
  rw [List.length_map] at hle
  exact hle

/-- An array of escaped strings gives the strings, if all their bytes come back. -/
theorem arrayItems_quoted {kind key rest : Bytes} {fuel : ℕ} {texts : List Bytes}
    (hfuel : texts.length < fuel) :
    arrayItems kind parseJsonStringAt key fuel (joinFields (texts.map quoted) ++ 93 :: rest) =
      if ∀ text ∈ texts, Readable text then .ok texts else .error unsupportedEscape := by
  induction fuel generalizing texts with
  | zero => exact absurd hfuel (Nat.not_lt_zero _)
  | succ fuel ih =>
    cases texts with
    | nil =>
      rw [if_pos (fun text htext => absurd htext List.not_mem_nil)]
      rfl
    | cons text texts =>
      obtain ⟨separator, tail, htail, hnext⟩ : ∃ separator tail,
          joinFields ((text :: texts).map quoted) ++ 93 :: rest =
            quoted text ++ separator :: tail ∧
          (separator = 93 ∧ texts = [] ∨
            separator = 44 ∧ tail = joinFields (texts.map quoted) ++ 93 :: rest) := by
        cases texts with
        | nil =>
          refine ⟨93, rest, ?_, Or.inl ⟨rfl, rfl⟩⟩
          rw [List.map_singleton, joinFields_single]
        | cons next texts =>
          refine ⟨44, _, ?_, Or.inr ⟨rfl, rfl⟩⟩
          rw [List.map_cons, List.map_cons, joinFields_cons, List.append_assoc]
          rfl
      have hcons : (∀ other ∈ text :: texts, Readable other) ↔
          Readable text ∧ ∀ other ∈ texts, Readable other := List.forall_mem_cons
      have hitem : parseJsonStringAt (34 :: (jsonEscape text ++ [34] ++ separator :: tail)) = _ :=
        parseJsonStringAt_quoted text (separator :: tail)
      have hspaces : skipSpaces (quoted text ++ separator :: tail) =
          34 :: (jsonEscape text ++ [34] ++ separator :: tail) := rfl
      rw [htail, arrayItems, hspaces]
      dsimp only
      rw [if_neg (by decide), hitem]
      by_cases htext : Readable text
      · rw [if_pos htext]
        dsimp only
        rcases hnext with ⟨rfl, rfl⟩ | ⟨rfl, rfl⟩
        · rw [if_pos (hcons.mpr ⟨htext, fun other hother => absurd hother List.not_mem_nil⟩)]
          rfl
        · have hrest := ih (Nat.lt_of_succ_lt_succ hfuel)
          have hmap : (arrayItems kind parseJsonStringAt key fuel
              (joinFields (texts.map quoted) ++ 93 :: rest)).map (text :: ·) =
              if ∀ other ∈ text :: texts, Readable other then .ok (text :: texts)
              else .error unsupportedEscape := by
            rw [hrest]
            by_cases hall : ∀ other ∈ texts, Readable other
            · rw [if_pos hall, if_pos (hcons.mpr ⟨htext, hall⟩)]
              rfl
            · rw [if_neg hall, if_neg (fun h => hall (hcons.mp h).2)]
              rfl
          exact hmap
      · rw [if_neg htext, if_neg (fun h => htext (hcons.mp h).1)]

variable {key : Bytes}

theorem findKey_congr {json json' : Bytes}
    (h : searchKey key some json = searchKey key some json') :
    findKey json key = findKey json' key := by
  unfold findKey
  rw [h]

theorem findKey_plain {plain : Bytes} (h : 34 ∉ plain) (rest : Bytes) :
    findKey (plain ++ rest) key = findKey rest key :=
  findKey_congr (searchKey_append h some rest)

theorem findKey_byte {b : UInt8} (h : b ≠ 34) (rest : Bytes) :
    findKey (b :: rest) key = findKey rest key :=
  findKey_plain (fun hmem => h (List.mem_singleton.mp hmem).symm) rest

theorem findKey_otherKey (hkey : IsName key) {other : Bytes} (hother : IsName other)
    (hne : other ≠ key) (rest : Bytes) : findKey (jsonField other rest) key = findKey rest key :=
  findKey_congr (searchKey_otherKey hkey hother hne some rest)

/-- The value of a key is what stands behind its colon. -/
theorem findKey_sameKey (hkey : IsName key) (rest : Bytes) :
    findKey (jsonField key rest) key = .ok (skipSpaces rest) := by
  unfold findKey
  rw [searchKey_sameKey hkey]
  rfl

/-- A string that a search takes for the key: it is the key, or ends with it
behind a quote. -/
def EndsWithKey (key text : Bytes) : Prop := text = key ∨ 34 :: key <:+ text

instance (key text : Bytes) : Decidable (EndsWithKey key text) :=
  inferInstanceAs (Decidable (text = key ∨ 34 :: key <:+ text))

theorem jsonEscape_eq_name {text : Bytes} (hkey : ∀ b ∈ key, isNameByte b = true) :
    jsonEscape text = key ↔ text = key := by
  have hbyte (c : UInt8) : jsonEscapeByte c = [c] ∨
      ((jsonEscapeByte c).head? = some 92 ∧ isNameByte c = false) := by
    have hall : ∀ n < 256, jsonEscapeByte (UInt8.ofNat n) = [UInt8.ofNat n] ∨
        ((jsonEscapeByte (UInt8.ofNat n)).head? = some 92 ∧
          isNameByte (UInt8.ofNat n) = false) := by decide +kernel
    have hc := hall c.toNat (UInt8.toNat_lt c)
    rwa [UInt8.ofNat_toNat] at hc
  induction text generalizing key with
  | nil => exact Iff.rfl
  | cons c text ih =>
    rw [jsonEscape_cons]
    rcases hbyte c with hplain | ⟨hescape, hname⟩
    · rw [hplain, List.singleton_append]
      cases key with
      | nil => exact iff_of_false (List.cons_ne_nil _ _) (List.cons_ne_nil _ _)
      | cons b key =>
        rw [List.cons.injEq, List.cons.injEq]
        exact and_congr Iff.rfl (ih fun d hd => hkey d (List.mem_cons_of_mem b hd))
    · refine iff_of_false ?_ ?_
      · intro h
        obtain ⟨tail, htail⟩ : ∃ tail, jsonEscapeByte c = 92 :: tail :=
          List.head?_eq_some_iff.mp hescape
        have hmem : (92 : UInt8) ∈ key := by
          rw [← h, htail]
          exact List.mem_cons_self
        exact (isNameByte_ne (hkey 92 hmem)).2.1 rfl
      · intro h
        have hc := hkey c (h ▸ List.mem_cons_self)
        rw [hname] at hc
        cases hc

/-- Escaping a text changes nothing behind its last quote that is a key. -/
theorem suffix_jsonEscape {text : Bytes} (hkey : ∀ b ∈ key, isNameByte b = true) :
    34 :: key <:+ jsonEscape text ↔ 34 :: key <:+ text := by
  have hskip {part : Bytes} (hpart : 34 ∉ part) (rest : Bytes) :
      34 :: key <:+ part ++ rest ↔ 34 :: key <:+ rest := by
    induction part with
    | nil => exact Iff.rfl
    | cons b part ih =>
      have hne : (34 : UInt8) ≠ b := fun h => hpart (h ▸ List.mem_cons_self)
      rw [List.cons_append, List.suffix_cons_iff, List.cons.injEq]
      exact (or_iff_right fun h => hne h.1).trans
        (ih fun hmem => hpart (List.mem_cons_of_mem b hmem))
  have hbyte (c : UInt8) : c = 34 ∨ (34 ∉ jsonEscapeByte c ∧ 34 ∉ [c]) := by
    have hall : ∀ n < 256, UInt8.ofNat n = 34 ∨
        (34 ∉ jsonEscapeByte (UInt8.ofNat n) ∧ 34 ∉ [UInt8.ofNat n]) := by decide +kernel
    have hc := hall c.toNat (UInt8.toNat_lt c)
    rwa [UInt8.ofNat_toNat] at hc
  induction text with
  | nil => exact Iff.rfl
  | cons c text ih =>
    rw [jsonEscape_cons]
    rcases hbyte c with rfl | ⟨hescaped, hplain⟩
    · have hquote : jsonEscapeByte 34 ++ jsonEscape text = [92] ++ 34 :: jsonEscape text := rfl
      have hname : key = jsonEscape text ↔ key = text := by
        rw [eq_comm, jsonEscape_eq_name hkey, eq_comm]
      rw [hquote, hskip (by decide), List.suffix_cons_iff, List.suffix_cons_iff, List.cons.injEq,
        List.cons.injEq]
      exact or_congr (and_congr Iff.rfl hname) ih
    · have htext := hskip hplain text
      rw [List.singleton_append] at htext
      rw [hskip hescaped, htext]
      exact ih

/-- A literal of an escaped text mentions a key as the text does. -/
theorem mentions_jsonEscape (hkey : IsName key) (text tail : Bytes) :
    Mentions key ⟨jsonEscape text, tail⟩ ↔ EndsWithKey key text :=
  or_congr (jsonEscape_eq_name hkey.bytes) (suffix_jsonEscape hkey.bytes)

/-- A string that ends with the key leads to the value of the next field. -/
theorem findKey_quoted (hkey : IsName key) (text : Bytes) {other : Bytes} (hother : IsName other)
    (value : Bytes) :
    findKey (quoted text ++ 44 :: jsonField other value) key =
      if EndsWithKey key text then .ok (skipSpaces value)
      else findKey (jsonField other value) key := by
  classical
  have hliteral := searchKey_literal hkey (stringLiteral_wellFormed text separator_comma) some
    (jsonField other value)
  have htext : (⟨jsonEscape text, [44]⟩ : Literal).text ++ jsonField other value =
      quoted text ++ 44 :: jsonField other value := by
    unfold Literal.text quoted
    rw [List.cons_append, List.cons_append, List.append_assoc, List.append_assoc]
    rfl
  have hmentions := mentions_jsonEscape hkey text [44]
  rw [htext] at hliteral
  by_cases hends : EndsWithKey key text
  · have hcolon : ∀ b ∈ 44 :: 34 :: (other ++ [34]), decide (b ≠ 58) = true := by
      intro b hb
      rw [List.mem_cons, List.mem_cons, List.mem_append, List.mem_singleton] at hb
      rw [decide_eq_true_eq]
      rcases hb with rfl | rfl | hb | rfl
      · decide
      · decide
      · exact (isNameByte_ne (hother.bytes b hb)).2.2
      · decide
    have hfield : 44 :: jsonField other value = (44 :: 34 :: (other ++ [34])) ++ 58 :: value := by
      unfold jsonField
      rw [List.cons_append, List.cons_append, List.append_assoc]
      rfl
    have hvalue : valueBehind (44 :: jsonField other value) = some (skipSpaces value) := by
      unfold valueBehind
      rw [hfield, List.dropWhile_append_of_pos hcolon]
      rfl
    have hfound : searchKey key some (quoted text ++ 44 :: jsonField other value) =
        some (44 :: jsonField other value) := by
      rw [if_pos (hmentions.mpr hends)] at hliteral
      exact hliteral
    unfold findKey
    rw [hfound, if_pos hends]
    dsimp only
    rw [hvalue]
  · rw [if_neg fun h => hends (hmentions.mp h)] at hliteral
    rw [if_neg hends]
    exact findKey_congr hliteral

theorem quote_not_mem_decimal (value : ℤ) : 34 ∉ decimal value := fun h => by
  rcases mem_decimal h with hminus | hdigit
  · cases hminus
  · cases hdigit

theorem quote_not_mem_decimalNat (n : ℕ) : 34 ∉ decimalNat n := fun h => by
  have hdigit := decimalNat_digits n 34 h
  cases hdigit

theorem quote_not_mem_boolText (value : Bool) : 34 ∉ boolText value := by
  cases value <;> decide

theorem quote_not_mem_joinInts (values : List ℤ) : 34 ∉ joinInts values := by
  unfold joinInts
  induction values with
  | nil => exact List.not_mem_nil
  | cons value values ih =>
    cases values with
    | nil =>
      rw [List.map_singleton, List.intercalate_singleton]
      exact quote_not_mem_decimal value
    | cons next values =>
      rw [List.map_cons, List.map_cons, List.intercalate_cons_cons]
      rw [List.map_cons] at ih
      rw [List.mem_append, List.mem_append, not_or, not_or]
      exact ⟨⟨quote_not_mem_decimal value, by decide⟩, ih⟩

theorem head_decimal (value : ℤ) (rest : Bytes) :
    (skipSpaces (decimal value ++ rest)).head? ≠ some 91 := by
  cases hdecimal : decimal value with
  | nil =>
    unfold decimal at hdecimal
    split at hdecimal
    · cases hdecimal
    · exact absurd hdecimal (decimalNat_ne_nil _)
  | cons b tail =>
    have hb : b = 45 ∨ isDigit b = true := mem_decimal (hdecimal ▸ List.mem_cons_self)
    have hspace : isSpace b = false := by
      rcases hb with rfl | hdigit
      · rfl
      · exact not_isSpace_of_isDigit hdigit
    unfold skipSpaces
    rw [List.cons_append, List.dropWhile_cons_of_neg (by rw [hspace]; exact Bool.false_ne_true),
      List.head?_cons]
    intro heq
    have hbracket := Option.some.inj heq
    subst hbracket
    rcases hb with hminus | hdigit
    · cases hminus
    · cases hdigit

theorem head_quoted (text rest : Bytes) : (skipSpaces (quoted text ++ rest)).head? ≠ some 91 :=
  (by decide : some (34 : UInt8) ≠ some 91)

theorem head_brace (rest : Bytes) : (skipSpaces (0x7b :: rest)).head? ≠ some 91 :=
  (by decide : some (0x7b : UInt8) ≠ some 91)

/-- The text of a manifest, each field in front of the rest. -/
theorem partitionManifestJson_eq (partition : PartitionEntry)
    (assignment : PartitionTensorAssignment) (rest : Bytes) :
    partitionManifestJson partition assignment ++ rest =
      0x7b :: jsonField (ascii "partition_id") (quoted partition.partitionId ++
      44 :: jsonField (ascii "stage_id") (decimal partition.stageId ++
      44 :: jsonField (ascii "service_name") (quoted partition.serviceName ++
      44 :: jsonField (ascii "physical_node") (quoted partition.physicalNode ++
      44 :: jsonField (ascii "partition_file") (quoted partition.partitionFile ++
      44 :: jsonField (ascii "next_stage_url") (quoted partition.nextStageUrl ++
      44 :: jsonField (ascii "components") (0x7b ::
        jsonField (ascii "embedding") (boolText partition.components.embedding ++
        44 :: jsonField (ascii "layers") (91 :: (joinInts partition.components.layers ++ 93 ::
        44 :: jsonField (ascii "norm") (boolText partition.components.norm ++
        44 :: jsonField (ascii "lm_head") (boolText partition.components.lmHead ++ 0x7d ::
      44 :: jsonField (ascii "tensor_count") (decimalNat assignment.tensorNames.length ++
      44 :: jsonField (ascii "missing_required_names")
        (stringVectorJson assignment.missingRequiredNames ++
      44 :: jsonField (ascii "missing_required_prefixes")
        (stringVectorJson assignment.missingRequiredPrefixes ++
      44 :: jsonField (ascii "tensor_names") (91 :: (joinFields (assignment.tensorNames.map quoted) ++
        93 :: 0x7d :: rest))))))))))))))))) := by
  unfold partitionManifestJson componentsJson
  simp only [jsonObject, joinFields_cons, joinFields_single, jsonField_append, intVectorJson,
    List.append_assoc, List.cons_append, List.nil_append]
  rw [stringVectorJson, stringVectorJson, stringVectorJson]
  simp only [List.append_assoc, List.cons_append, List.nil_append]

section Arrays

variable {α : Type} {kind : Bytes} {item : Bytes → Except Bytes (α × Bytes)}

theorem parseJsonArrayValue_congr {json json' : Bytes} (h : findKey json key = findKey json' key) :
    parseJsonArrayValue kind item json key = parseJsonArrayValue kind item json' key := by
  unfold parseJsonArrayValue
  rw [h]

/-- A field without quotes in its value is passed over. -/
theorem readArray_field (hkey : IsName key) {other : Bytes} (hother : IsName other)
    (hne : other ≠ key) {plain : Bytes} (hplain : 34 ∉ plain) (rest : Bytes) :
    parseJsonArrayValue kind item (jsonField other (plain ++ rest)) key =
      parseJsonArrayValue kind item rest key :=
  parseJsonArrayValue_congr ((findKey_otherKey hkey hother hne _).trans (findKey_plain hplain rest))

theorem readArray_byte {b : UInt8} (h : b ≠ 34) (rest : Bytes) :
    parseJsonArrayValue kind item (b :: rest) key = parseJsonArrayValue kind item rest key :=
  parseJsonArrayValue_congr (findKey_byte h rest)

/-- An array that is read in spite of a string before it is the right one. -/
theorem readArray_string {values : List α} (hkey : IsName key) {other text next value : Bytes}
    (hother : IsName other) (hne : other ≠ key) (hnext : IsName next)
    (hvalue : (skipSpaces value).head? ≠ some 91)
    (h : parseJsonArrayValue kind item (jsonField other (quoted text ++ 44 :: jsonField next value))
      key = .ok values) :
    parseJsonArrayValue kind item (jsonField next value) key = .ok values := by
  rw [parseJsonArrayValue_congr (findKey_otherKey hkey hother hne _)] at h
  unfold parseJsonArrayValue at h ⊢
  rw [findKey_quoted hkey text hnext value] at h
  by_cases hends : EndsWithKey key text
  · rw [if_pos hends] at h
    split at h
    · cases h
    · next rest heq =>
      rw [Except.ok.inj heq] at hvalue
      exact absurd rfl hvalue
    · cases h
  · rw [if_neg hends] at h
    exact h

end Arrays

/-- The tensor names that are read are those that were written. -/
theorem tensorNames_read {partition : PartitionEntry} {assignment : PartitionTensorAssignment}
    (hnames : assignment.missingRequiredNames = [])
    (hprefixes : assignment.missingRequiredPrefixes = []) {rest : Bytes} {names : List Bytes}
    (h : parseJsonStringArrayValue (partitionManifestJson partition assignment ++ rest)
      (ascii "tensor_names") = .ok names) : names = assignment.tensorNames := by
  have hkey : IsName (ascii "tensor_names") := by decide
  have hempty : stringVectorJson [] = [91, 93] := rfl
  rw [partitionManifestJson_eq, hnames, hprefixes, hempty] at h
  unfold parseJsonStringArrayValue at h
  rw [readArray_byte (by decide)] at h
  -- the strings, each with the value of the field behind it
  replace h := readArray_string hkey (by decide) (by decide) (by decide) (head_decimal _ _) h
  rw [readArray_field hkey (by decide) (by decide) (quote_not_mem_decimal _),
    readArray_byte (by decide)] at h
  replace h := readArray_string hkey (by decide) (by decide) (by decide) (head_quoted _ _) h
  replace h := readArray_string hkey (by decide) (by decide) (by decide) (head_quoted _ _) h
  replace h := readArray_string hkey (by decide) (by decide) (by decide) (head_quoted _ _) h
  replace h := readArray_string hkey (by decide) (by decide) (by decide) (head_brace _) h
  -- the components and the fields behind them have no quotes in their values
  rw [parseJsonArrayValue_congr (findKey_otherKey hkey (by decide) (by decide) _),
    readArray_byte (by decide),
    readArray_field hkey (by decide) (by decide) (quote_not_mem_boolText _),
    readArray_byte (by decide),
    parseJsonArrayValue_congr (findKey_otherKey hkey (by decide) (by decide) _),
    readArray_byte (by decide),
    parseJsonArrayValue_congr (findKey_plain (quote_not_mem_joinInts _) _),
    readArray_byte (by decide), readArray_byte (by decide),
    readArray_field hkey (by decide) (by decide) (quote_not_mem_boolText _),
    readArray_byte (by decide),
    readArray_field hkey (by decide) (by decide) (quote_not_mem_boolText _),
    readArray_byte (by decide), readArray_byte (by decide),
    readArray_field hkey (by decide) (by decide) (quote_not_mem_decimalNat _),
    readArray_byte (by decide),
    readArray_field hkey (by decide) (by decide) (by decide), readArray_byte (by decide),
    readArray_field hkey (by decide) (by decide) (by decide), readArray_byte (by decide)] at h
  unfold parseJsonArrayValue at h
  rw [findKey_sameKey hkey] at h
  have hfuel : assignment.tensorNames.length <
      (joinFields (assignment.tensorNames.map quoted) ++ 93 :: 0x7d :: rest).length + 1 := by
    have hle := length_le_joinFields assignment.tensorNames
    rw [List.length_append]
    omega
  replace h : arrayItems _ _ _ _ _ = _ := h
  rw [arrayItems_quoted hfuel] at h
  split at h
  · exact (Except.ok.inj h).symm
  · cases h

/-- The identifier that is read is the one that was written. -/
theorem partitionId_read {partition : PartitionEntry} {assignment : PartitionTensorAssignment}
    {rest text : Bytes}
    (h : parseJsonStringValue (partitionManifestJson partition assignment ++ rest)
      (ascii "partition_id") = .ok text) :
    text = partition.partitionId ∧ 0 ∉ partition.partitionId := by
  have hkey : IsName (ascii "partition_id") := by decide
  rw [partitionManifestJson_eq] at h
  unfold parseJsonStringValue at h
  rw [findKey_byte (by decide), findKey_sameKey hkey] at h
  dsimp only at h
  have hspaces (more : Bytes) : skipSpaces (quoted partition.partitionId ++ more) =
      quoted partition.partitionId ++ more := rfl
  rw [hspaces] at h
  rw [parseJsonStringAt_quoted] at h
  split at h
  · next hreadable =>
    refine ⟨(Except.ok.inj h).symm, fun hzero => ?_⟩
    exact absurd (hreadable 0 hzero) (by decide)
  · cases h

/-- A manifest that is read back names the partition and its tensors. -/
theorem manifest_read {partition : PartitionEntry} {assignment : PartitionTensorAssignment}
    (hnames : assignment.missingRequiredNames = [])
    (hprefixes : assignment.missingRequiredPrefixes = []) {rest : Bytes}
    {manifest : PartitionManifest}
    (h : parsePartitionManifestText (partitionManifestJson partition assignment ++ rest) =
      .ok manifest) :
    manifest.partitionId = partition.partitionId ∧ 0 ∉ partition.partitionId ∧
      manifest.tensorNames = assignment.tensorNames := by
  unfold parsePartitionManifestText at h
  obtain ⟨partitionId, hid, h⟩ := ok_of_bind h
  obtain ⟨stageId, -, h⟩ := ok_of_bind h
  obtain ⟨serviceName, -, h⟩ := ok_of_bind h
  obtain ⟨physicalNode, -, h⟩ := ok_of_bind h
  obtain ⟨partitionFile, -, h⟩ := ok_of_bind h
  obtain ⟨nextStageUrl, -, h⟩ := ok_of_bind h
  obtain ⟨ownsEmbedding, -, h⟩ := ok_of_bind h
  obtain ⟨ownsNorm, -, h⟩ := ok_of_bind h
  obtain ⟨ownsLmHead, -, h⟩ := ok_of_bind h
  obtain ⟨layers, -, h⟩ := ok_of_bind h
  obtain ⟨tensorNames, htensors, h⟩ := ok_of_bind h
  obtain ⟨hsame, hzero⟩ := partitionId_read hid
  by_cases hempty : partitionId.isEmpty = true
  · rw [if_pos hempty] at h
    cases h
  by_cases hstage : stageId ≤ 0
  · rw [if_neg hempty, if_pos hstage] at h
    cases h
  rw [if_neg hempty, if_neg hstage] at h
  cases h
  exact ⟨hsame, hzero, tensorNames_read hnames hprefixes htensors⟩

end RoundTrip

end LayerInference.ManifestTexts
