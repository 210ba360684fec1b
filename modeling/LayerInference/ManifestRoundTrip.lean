import LayerInference.ManifestTexts

/-!
# Reading a written manifest

Each key is looked up from the start of the text, so a string in front of its
field takes the key over when the string is the key or ends with it behind a
quote: what is read then is the value of the field behind the string. A manifest
is read back as it was written exactly when its strings come back and no string
takes a key over whose value it would change.
-/

namespace LayerInference.ManifestRoundTrip

open ByteStrings FallibleRuns PartitionRouting PartitionGraph TextStreams JsonText QuotedTexts
  JsonFields TensorPlans ManifestTexts

section Integers

/-- A value of the type `int`. -/
def IsInt (value : ℤ) : Prop := -2 ^ 31 ≤ value ∧ value < 2 ^ 31

theorem stoi_decimal {value : ℤ} (h : IsInt value) : stoi (decimal value) = some value := by
  obtain ⟨hlow, hhigh⟩ := h
  obtain ⟨first, tail, hcons⟩ := List.exists_cons_of_ne_nil (decimalNat_ne_nil value.natAbs)
  have hfirst : isDigit first = true :=
    decimalNat_digits value.natAbs first (hcons ▸ List.mem_cons_self)
  have hspace := not_isSpace_of_isDigit hfirst
  obtain ⟨htake, hdrop⟩ :=
    @takeWhile_isDigit_append (decimalNat value.natAbs) [] (decimalNat_digits value.natAbs)
      (fun b hb => by cases hb)
  rw [List.append_nil] at htake hdrop
  unfold stoi extractInt
  by_cases hneg : value < 0
  · have htext : decimal value = 45 :: decimalNat value.natAbs := if_pos hneg
    have hskip : (45 :: decimalNat value.natAbs).dropWhile isSpace =
        45 :: decimalNat value.natAbs := rfl
    have hsign : takeSign (45 :: decimalNat value.natAbs) = ([45], decimalNat value.natAbs) := rfl
    have hvalue : -((value.natAbs : ℕ) : ℤ) = value := by omega
    simp only [htext, hskip, hsign, htake, hdrop, digitsValue_decimalNat, if_true, hvalue]
    rw [if_neg (decimalNat_ne_nil _), if_neg (by omega), if_neg (by omega)]
  · have htext : decimal value = decimalNat value.natAbs := if_neg hneg
    have hskip : (decimalNat value.natAbs).dropWhile isSpace = decimalNat value.natAbs := by
      rw [hcons, List.dropWhile_cons_of_neg (by rw [hspace]; exact Bool.false_ne_true)]
    have hsign : takeSign (decimalNat value.natAbs) = ([], decimalNat value.natAbs) := by
      rw [hcons]
      exact takeSign_of_digit hfirst tail
    have hvalue : ((value.natAbs : ℕ) : ℤ) = value := by omega
    have hnot : ¬([] : Bytes) = [45] := by decide
    simp only [htext, hskip, hsign, htake, hdrop, digitsValue_decimalNat, if_neg hnot, hvalue]
    rw [if_neg (decimalNat_ne_nil _), if_neg (by omega), if_neg (by omega)]

/-- A written number is read up to the byte behind it. -/
theorem integerAt_decimal {value : ℤ} (h : IsInt value) {b : UInt8} (hb : isDigit b = false)
    (rest : Bytes) : integerAt (decimal value ++ b :: rest) = some (some value, b :: rest) := by
  have hhead : ∀ c ∈ (b :: rest).head?, isDigit c = false := by
    intro c hc
    cases hc
    exact hb
  obtain ⟨htake, hdrop⟩ := takeWhile_isDigit_append (decimalNat_digits value.natAbs) hhead
  have hread := stoi_decimal h
  unfold integerAt
  by_cases hneg : value < 0
  · have htext : decimal value = 45 :: decimalNat value.natAbs := if_pos hneg
    rw [htext] at hread ⊢
    simp only [List.cons_append, htake, hdrop, List.nil_append]
    rw [if_neg (List.cons_ne_nil _ _), hread]
  · have htext : decimal value = decimalNat value.natAbs := if_neg hneg
    rw [htext] at hread ⊢
    obtain ⟨first, tail, hcons⟩ := List.exists_cons_of_ne_nil (decimalNat_ne_nil value.natAbs)
    have hfirst : isDigit first = true :=
      decimalNat_digits value.natAbs first (hcons ▸ List.mem_cons_self)
    have hsign : ∀ more, decimalNat value.natAbs ++ b :: rest ≠ 45 :: more := by
      intro more hmore
      rw [hcons, List.cons_append, List.cons.injEq] at hmore
      rw [hmore.1] at hfirst
      cases hfirst
    split
    · next sign digits hsplit =>
      split at hsplit
      · next more hmore => exact absurd hmore (hsign more)
      · cases hsplit
        simp only [htake, hdrop, List.nil_append]
        rw [if_neg (decimalNat_ne_nil _), hread]

end Integers

section Texts

variable (partition : PartitionEntry) (assignment : PartitionTensorAssignment)

/-! The text of a manifest from each of its fields on. -/

def tensorsText : Bytes :=
  jsonField (ascii "tensor_names")
    (91 :: (joinFields (assignment.tensorNames.map quoted) ++ [93, 0x7d]))

def missingText : Bytes :=
  jsonField (ascii "missing_required_names") (stringVectorJson assignment.missingRequiredNames ++
    44 :: jsonField (ascii "missing_required_prefixes")
      (stringVectorJson assignment.missingRequiredPrefixes ++ 44 :: tensorsText assignment))

def headText : Bytes :=
  jsonField (ascii "lm_head") (boolText partition.components.lmHead ++ 0x7d ::
    44 :: jsonField (ascii "tensor_count") (decimalNat assignment.tensorNames.length ++
      44 :: missingText assignment))

def normText : Bytes :=
  jsonField (ascii "norm")
    (boolText partition.components.norm ++ 44 :: headText partition assignment)

def layersText : Bytes :=
  jsonField (ascii "layers")
    (91 :: (joinInts partition.components.layers ++ 93 :: 44 :: normText partition assignment))

def embeddingText : Bytes :=
  jsonField (ascii "embedding")
    (boolText partition.components.embedding ++ 44 :: layersText partition assignment)

def componentsText : Bytes :=
  jsonField (ascii "components") (0x7b :: embeddingText partition assignment)

def urlText : Bytes :=
  jsonField (ascii "next_stage_url")
    (quoted partition.nextStageUrl ++ 44 :: componentsText partition assignment)

def fileText : Bytes :=
  jsonField (ascii "partition_file")
    (quoted partition.partitionFile ++ 44 :: urlText partition assignment)

def nodeText : Bytes :=
  jsonField (ascii "physical_node")
    (quoted partition.physicalNode ++ 44 :: fileText partition assignment)

def serviceText : Bytes :=
  jsonField (ascii "service_name")
    (quoted partition.serviceName ++ 44 :: nodeText partition assignment)

def stageText : Bytes :=
  jsonField (ascii "stage_id") (decimal partition.stageId ++ 44 :: serviceText partition assignment)

theorem manifest_eq :
    partitionManifestJson partition assignment =
      0x7b :: jsonField (ascii "partition_id")
        (quoted partition.partitionId ++ 44 :: stageText partition assignment) := by
  have htext := partitionManifestJson_eq partition assignment []
  rw [List.append_nil] at htext
  exact htext

end Texts

section Lookups

variable {key : Bytes}

/-- A key with a string in front of it. -/
theorem findKey_stringField (hkey : IsName key) {name : Bytes} (hname : IsName name)
    (hne : name ≠ key) (text : Bytes) {other : Bytes} (hother : IsName other) (value : Bytes) :
    findKey (jsonField name (quoted text ++ 44 :: jsonField other value)) key =
      if EndsWithKey key text then .ok (skipSpaces value)
      else findKey (jsonField other value) key :=
  (findKey_otherKey hkey hname hne _).trans (findKey_quoted hkey text hother value)

/-- A field without quotes in its value is passed over. -/
theorem findKey_plainField (hkey : IsName key) {name : Bytes} (hname : IsName name)
    (hne : name ≠ key) {plain : Bytes} (hplain : 34 ∉ plain) {b : UInt8} (hb : b ≠ 34)
    (rest : Bytes) :
    findKey (jsonField name (plain ++ b :: rest)) key = findKey rest key := by
  rw [findKey_otherKey hkey hname hne, findKey_plain hplain, findKey_byte hb]

/-- Strings of an array that do not end with the key are passed over. -/
theorem findKey_strings (hkey : IsName key) {texts : List Bytes}
    (htexts : ∀ text ∈ texts, ¬EndsWithKey key text) (rest : Bytes) :
    findKey (joinFields (texts.map quoted) ++ 93 :: rest) key = findKey rest key := by
  classical
  have hpass {text : Bytes} (htext : ¬EndsWithKey key text) {b : UInt8} (hb : Separator b)
      (more : Bytes) : findKey (quoted text ++ b :: more) key = findKey more key := by
    have hliteral := searchKey_literal hkey (stringLiteral_wellFormed text hb) some more
    rw [if_neg fun h => htext ((mentions_jsonEscape hkey text [b]).mp h)] at hliteral
    have hsplit : (⟨jsonEscape text, [b]⟩ : Literal).text ++ more = quoted text ++ b :: more := by
      unfold Literal.text quoted
      rw [List.cons_append, List.cons_append, List.append_assoc, List.append_assoc]
      rfl
    rw [hsplit] at hliteral
    exact findKey_congr hliteral
  induction texts with
  | nil => exact findKey_byte (by decide) rest
  | cons text texts ih =>
    have htext := htexts text List.mem_cons_self
    have hrest := ih fun other hother => htexts other (List.mem_cons_of_mem text hother)
    cases texts with
    | nil =>
      rw [List.map_singleton, joinFields_single]
      exact hpass htext separator_bracket rest
    | cons next texts =>
      rw [List.map_cons, List.map_cons, joinFields_cons, List.append_assoc, List.cons_append,
        hpass htext separator_comma]
      exact hrest

/-- A field with an array of strings that do not end with the key. -/
theorem findKey_stringsField (hkey : IsName key) {name : Bytes} (hname : IsName name)
    (hne : name ≠ key) {texts : List Bytes} (htexts : ∀ text ∈ texts, ¬EndsWithKey key text)
    (rest : Bytes) :
    findKey (jsonField name (stringVectorJson texts ++ 44 :: rest)) key = findKey rest key := by
  have hvector : stringVectorJson texts ++ 44 :: rest =
      91 :: (joinFields (texts.map quoted) ++ 93 :: 44 :: rest) := by
    unfold stringVectorJson
    rw [List.cons_append, List.append_assoc]
    rfl
  rw [findKey_otherKey hkey hname hne, hvector, findKey_byte (by decide),
    findKey_strings hkey htexts, findKey_byte (by decide)]

end Lookups

section Readers

variable {json key : Bytes}

theorem parseJsonStringValue_quoted {text rest : Bytes}
    (h : findKey json key = .ok (quoted text ++ rest)) :
    parseJsonStringValue json key =
      if Readable text then .ok text else .error unsupportedEscape := by
  unfold parseJsonStringValue
  rw [h]
  dsimp only
  rw [parseJsonStringAt_quoted]
  by_cases hread : Readable text
  · rw [if_pos hread, if_pos hread]
    rfl
  · rw [if_neg hread, if_neg hread]
    rfl

theorem parseJsonBoolValue_boolText {value : Bool} {rest : Bytes}
    (h : findKey json key = .ok (boolText value ++ rest)) :
    parseJsonBoolValue json key = .ok value := by
  unfold parseJsonBoolValue
  rw [h]
  cases value <;> rfl

/-- What a string starts with. -/
theorem first_of_string {text : Bytes} (h : parseJsonStringValue json key = .ok text) :
    ∃ value, findKey json key = .ok value ∧ (skipSpaces value).head? = some 34 := by
  unfold parseJsonStringValue at h
  split at h
  · cases h
  · next value hfind =>
    refine ⟨value, hfind, ?_⟩
    unfold parseJsonStringAt at h
    split at h
    · next rest heq =>
      rw [heq]
      rfl
    · cases h

theorem first_of_bool {flag : Bool} (h : parseJsonBoolValue json key = .ok flag) :
    ∃ value, findKey json key = .ok value ∧
      (value.head? = some 116 ∨ value.head? = some 102) := by
  unfold parseJsonBoolValue at h
  obtain ⟨value, hfind, h⟩ := ok_of_bind h
  refine ⟨value, hfind, ?_⟩
  split at h
  · next htrue =>
    obtain ⟨rest, rfl⟩ := List.isPrefixOf_iff_prefix.mp htrue
    exact Or.inl rfl
  · split at h
    · next hfalse =>
      obtain ⟨rest, rfl⟩ := List.isPrefixOf_iff_prefix.mp hfalse
      exact Or.inr rfl
    · cases h

theorem first_of_array {α : Type} {kind : Bytes} {item : Bytes → Except Bytes (α × Bytes)}
    {values : List α} (h : parseJsonArrayValue kind item json key = .ok values) :
    ∃ value, findKey json key = .ok value ∧ value.head? = some 91 := by
  unfold parseJsonArrayValue at h
  split at h
  · cases h
  · next rest hfind => exact ⟨_, hfind, rfl⟩
  · cases h

/-- A number starts with none of the bytes that another value starts with. -/
theorem first_of_decimal (value : ℤ) (rest : Bytes) :
    skipSpaces (decimal value ++ rest) = decimal value ++ rest ∧
      ∃ b tail, decimal value = b :: tail ∧ (b = 45 ∨ isDigit b = true) := by
  obtain ⟨b, tail, hcons⟩ : ∃ b tail, decimal value = b :: tail := by
    refine List.exists_cons_of_ne_nil fun hnil => ?_
    unfold decimal at hnil
    split at hnil
    · cases hnil
    · exact decimalNat_ne_nil _ hnil
  have hb : b = 45 ∨ isDigit b = true := mem_decimal (hcons ▸ List.mem_cons_self)
  have hspace : ¬isSpace b = true := by
    rcases hb with rfl | hdigit
    · exact Bool.false_ne_true
    · rw [not_isSpace_of_isDigit hdigit]
      exact Bool.false_ne_true
  refine ⟨?_, b, tail, hcons, hb⟩
  rw [hcons, List.cons_append]
  exact List.dropWhile_cons_of_neg hspace

/-- An array of written numbers gives the numbers. -/
theorem arrayItems_joinInts {kind rest : Bytes} {fuel : ℕ} {values : List ℤ}
    (hvalues : ∀ value ∈ values, IsInt value) (hfuel : values.length < fuel) :
    arrayItems kind (integerItem key) key fuel (joinInts values ++ 93 :: rest) = .ok values := by
  induction fuel generalizing values with
  | zero => exact absurd hfuel (Nat.not_lt_zero _)
  | succ fuel ih =>
    cases values with
    | nil => rfl
    | cons value values =>
      have hvalue := hvalues value List.mem_cons_self
      have hrest := ih (fun other hother => hvalues other (List.mem_cons_of_mem value hother))
        (Nat.lt_of_succ_lt_succ hfuel)
      obtain ⟨separator, tail, htail, hdigit, hnext⟩ : ∃ separator tail,
          joinInts (value :: values) ++ 93 :: rest = decimal value ++ separator :: tail ∧
          isDigit separator = false ∧
          (separator = 93 ∧ values = [] ∨
            separator = 44 ∧ tail = joinInts values ++ 93 :: rest) := by
        cases values with
        | nil =>
          refine ⟨93, rest, ?_, rfl, Or.inl ⟨rfl, rfl⟩⟩
          unfold joinInts
          rw [List.map_singleton, List.intercalate_singleton]
        | cons next values =>
          refine ⟨44, _, ?_, rfl, Or.inr ⟨rfl, rfl⟩⟩
          unfold joinInts
          rw [List.map_cons, List.map_cons, List.intercalate_cons_cons, List.append_assoc,
            List.append_assoc]
          rfl
      obtain ⟨hskip, b, more, hcons, hb⟩ := first_of_decimal value (separator :: tail)
      have hitem : integerItem key (b :: (more ++ separator :: tail)) =
          .ok (value, separator :: tail) := by
        have hread := integerAt_decimal hvalue hdigit tail
        rw [hcons, List.cons_append] at hread
        unfold integerItem
        rw [hread]
      have hend : b ≠ 93 := by
        rintro rfl
        rcases hb with hminus | hdigit
        · cases hminus
        · cases hdigit
      rw [htail, arrayItems, hskip, hcons, List.cons_append]
      dsimp only
      rw [if_neg hend, hitem]
      rcases hnext with ⟨rfl, rfl⟩ | ⟨rfl, rfl⟩
      · rfl
      · have hmap : (arrayItems kind (integerItem key) key fuel
            (joinInts values ++ 93 :: rest)).map (value :: ·) = .ok (value :: values) := by
          rw [hrest]
          rfl
        exact hmap

/-- An array of written numbers is read. -/
theorem parseJsonIntArrayValue_joinInts {values : List ℤ} {rest : Bytes}
    (hvalues : ∀ value ∈ values, IsInt value)
    (h : findKey json key = .ok (91 :: (joinInts values ++ 93 :: rest))) :
    parseJsonIntArrayValue json key = .ok values := by
  have hlength : values.length ≤ (joinInts values).length := by
    have hne : ∀ field ∈ values.map decimal, field ≠ [] := by
      intro field hfield
      obtain ⟨value, -, rfl⟩ := List.mem_map.mp hfield
      obtain ⟨-, b, tail, hcons, -⟩ := first_of_decimal value []
      rw [hcons]
      exact List.cons_ne_nil _ _
    have hle := length_le_intercalate hne
    rw [List.length_map] at hle
    exact hle
  unfold parseJsonIntArrayValue parseJsonArrayValue
  rw [h]
  refine arrayItems_joinInts hvalues ?_
  rw [List.length_append]
  omega

theorem parseJsonStringArrayValue_quoted {texts : List Bytes} {rest : Bytes}
    (h : findKey json key = .ok (91 :: (joinFields (texts.map quoted) ++ 93 :: rest))) :
    parseJsonStringArrayValue json key =
      if ∀ text ∈ texts, Readable text then .ok texts else .error unsupportedEscape := by
  have hle := length_le_joinFields texts
  unfold parseJsonStringArrayValue parseJsonArrayValue
  rw [h]
  refine arrayItems_quoted ?_
  rw [List.length_append]
  omega

theorem parseJsonIntValue_decimal {value : ℤ} (hvalue : IsInt value) {b : UInt8}
    (hb : isDigit b = false) {rest : Bytes}
    (h : findKey json key = .ok (decimal value ++ b :: rest)) :
    parseJsonIntValue json key = .ok value := by
  unfold parseJsonIntValue
  rw [h]
  have hread := integerAt_decimal hvalue hb rest
  dsimp only [bind, Except.bind]
  rw [hread]

end Readers

section Fields

variable {partition : PartitionEntry} {assignment : PartitionTensorAssignment} {key : Bytes}

/-- The keys in front of the components. -/
def frontKeys : List Bytes :=
  [ascii "partition_id", ascii "stage_id", ascii "service_name", ascii "physical_node",
    ascii "partition_file", ascii "next_stage_url", ascii "components"]

/-- The keys that are looked up behind all strings. -/
def componentKeys : List Bytes :=
  [ascii "embedding", ascii "layers", ascii "norm", ascii "lm_head", ascii "tensor_names"]

/-- The strings in front of the components, each with the next one behind it. -/
def frontStrings (partition : PartitionEntry) : List Bytes :=
  [partition.partitionId, partition.serviceName, partition.physicalNode, partition.partitionFile,
    partition.nextStageUrl]

/-- The first string that takes the key over sends it to a value that is no
component; otherwise it is looked up behind the strings. -/
theorem findKey_component (hkey : IsName key) (hfront : key ∉ frontKeys) :
    findKey (partitionManifestJson partition assignment) key =
      if EndsWithKey key partition.partitionId then
        .ok (decimal partition.stageId ++ 44 :: serviceText partition assignment)
      else if EndsWithKey key partition.serviceName then
        .ok (quoted partition.physicalNode ++ 44 :: fileText partition assignment)
      else if EndsWithKey key partition.physicalNode then
        .ok (quoted partition.partitionFile ++ 44 :: urlText partition assignment)
      else if EndsWithKey key partition.partitionFile then
        .ok (quoted partition.nextStageUrl ++ 44 :: componentsText partition assignment)
      else if EndsWithKey key partition.nextStageUrl then
        .ok (0x7b :: embeddingText partition assignment)
      else findKey (embeddingText partition assignment) key := by
  have hne (name : Bytes) (hname : name ∈ frontKeys) : name ≠ key := fun h => hfront (h ▸ hname)
  obtain ⟨hstage, -⟩ :=
    first_of_decimal partition.stageId (44 :: serviceText partition assignment)
  rw [manifest_eq, findKey_byte (by decide)]
  unfold stageText
  rw [findKey_stringField hkey (by decide) (hne _ (by decide)) _ (by decide), hstage,
    findKey_plainField hkey (by decide) (hne _ (by decide)) (quote_not_mem_decimal _) (by decide)]
  unfold serviceText nodeText
  rw [findKey_stringField hkey (by decide) (hne _ (by decide)) _ (by decide)]
  unfold fileText
  rw [findKey_stringField hkey (by decide) (hne _ (by decide)) _ (by decide)]
  unfold urlText
  rw [findKey_stringField hkey (by decide) (hne _ (by decide)) _ (by decide)]
  unfold componentsText
  rw [findKey_stringField hkey (by decide) (hne _ (by decide)) _ (by decide)]
  rw [findKey_otherKey hkey (by decide) (hne _ (by decide)), findKey_byte (by decide)]
  rfl

theorem findKey_partitionId :
    findKey (partitionManifestJson partition assignment) (ascii "partition_id") =
      .ok (quoted partition.partitionId ++ 44 :: stageText partition assignment) := by
  rw [manifest_eq, findKey_byte (by decide), findKey_sameKey (by decide)]
  rfl

/-- The number behind the identifier is found even where the identifier ends
with its key. -/
theorem findKey_stageId :
    findKey (partitionManifestJson partition assignment) (ascii "stage_id") =
      .ok (decimal partition.stageId ++ 44 :: serviceText partition assignment) := by
  obtain ⟨hstage, -⟩ :=
    first_of_decimal partition.stageId (44 :: serviceText partition assignment)
  rw [manifest_eq, findKey_byte (by decide)]
  unfold stageText
  rw [findKey_stringField (by decide) (by decide) (by decide) _ (by decide),
    findKey_sameKey (by decide), hstage, ite_self]

/-- Keys behind the number are looked up in the identifier first. -/
theorem findKey_behindStage (hkey : IsName key) (hid : ascii "partition_id" ≠ key)
    (hstage : ascii "stage_id" ≠ key) :
    findKey (partitionManifestJson partition assignment) key =
      if EndsWithKey key partition.partitionId then
        .ok (decimal partition.stageId ++ 44 :: serviceText partition assignment)
      else findKey (serviceText partition assignment) key := by
  obtain ⟨hskip, -⟩ :=
    first_of_decimal partition.stageId (44 :: serviceText partition assignment)
  rw [manifest_eq, findKey_byte (by decide)]
  unfold stageText
  rw [findKey_stringField hkey (by decide) hid _ (by decide), hskip,
    findKey_plainField hkey (by decide) hstage (quote_not_mem_decimal _) (by decide)]

theorem findKey_serviceName :
    findKey (serviceText partition assignment) (ascii "service_name") =
      .ok (quoted partition.serviceName ++ 44 :: nodeText partition assignment) := by
  unfold serviceText
  rw [findKey_sameKey (by decide)]
  rfl

theorem findKey_physicalNode :
    findKey (serviceText partition assignment) (ascii "physical_node") =
      .ok (quoted partition.physicalNode ++ 44 :: fileText partition assignment) := by
  unfold serviceText nodeText
  rw [findKey_stringField (by decide) (by decide) (by decide) _ (by decide),
    findKey_sameKey (by decide), ite_self]
  rfl

/-- The name of the file is looked up in the name of the service first. -/
theorem findKey_partitionFile :
    findKey (serviceText partition assignment) (ascii "partition_file") =
      if EndsWithKey (ascii "partition_file") partition.serviceName then
        .ok (quoted partition.physicalNode ++ 44 :: fileText partition assignment)
      else .ok (quoted partition.partitionFile ++ 44 :: urlText partition assignment) := by
  unfold serviceText nodeText
  rw [findKey_stringField (by decide) (by decide) (by decide) _ (by decide)]
  unfold fileText
  rw [findKey_stringField (by decide) (by decide) (by decide) _ (by decide),
    findKey_sameKey (by decide), ite_self]
  rfl

/-- The next URL is looked up in two names first. -/
theorem findKey_nextStageUrl :
    findKey (serviceText partition assignment) (ascii "next_stage_url") =
      if EndsWithKey (ascii "next_stage_url") partition.serviceName then
        .ok (quoted partition.physicalNode ++ 44 :: fileText partition assignment)
      else if EndsWithKey (ascii "next_stage_url") partition.physicalNode then
        .ok (quoted partition.partitionFile ++ 44 :: urlText partition assignment)
      else .ok (quoted partition.nextStageUrl ++ 44 :: componentsText partition assignment) := by
  unfold serviceText nodeText
  rw [findKey_stringField (by decide) (by decide) (by decide) _ (by decide)]
  unfold fileText
  rw [findKey_stringField (by decide) (by decide) (by decide) _ (by decide)]
  unfold urlText
  rw [findKey_stringField (by decide) (by decide) (by decide) _ (by decide),
    findKey_sameKey (by decide), ite_self]
  rfl

/-- A string is not read from a number. -/
theorem not_read_from_decimal {json text : Bytes} {value : ℤ} {rest : Bytes}
    (hfind : findKey json key = .ok (decimal value ++ rest)) :
    parseJsonStringValue json key ≠ .ok text := by
  intro h
  obtain ⟨found, hfound, hfirst⟩ := first_of_string h
  obtain ⟨hskip, b, tail, hcons, hb⟩ := first_of_decimal value rest
  rw [hfind] at hfound
  rw [← Except.ok.inj hfound, hskip, hcons, List.cons_append, List.head?_cons,
    Option.some.injEq] at hfirst
  subst hfirst
  rcases hb with hminus | hdigit
  · cases hminus
  · cases hdigit

/-- A quoted value is read as the wanted text when it is the same text. -/
theorem read_quoted_iff {json text wanted rest : Bytes}
    (hfind : findKey json key = .ok (quoted text ++ rest)) :
    parseJsonStringValue json key = .ok wanted ↔ text = wanted ∧ Readable wanted := by
  rw [parseJsonStringValue_quoted hfind]
  by_cases hread : Readable text
  · rw [if_pos hread, Except.ok.injEq]
    constructor
    · rintro rfl
      exact ⟨rfl, hread⟩
    · exact And.left
  · rw [if_neg hread]
    refine iff_of_false (by intro h; cases h) ?_
    rintro ⟨rfl, hwanted⟩
    exact hread hwanted

/-- The fields behind the number, as they are read. -/
theorem read_string_iff (hkey : IsName key) (hid : ascii "partition_id" ≠ key)
    (hstage : ascii "stage_id" ≠ key) {found wanted rest : Bytes}
    (hfind : findKey (serviceText partition assignment) key = .ok (quoted found ++ rest)) :
    parseJsonStringValue (partitionManifestJson partition assignment) key = .ok wanted ↔
      ¬EndsWithKey key partition.partitionId ∧ found = wanted ∧ Readable wanted := by
  have hbehind := @findKey_behindStage partition assignment key hkey hid hstage
  by_cases hends : EndsWithKey key partition.partitionId
  · rw [if_pos hends] at hbehind
    exact iff_of_false (not_read_from_decimal hbehind) fun h => h.1 hends
  · rw [if_neg hends, hfind] at hbehind
    rw [read_quoted_iff hbehind]
    exact (and_iff_right hends).symm

end Fields

section Components

variable {partition : PartitionEntry} {assignment : PartitionTensorAssignment} {key : Bytes}

theorem componentKeys_names : ∀ key ∈ componentKeys, IsName key ∧ key ∉ frontKeys := by
  decide +kernel

theorem skipSpaces_boolText (value : Bool) (rest : Bytes) :
    skipSpaces (boolText value ++ rest) = boolText value ++ rest := by
  cases value <;> rfl

/-- A component that no string takes over is found behind the strings. -/
theorem findKey_component_plain (hkey : key ∈ componentKeys)
    (hplain : ∀ text ∈ frontStrings partition, ¬EndsWithKey key text) :
    findKey (partitionManifestJson partition assignment) key =
      findKey (embeddingText partition assignment) key := by
  obtain ⟨hname, hfront⟩ := componentKeys_names key hkey
  unfold frontStrings at hplain
  rw [findKey_component hname hfront, if_neg (hplain _ (by simp)), if_neg (hplain _ (by simp)),
    if_neg (hplain _ (by simp)), if_neg (hplain _ (by simp)), if_neg (hplain _ (by simp))]

/-- A flag or an array is found only where no string takes its key over. -/
theorem plain_of_findKey_component (hkey : key ∈ componentKeys) {value : Bytes}
    (hfind : findKey (partitionManifestJson partition assignment) key = .ok value)
    (hfirst : ∃ b ∈ [91, 102, 116], value.head? = some b) :
    ∀ text ∈ frontStrings partition, ¬EndsWithKey key text := by
  obtain ⟨hname, hfront⟩ := componentKeys_names key hkey
  obtain ⟨b, hb, hhead⟩ := hfirst
  rw [findKey_component hname hfront] at hfind
  have hquoted (text rest : Bytes) (h : Except.ok (quoted text ++ rest) =
      (Except.ok value : Except Bytes Bytes)) : False := by
    rw [← Except.ok.inj h] at hhead
    have hb34 : b = 34 := (Option.some.inj hhead).symm
    rw [hb34] at hb
    revert hb
    decide
  by_cases hid : EndsWithKey key partition.partitionId
  · rw [if_pos hid] at hfind
    obtain ⟨-, c, tail, hcons, hc⟩ := first_of_decimal partition.stageId []
    rw [hcons] at hfind
    rw [← Except.ok.inj hfind] at hhead
    have hbc : c = b := Option.some.inj hhead
    rw [hbc] at hc
    simp only [List.mem_cons, List.not_mem_nil, or_false] at hb
    rcases hb with rfl | rfl | rfl
    · exact absurd hc (by decide)
    · exact absurd hc (by decide)
    · exact absurd hc (by decide)
  rw [if_neg hid] at hfind
  by_cases hservice : EndsWithKey key partition.serviceName
  · rw [if_pos hservice] at hfind
    exact (hquoted _ _ hfind).elim
  rw [if_neg hservice] at hfind
  by_cases hnode : EndsWithKey key partition.physicalNode
  · rw [if_pos hnode] at hfind
    exact (hquoted _ _ hfind).elim
  rw [if_neg hnode] at hfind
  by_cases hfile : EndsWithKey key partition.partitionFile
  · rw [if_pos hfile] at hfind
    exact (hquoted _ _ hfind).elim
  rw [if_neg hfile] at hfind
  by_cases hurl : EndsWithKey key partition.nextStageUrl
  · rw [if_pos hurl] at hfind
    rw [← Except.ok.inj hfind] at hhead
    rw [← Option.some.inj hhead] at hb
    exact absurd hb (by decide)
  intro text htext
  simp only [frontStrings, List.mem_cons, List.not_mem_nil, or_false] at htext
  rcases htext with rfl | rfl | rfl | rfl | rfl
  · exact hid
  · exact hservice
  · exact hnode
  · exact hfile
  · exact hurl

theorem findKey_embedding :
    findKey (embeddingText partition assignment) (ascii "embedding") =
      .ok (boolText partition.components.embedding ++ 44 :: layersText partition assignment) := by
  unfold embeddingText
  rw [findKey_sameKey (by decide), skipSpaces_boolText]

theorem findKey_layers :
    findKey (embeddingText partition assignment) (ascii "layers") =
      .ok (91 :: (joinInts partition.components.layers ++ 93 :: 44 ::
        normText partition assignment)) := by
  unfold embeddingText layersText
  rw [findKey_plainField (by decide) (by decide) (by decide) (quote_not_mem_boolText _)
    (by decide), findKey_sameKey (by decide)]
  rfl

/-- Keys behind the layers. -/
theorem findKey_behindLayers (hkey : IsName key) (hembedding : ascii "embedding" ≠ key)
    (hlayers : ascii "layers" ≠ key) :
    findKey (embeddingText partition assignment) key =
      findKey (normText partition assignment) key := by
  unfold embeddingText layersText
  rw [findKey_plainField hkey (by decide) hembedding (quote_not_mem_boolText _) (by decide),
    findKey_otherKey hkey (by decide) hlayers, findKey_byte (by decide),
    findKey_plain (quote_not_mem_joinInts _), findKey_byte (by decide), findKey_byte (by decide)]

theorem findKey_norm :
    findKey (embeddingText partition assignment) (ascii "norm") =
      .ok (boolText partition.components.norm ++ 44 :: headText partition assignment) := by
  rw [findKey_behindLayers (by decide) (by decide) (by decide)]
  unfold normText
  rw [findKey_sameKey (by decide), skipSpaces_boolText]

theorem findKey_lmHead :
    ∃ rest, findKey (embeddingText partition assignment) (ascii "lm_head") =
      .ok (boolText partition.components.lmHead ++ rest) := by
  rw [findKey_behindLayers (by decide) (by decide) (by decide)]
  unfold normText headText
  rw [findKey_plainField (by decide) (by decide) (by decide) (quote_not_mem_boolText _)
    (by decide), findKey_sameKey (by decide), skipSpaces_boolText]
  exact ⟨_, rfl⟩

/-- The tensor names stand behind the lists of what is missing. -/
theorem findKey_tensorNames
    (hmissing : ∀ name ∈ assignment.missingRequiredNames ++ assignment.missingRequiredPrefixes,
      ¬EndsWithKey (ascii "tensor_names") name) :
    findKey (embeddingText partition assignment) (ascii "tensor_names") =
      .ok (91 :: (joinFields (assignment.tensorNames.map quoted) ++ 93 :: [0x7d])) := by
  have hnames : ∀ name ∈ assignment.missingRequiredNames,
      ¬EndsWithKey (ascii "tensor_names") name :=
    fun name hname => hmissing name (List.mem_append_left _ hname)
  have hprefixes : ∀ name ∈ assignment.missingRequiredPrefixes,
      ¬EndsWithKey (ascii "tensor_names") name :=
    fun name hname => hmissing name (List.mem_append_right _ hname)
  rw [findKey_behindLayers (by decide) (by decide) (by decide)]
  unfold normText headText missingText tensorsText
  rw [findKey_plainField (by decide) (by decide) (by decide) (quote_not_mem_boolText _)
      (by decide),
    findKey_plainField (by decide) (by decide) (by decide) (quote_not_mem_boolText _)
      (by decide), findKey_byte (by decide),
    findKey_plainField (by decide) (by decide) (by decide) (quote_not_mem_decimalNat _)
      (by decide),
    findKey_stringsField (by decide) (by decide) (by decide) hnames,
    findKey_stringsField (by decide) (by decide) (by decide) hprefixes,
    findKey_sameKey (by decide)]
  rfl

end Components

section Restoring

variable {partition : PartitionEntry} {assignment : PartitionTensorAssignment} {key : Bytes}

/-- The manifest that was written. -/
def manifestOf (partition : PartitionEntry) (assignment : PartitionTensorAssignment) :
    PartitionManifest where
  partitionId := partition.partitionId
  stageId := partition.stageId
  serviceName := partition.serviceName
  physicalNode := partition.physicalNode
  partitionFile := partition.partitionFile
  nextStageUrl := partition.nextStageUrl
  ownsEmbedding := partition.components.embedding
  ownsNorm := partition.components.norm
  ownsLmHead := partition.components.lmHead
  layers := partition.components.layers
  tensorNames := assignment.tensorNames

/-- The strings of a manifest come back and take no key over, except where the
value behind them is the wanted one. -/
structure Restorable (partition : PartitionEntry) (assignment : PartitionTensorAssignment) :
    Prop where
  readable : ∀ text ∈ frontStrings partition ++ assignment.tensorNames, Readable text
  identifier : ∀ key ∈ [ascii "service_name", ascii "physical_node", ascii "partition_file",
    ascii "next_stage_url"], ¬EndsWithKey key partition.partitionId
  components : ∀ key ∈ componentKeys, ∀ text ∈ frontStrings partition, ¬EndsWithKey key text
  service_file : EndsWithKey (ascii "partition_file") partition.serviceName →
    partition.physicalNode = partition.partitionFile
  service_url : EndsWithKey (ascii "next_stage_url") partition.serviceName →
    partition.physicalNode = partition.nextStageUrl
  node_url : ¬EndsWithKey (ascii "next_stage_url") partition.serviceName →
    EndsWithKey (ascii "next_stage_url") partition.physicalNode →
      partition.partitionFile = partition.nextStageUrl

/-- A manifest is read when each of its fields is. -/
theorem parsePartitionManifestText_ok {json : Bytes} {manifest : PartitionManifest} :
    parsePartitionManifestText json = .ok manifest ↔
      (parseJsonStringValue json (ascii "partition_id") = .ok manifest.partitionId ∧
        parseJsonIntValue json (ascii "stage_id") = .ok manifest.stageId ∧
        parseJsonStringValue json (ascii "service_name") = .ok manifest.serviceName ∧
        parseJsonStringValue json (ascii "physical_node") = .ok manifest.physicalNode ∧
        parseJsonStringValue json (ascii "partition_file") = .ok manifest.partitionFile ∧
        parseJsonStringValue json (ascii "next_stage_url") = .ok manifest.nextStageUrl ∧
        parseJsonBoolValue json (ascii "embedding") = .ok manifest.ownsEmbedding ∧
        parseJsonBoolValue json (ascii "norm") = .ok manifest.ownsNorm ∧
        parseJsonBoolValue json (ascii "lm_head") = .ok manifest.ownsLmHead ∧
        parseJsonIntArrayValue json (ascii "layers") = .ok manifest.layers ∧
        parseJsonStringArrayValue json (ascii "tensor_names") = .ok manifest.tensorNames) ∧
      manifest.partitionId ≠ [] ∧ 0 < manifest.stageId := by
  constructor
  · intro h
    unfold parsePartitionManifestText at h
    obtain ⟨partitionId, hid, h⟩ := ok_of_bind h
    obtain ⟨stageId, hstage, h⟩ := ok_of_bind h
    obtain ⟨serviceName, hservice, h⟩ := ok_of_bind h
    obtain ⟨physicalNode, hnode, h⟩ := ok_of_bind h
    obtain ⟨partitionFile, hfile, h⟩ := ok_of_bind h
    obtain ⟨nextStageUrl, hurl, h⟩ := ok_of_bind h
    obtain ⟨ownsEmbedding, hembedding, h⟩ := ok_of_bind h
    obtain ⟨ownsNorm, hnorm, h⟩ := ok_of_bind h
    obtain ⟨ownsLmHead, hhead, h⟩ := ok_of_bind h
    obtain ⟨layers, hlayers, h⟩ := ok_of_bind h
    obtain ⟨tensorNames, htensors, h⟩ := ok_of_bind h
    by_cases hempty : partitionId.isEmpty = true
    · rw [if_pos hempty] at h
      cases h
    by_cases hpositive : stageId ≤ 0
    · rw [if_neg hempty, if_pos hpositive] at h
      cases h
    rw [if_neg hempty, if_neg hpositive] at h
    cases h
    rw [List.isEmpty_iff] at hempty
    exact ⟨⟨hid, hstage, hservice, hnode, hfile, hurl, hembedding, hnorm, hhead, hlayers,
      htensors⟩, hempty, Int.not_le.mp hpositive⟩
  · rintro ⟨⟨hid, hstage, hservice, hnode, hfile, hurl, hembedding, hnorm, hhead, hlayers,
      htensors⟩, hempty, hpositive⟩
    unfold parsePartitionManifestText
    have hsome : ¬manifest.partitionId.isEmpty = true := fun h => hempty (List.isEmpty_iff.mp h)
    rw [hid, hstage, hservice, hnode, hfile, hurl, hembedding, hnorm, hhead, hlayers, htensors]
    dsimp only [bind, Except.bind]
    rw [if_neg hsome, if_neg (Int.not_le.mpr hpositive)]

/-- A flag is read exactly when no string takes its key over. -/
theorem read_flag_iff (hkey : key ∈ componentKeys) {value : Bool} {rest : Bytes}
    (hfind : findKey (embeddingText partition assignment) key = .ok (boolText value ++ rest)) :
    parseJsonBoolValue (partitionManifestJson partition assignment) key = .ok value ↔
      ∀ text ∈ frontStrings partition, ¬EndsWithKey key text := by
  constructor
  · intro h
    obtain ⟨found, hfound, hfirst⟩ := first_of_bool h
    refine plain_of_findKey_component hkey hfound ?_
    rcases hfirst with htrue | hfalse
    · exact ⟨116, by decide, htrue⟩
    · exact ⟨102, by decide, hfalse⟩
  · intro hplain
    exact parseJsonBoolValue_boolText ((findKey_component_plain hkey hplain).trans hfind)

theorem read_layers_iff (hlayers : ∀ layer ∈ partition.components.layers, IsInt layer) :
    parseJsonIntArrayValue (partitionManifestJson partition assignment) (ascii "layers") =
        .ok partition.components.layers ↔
      ∀ text ∈ frontStrings partition, ¬EndsWithKey (ascii "layers") text := by
  have hkey : ascii "layers" ∈ componentKeys := by decide
  constructor
  · intro h
    obtain ⟨found, hfound, hfirst⟩ := first_of_array h
    exact plain_of_findKey_component hkey hfound ⟨91, by decide, hfirst⟩
  · intro hplain
    exact parseJsonIntArrayValue_joinInts hlayers
      ((findKey_component_plain hkey hplain).trans findKey_layers)

theorem read_tensorNames_iff
    (hmissing : ∀ name ∈ assignment.missingRequiredNames ++ assignment.missingRequiredPrefixes,
      ¬EndsWithKey (ascii "tensor_names") name) :
    parseJsonStringArrayValue (partitionManifestJson partition assignment)
        (ascii "tensor_names") = .ok assignment.tensorNames ↔
      (∀ text ∈ frontStrings partition, ¬EndsWithKey (ascii "tensor_names") text) ∧
        ∀ name ∈ assignment.tensorNames, Readable name := by
  have hkey : ascii "tensor_names" ∈ componentKeys := by decide
  have hread (hplain : ∀ text ∈ frontStrings partition,
      ¬EndsWithKey (ascii "tensor_names") text) :=
    parseJsonStringArrayValue_quoted
      ((findKey_component_plain hkey hplain).trans (findKey_tensorNames hmissing))
  constructor
  · intro h
    obtain ⟨found, hfound, hfirst⟩ := first_of_array h
    have hplain := plain_of_findKey_component hkey hfound ⟨91, by decide, hfirst⟩
    refine ⟨hplain, ?_⟩
    by_contra hnames
    rw [hread hplain, if_neg hnames] at h
    cases h
  · rintro ⟨hplain, hnames⟩
    rw [hread hplain, if_pos hnames]

theorem read_partitionId_iff :
    parseJsonStringValue (partitionManifestJson partition assignment) (ascii "partition_id") =
      .ok partition.partitionId ↔ Readable partition.partitionId := by
  rw [read_quoted_iff findKey_partitionId]
  exact and_iff_right rfl

theorem read_partitionFile_iff :
    parseJsonStringValue (partitionManifestJson partition assignment) (ascii "partition_file") =
        .ok partition.partitionFile ↔
      ¬EndsWithKey (ascii "partition_file") partition.partitionId ∧
        (EndsWithKey (ascii "partition_file") partition.serviceName →
          partition.physicalNode = partition.partitionFile) ∧
            Readable partition.partitionFile := by
  have hfind := @findKey_partitionFile partition assignment
  by_cases hservice : EndsWithKey (ascii "partition_file") partition.serviceName
  · rw [if_pos hservice] at hfind
    rw [read_string_iff (by decide) (by decide) (by decide) hfind, forall_prop_of_true hservice]
  · rw [if_neg hservice] at hfind
    rw [read_string_iff (by decide) (by decide) (by decide) hfind, forall_prop_of_false hservice,
      and_iff_right rfl, true_and]

theorem read_nextStageUrl_iff :
    parseJsonStringValue (partitionManifestJson partition assignment) (ascii "next_stage_url") =
        .ok partition.nextStageUrl ↔
      ¬EndsWithKey (ascii "next_stage_url") partition.partitionId ∧
        ((EndsWithKey (ascii "next_stage_url") partition.serviceName →
            partition.physicalNode = partition.nextStageUrl) ∧
          (¬EndsWithKey (ascii "next_stage_url") partition.serviceName →
            EndsWithKey (ascii "next_stage_url") partition.physicalNode →
              partition.partitionFile = partition.nextStageUrl)) ∧
            Readable partition.nextStageUrl := by
  have hfind := @findKey_nextStageUrl partition assignment
  by_cases hservice : EndsWithKey (ascii "next_stage_url") partition.serviceName
  · rw [if_pos hservice] at hfind
    rw [read_string_iff (by decide) (by decide) (by decide) hfind, forall_prop_of_true hservice,
      forall_prop_of_false (not_not_intro hservice), and_true]
  · rw [if_neg hservice] at hfind
    rw [forall_prop_of_false hservice, forall_prop_of_true hservice, true_and]
    by_cases hnode : EndsWithKey (ascii "next_stage_url") partition.physicalNode
    · rw [if_pos hnode] at hfind
      rw [read_string_iff (by decide) (by decide) (by decide) hfind, forall_prop_of_true hnode]
    · rw [if_neg hnode] at hfind
      rw [read_string_iff (by decide) (by decide) (by decide) hfind, forall_prop_of_false hnode,
        and_iff_right rfl, true_and]

/-- What the reader gets from a written manifest is what was written exactly
when the manifest is restorable. -/
theorem manifest_restored_iff (hid : partition.partitionId ≠ []) (hstage : 0 < partition.stageId)
    (hint : IsInt partition.stageId)
    (hlayers : ∀ layer ∈ partition.components.layers, IsInt layer)
    (hmissing : ∀ name ∈ assignment.missingRequiredNames ++ assignment.missingRequiredPrefixes,
      ¬EndsWithKey (ascii "tensor_names") name) :
    parsePartitionManifestText (partitionManifestJson partition assignment) =
      .ok (manifestOf partition assignment) ↔ Restorable partition assignment := by
  have hservice := @read_string_iff partition assignment (ascii "service_name") (by decide)
    (by decide) (by decide) _ partition.serviceName _ findKey_serviceName
  have hnode := @read_string_iff partition assignment (ascii "physical_node") (by decide)
    (by decide) (by decide) _ partition.physicalNode _ findKey_physicalNode
  obtain ⟨rest, hhead⟩ := @findKey_lmHead partition assignment
  have hnumber : parseJsonIntValue (partitionManifestJson partition assignment)
      (ascii "stage_id") = .ok partition.stageId :=
    parseJsonIntValue_decimal hint (by decide) findKey_stageId
  have hread := @parsePartitionManifestText_ok (partitionManifestJson partition assignment)
    (manifestOf partition assignment)
  simp only [manifestOf] at hread
  rw [read_partitionId_iff, hservice, hnode, read_partitionFile_iff, read_nextStageUrl_iff,
    read_flag_iff (by decide) findKey_embedding, read_flag_iff (by decide) findKey_norm,
    read_flag_iff (by decide) hhead, read_layers_iff hlayers,
    read_tensorNames_iff hmissing] at hread
  refine hread.trans ⟨?_, ?_⟩
  · rintro ⟨⟨hidText, -, ⟨hidService, -, hserviceText⟩, ⟨hidNode, -, hnodeText⟩,
      ⟨hidFile, hserviceFile, hfileText⟩, ⟨hidUrl, ⟨hserviceUrl, hnodeUrl⟩, hurlText⟩,
      hembedding, hnorm, hlmHead, hlayersKey, htensorsKey, hnames⟩, -, -⟩
    refine ⟨?_, ?_, ?_, hserviceFile, hserviceUrl, hnodeUrl⟩
    · simp only [frontStrings, List.cons_append, List.nil_append, List.forall_mem_cons]
      exact ⟨hidText, hserviceText, hnodeText, hfileText, hurlText, hnames⟩
    · simp only [List.forall_mem_cons]
      exact ⟨hidService, hidNode, hidFile, hidUrl, fun key hkey => absurd hkey List.not_mem_nil⟩
    · unfold componentKeys
      rw [List.forall_mem_cons, List.forall_mem_cons, List.forall_mem_cons, List.forall_mem_cons,
        List.forall_mem_cons]
      exact ⟨hembedding, hlayersKey, hnorm, hlmHead, htensorsKey,
        fun key hkey => absurd hkey List.not_mem_nil⟩
  · intro h
    have hreadable := h.readable
    have hidentifier := h.identifier
    have hcomponents := h.components
    simp only [frontStrings, List.cons_append, List.nil_append, List.forall_mem_cons] at hreadable
    simp only [List.forall_mem_cons] at hidentifier
    obtain ⟨hidText, hserviceText, hnodeText, hfileText, hurlText, hnames⟩ := hreadable
    obtain ⟨hidService, hidNode, hidFile, hidUrl, -⟩ := hidentifier
    exact ⟨⟨hidText, hnumber, ⟨hidService, rfl, hserviceText⟩, ⟨hidNode, rfl, hnodeText⟩,
      ⟨hidFile, h.service_file, hfileText⟩, ⟨hidUrl, ⟨h.service_url, h.node_url⟩, hurlText⟩,
      hcomponents _ (by decide), hcomponents _ (by decide), hcomponents _ (by decide),
      hcomponents _ (by decide), hcomponents _ (by decide), hnames⟩, hid, hstage⟩

def examplePartition : PartitionEntry where
  partitionId := ascii "part-1"
  stageId := 1
  serviceName := ascii "stage-1"
  physicalNode := ascii "node-a"
  partitionFile := ascii "part-1.bin"
  components := { layers := [0, 1], embedding := true }

def exampleAssignment : PartitionTensorAssignment where
  partitionId := ascii "part-1"
  tensorNames := [ascii "blk.0.attn_q.weight", ascii "token_embd.weight"]
  missingRequiredNames := []
  missingRequiredPrefixes := [ascii "blk.1."]

theorem manifest_restored_iff_part_1 :
    parsePartitionManifestText (partitionManifestJson examplePartition exampleAssignment) =
        .ok (manifestOf examplePartition exampleAssignment) ↔
      Restorable examplePartition exampleAssignment :=
  manifest_restored_iff (by decide) (by decide) ⟨by decide, by decide⟩
    (by
      intro layer hlayer
      simp only [examplePartition, List.mem_cons, List.not_mem_nil, or_false] at hlayer
      rcases hlayer with rfl | rfl
      · exact ⟨by decide, by decide⟩
      · exact ⟨by decide, by decide⟩)
    (by decide +kernel)

/-- A service named like a field of the manifest changes the file that is read. -/
theorem file_read_from_node :
    ¬∀ (partition : PartitionEntry) (assignment : PartitionTensorAssignment),
      partition.partitionId ≠ [] → 0 < partition.stageId →
        parsePartitionManifestText (partitionManifestJson partition assignment) =
          .ok (manifestOf partition assignment) := by
  intro h
  have hread := (parsePartitionManifestText_ok.mp
    (h { examplePartition with serviceName := ascii "partition_file" } exampleAssignment
      (by decide) (by decide))).1.2.2.2.2.1
  have hnode : parseJsonStringValue (partitionManifestJson
      { examplePartition with serviceName := ascii "partition_file" } exampleAssignment)
        (ascii "partition_file") = .ok (ascii "node-a") := by decide +kernel
  rw [hnode] at hread
  exact absurd (Except.ok.inj hread) (by decide)

end Restoring

section Plans

theorem last_of_endsWithKey {text : Bytes} (h : EndsWithKey (ascii "tensor_names") text) :
    text.getLast? = some 115 := by
  rcases h with rfl | ⟨front, rfl⟩
  · rfl
  · exact List.getLast?_append_of_ne_nil _ (List.cons_ne_nil _ _)

/-- The names that the plan of a partition asks for take no key over. -/
theorem missing_of_plan (tensors : List Bytes) (partitionId : Bytes)
    (components : PartitionComponents) :
    let assignment :=
      assignTensorsToPartition tensors (buildLlamaTensorNamePlan partitionId components)
    ∀ name ∈ assignment.missingRequiredNames ++ assignment.missingRequiredPrefixes,
      ¬EndsWithKey (ascii "tensor_names") name := by
  intro assignment name hname hends
  have hlast := last_of_endsWithKey hends
  rcases List.mem_append.mp hname with hname | hname
  · have hplan := List.mem_of_mem_filter (mem_sortNames.mp hname)
    have hrequired : name ∈ [ascii "token_embd.weight", ascii "output_norm.weight",
        ascii "output.weight"] := by
      unfold buildLlamaTensorNamePlan at hplan
      simp only [List.mem_append] at hplan
      rcases hplan with (hplan | hplan) | hplan
      · split at hplan
        · exact List.mem_append_left _ hplan
        · cases hplan
      · split at hplan
        · exact List.mem_append_left _ (List.mem_append_right [_] hplan)
        · cases hplan
      · split at hplan
        · exact List.mem_append_right [_, _] hplan
        · cases hplan
    have hnone : ∀ other ∈ [ascii "token_embd.weight", ascii "output_norm.weight",
        ascii "output.weight"], other.getLast? ≠ some 115 := by decide +kernel
    exact hnone name hrequired hlast
  · have hplan := List.mem_of_mem_filter (mem_sortNames.mp hname)
    obtain ⟨layer, -, rfl⟩ := List.mem_map.mp hplan
    have hdot : (layerPrefix layer).getLast? = some 46 :=
      List.getLast?_append_of_ne_nil _ (List.cons_ne_nil _ _)
    rw [hdot] at hlast
    exact absurd (Option.some.inj hlast) (by decide)

end Plans

end LayerInference.ManifestRoundTrip
