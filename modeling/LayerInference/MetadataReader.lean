import LayerInference.MetadataTexts
import LayerInference.OpenTexts

/-!
# Reading control metadata

Every field is found by a search of its own over the whole text, under its long
name first and then under its short one. A number that does not fit its type is
an error, an absent field keeps its default. What the reader makes of a text in
pieces is stated here for each kind of field.
-/

namespace LayerInference.MetadataReader

open ByteStrings TextStreams JsonText QuotedTexts JsonFields ManifestTexts NumberTexts JsonPieces
  TensorAbi PartitionGraph TensorPlans FieldRemoval OpenTexts MetadataTexts

section Reader

/-- An escape that is not known keeps its backslash. -/
def unescapeJsonString : Bytes → Bytes
  | [] => []
  | [c] => [c]
  | 92 :: esc :: rest =>
    match unescapeByte esc with
    | some c => c :: unescapeJsonString rest
    | none => 92 :: esc :: unescapeJsonString rest
  | c :: rest => c :: unescapeJsonString rest

def extractStringField (json key : Bytes) : Option Bytes :=
  (searchField key rawString json).map unescapeJsonString

def extractIntField (json key : Bytes) : Except Bytes (Option ℤ) :=
  match searchField key scanInteger json with
  | none => .ok none
  | some n =>
    match stoiValue n with
    | some value => .ok (some value)
    | none => .error (ascii "invalid integer metadata field: " ++ key)

def extractDoubleField (json key : Bytes) : Except Bytes (Option ℚ) :=
  match searchField key metadataNumber json with
  | none => .ok none
  | some x =>
    match stod x with
    | some value => .ok (some value)
    | none => .error (ascii "invalid floating-point metadata field: " ++ key)

def extractBoolField (json key : Bytes) : Option Bool := searchField key boolAt json

/-- The pattern `\[([^\]]*)\]`. -/
def bracketBody : Bytes → Option Bytes
  | 91 :: rest => if 93 ∈ rest then some (rest.takeWhile (· ≠ 93)) else none
  | _ => none

/-- What stands behind the integer at the start of a text. -/
def behindInteger (text : Bytes) : Bytes := (takeMinus text).2.dropWhile isDigit

theorem takeMinus_length (text : Bytes) : (takeMinus text).2.length ≤ text.length := by
  unfold takeMinus
  split
  · exact Nat.le_succ _
  · exact le_refl _

theorem behindInteger_length {text : Bytes} {n : ℤ} (h : scanInteger text = some n) :
    (behindInteger text).length < text.length := by
  have hminus := takeMinus_length text
  have hsplit := congrArg List.length
    (List.takeWhile_append_dropWhile (p := isDigit) (l := (takeMinus text).2))
  rw [List.length_append] at hsplit
  have hne : (takeMinus text).2.takeWhile isDigit ≠ [] := by
    intro hnil
    unfold scanInteger at h
    rw [if_pos hnil] at h
    cases h
  have hpos := List.length_pos_iff.mpr hne
  unfold behindInteger
  omega

/-- All integers of a text, from the left. -/
def integerTexts (text : Bytes) : List ℤ :=
  match text with
  | [] => []
  | b :: rest =>
    match _h : scanInteger (b :: rest) with
    | some n => n :: integerTexts (behindInteger (b :: rest))
    | none => integerTexts rest
termination_by text.length
decreasing_by
  · exact behindInteger_length ‹_›
  · exact Nat.lt_succ_self _

/-- `std::stoll` of a literal. -/
def stollValue (n : ℤ) : Option ℤ := if -2 ^ 63 ≤ n ∧ n < 2 ^ 63 then some n else none

/-- An alternative of two patterns. -/
def eitherMatch {β : Type} (p q : Bytes → Option β) (start : Bytes) : Option β :=
  match p start with
  | some found => some found
  | none => q start

/-- The pattern of the shape has two names, and takes the first place of either. -/
def searchShape (json : Bytes) : Option Bytes :=
  firstMatch (eitherMatch
    (fun start => (occursAt (ascii "shape") start).bind (afterColon bracketBody))
    fun start => (occursAt (ascii "sh") start).bind (afterColon bracketBody)) json

def extractShape (json : Bytes) : Except Bytes (List ℤ) :=
  match searchShape json with
  | none => .ok []
  | some body =>
    match (integerTexts body).mapM stollValue with
    | some shape => .ok shape
    | none => .error (ascii "invalid tensor shape dimension")

def extractStringAlias (json longKey shortKey : Bytes) : Option Bytes :=
  match extractStringField json longKey with
  | some value => some value
  | none => extractStringField json shortKey

def extractIntAlias (json longKey shortKey : Bytes) : Except Bytes (Option ℤ) :=
  match extractIntField json longKey with
  | .error message => .error message
  | .ok (some value) => .ok (some value)
  | .ok none => extractIntField json shortKey

def extractBoolAlias (json longKey shortKey : Bytes) : Option Bool :=
  match extractBoolField json longKey with
  | some value => some value
  | none => extractBoolField json shortKey

def inferSequenceLengthFromShape (shape : List ℤ) : ℤ :=
  match shape with
  | [] => 0
  | [seq] => if 0 < seq then toInt32 seq else 0
  | _ :: seq :: _ => if 0 < seq then toInt32 seq else 0

structure ParsedRequestMetadata where
  requestId : Bytes := []
  tokenIndex : ℤ := 0
  generationMode : Bytes := ascii "unknown"
  tensor : TensorMetadata := {}
  kvCacheEnabled : Bool := false
  activationPrecision : Bytes := ascii "fp32"
  transportMode : Bytes := ascii "binary_octet_stream"
  rebalanceProfile : Bytes := ascii "baseline"
  persistentSessionsEnabled : Bool := false
  topologyAwareRouting : Bool := false
  metadataLevel : Bytes := ascii "debug"
  nativeStageChainingEnabled : Bool := false
  temperature : Option ℚ := none
  topK : Option ℤ := none
  topP : Option ℚ := none
  seed : Option ℤ := none
  nextTokenId : Option ℤ := none
  stageInputTokenCount : ℤ := 0

/-- The conversion of a double to a 64-bit integer. Outside the range its result
is left to the platform. -/
def toLongLong (overflow : ℚ → ℤ) (x : ℚ) : ℤ :=
  let n := if 0 ≤ x then ⌊x⌋ else ⌈x⌉
  if -2 ^ 63 ≤ n ∧ n < 2 ^ 63 then n else overflow x

def parseRequestMetadata (overflow : ℚ → ℤ) (json : Bytes) : Except Bytes ParsedRequestMetadata := do
  let requestId := extractStringAlias json (ascii "request_id") (ascii "rid")
  let tokenIndex ← extractIntAlias json (ascii "token_index") (ascii "ti")
  let nextTokenId ← extractIntAlias json (ascii "next_token_id") (ascii "nt")
  let generationMode := extractStringAlias json (ascii "generation_mode") (ascii "gm")
  let activationPrecision := extractStringAlias json (ascii "activation_precision") (ascii "ap")
  let transportMode := extractStringAlias json (ascii "transport_mode") (ascii "tm")
  let rebalanceProfile := extractStringField json (ascii "rebalance_profile")
  let persistentSessionsEnabled :=
    extractBoolAlias json (ascii "persistent_sessions_enabled") (ascii "ps")
  let topologyAwareRouting := extractBoolField json (ascii "topology_aware_routing")
  let metadataLevel := extractStringAlias json (ascii "metadata_level") (ascii "ml")
  let nativeStageChainingEnabled :=
    extractBoolAlias json (ascii "native_stage_chaining_enabled") (ascii "nsc")
  let dtype := extractStringAlias json (ascii "dtype") (ascii "dt")
  let byteOrder := extractStringAlias json (ascii "byte_order") (ascii "bo")
  let shape ← extractShape json
  let kvCacheEnabled := extractBoolAlias json (ascii "kv_cache_enabled") (ascii "kv")
  let temperature ← extractDoubleField json (ascii "temperature")
  let topK ← extractIntField json (ascii "top_k")
  let topP ← extractDoubleField json (ascii "top_p")
  let seed ← extractDoubleField json (ascii "seed")
  return {
    requestId := requestId.getD []
    tokenIndex := tokenIndex.getD 0
    generationMode := generationMode.getD (ascii "unknown")
    tensor := ⟨dtype.getD [], shape, byteOrder.getD (ascii "little")⟩
    kvCacheEnabled := kvCacheEnabled.getD false
    activationPrecision := activationPrecision.getD (ascii "fp32")
    transportMode := transportMode.getD (ascii "binary_octet_stream")
    rebalanceProfile := rebalanceProfile.getD (ascii "baseline")
    persistentSessionsEnabled := persistentSessionsEnabled.getD false
    topologyAwareRouting := topologyAwareRouting.getD false
    metadataLevel := metadataLevel.getD (ascii "debug")
    nativeStageChainingEnabled := nativeStageChainingEnabled.getD false
    temperature := temperature
    topK := topK
    topP := topP
    seed := seed.map (toLongLong overflow)
    nextTokenId := nextTokenId
    stageInputTokenCount := inferSequenceLengthFromShape shape
  }

end Reader

section Escapes

/-- A string after one writing and one reading: odd control bytes stay escaped. -/
def settled (value : Bytes) : Bytes := unescapeJsonString (jsonEscape value)

/-- A byte that its escape denotes. -/
def isPlainByte (c : UInt8) : Bool := 0x20 ≤ c || c == 8 || c == 9 || c == 10 || c == 12 || c == 13

theorem unescape_cons {c : UInt8} (h : c ≠ 92) (rest : Bytes) :
    unescapeJsonString (c :: rest) = c :: unescapeJsonString rest := by
  cases rest with
  | nil => rfl
  | cons d rest =>
    rw [unescapeJsonString.eq_def (c :: d :: rest)]
    split
    · next heq => cases heq
    · next heq => cases heq
    · next heq => exact absurd (List.cons.inj heq).1 h
    · next heq =>
      cases heq
      rfl

theorem unescape_known {esc c : UInt8} (h : unescapeByte esc = some c) (rest : Bytes) :
    unescapeJsonString (92 :: esc :: rest) = c :: unescapeJsonString rest := by
  rw [unescapeJsonString, h]

theorem unescape_unknown {esc : UInt8} (h : unescapeByte esc = none) (rest : Bytes) :
    unescapeJsonString (92 :: esc :: rest) = 92 :: esc :: unescapeJsonString rest := by
  rw [unescapeJsonString, h]

/-- The bytes of a string that one byte becomes. -/
def settledByte (c : UInt8) : Bytes := if isPlainByte c then [c] else jsonEscapeByte c

/-- One byte, written and read. -/
theorem unescape_escapeByte (c : UInt8) (rest : Bytes) :
    unescapeJsonString (jsonEscapeByte c ++ rest) = settledByte c ++ unescapeJsonString rest := by
  unfold settledByte
  by_cases hquote : c = 34
  · subst hquote
    exact unescape_known rfl rest
  by_cases hslash : c = 92
  · subst hslash
    exact unescape_known rfl rest
  by_cases hback : c = 8
  · subst hback
    exact unescape_known rfl rest
  by_cases hfeed : c = 12
  · subst hfeed
    exact unescape_known rfl rest
  by_cases hline : c = 10
  · subst hline
    exact unescape_known rfl rest
  by_cases hreturn : c = 13
  · subst hreturn
    exact unescape_known rfl rest
  by_cases htab : c = 9
  · subst htab
    exact unescape_known rfl rest
  unfold jsonEscapeByte
  rw [if_neg hquote, if_neg hslash, if_neg hback, if_neg hfeed, if_neg hline, if_neg hreturn,
    if_neg htab]
  by_cases hcontrol : c < 0x20
  · have hplain : isPlainByte c = false := by
      have hlow : ¬(0x20 : UInt8) ≤ c := UInt8.not_le.mpr hcontrol
      unfold isPlainByte
      rw [decide_eq_false hlow, beq_eq_false_iff_ne.mpr hback, beq_eq_false_iff_ne.mpr htab,
        beq_eq_false_iff_ne.mpr hline, beq_eq_false_iff_ne.mpr hfeed,
        beq_eq_false_iff_ne.mpr hreturn]
      rfl
    have hhigh := hexDigit_ne (nibble_lt (c >>> 4))
    have hlow := hexDigit_ne (nibble_lt c)
    rw [if_pos hcontrol, if_neg (by rw [hplain]; exact Bool.false_ne_true)]
    show unescapeJsonString (92 :: 117 :: 48 :: 48 :: _ :: _ :: rest) = _
    rw [unescape_unknown rfl, unescape_cons (by decide), unescape_cons (by decide),
      unescape_cons hhigh.2, unescape_cons hlow.2]
    rfl
  · have hplain : isPlainByte c = true := by
      have hhigh : (0x20 : UInt8) ≤ c := UInt8.not_lt.mp hcontrol
      unfold isPlainByte
      rw [decide_eq_true hhigh]
      rfl
    rw [if_neg hcontrol, if_pos hplain]
    exact unescape_cons hslash rest

theorem settled_eq (value : Bytes) : settled value = value.flatMap settledByte := by
  unfold settled
  induction value with
  | nil => rfl
  | cons c value ih =>
    rw [jsonEscape_cons, unescape_escapeByte, ih]
    rfl

/-- A string without odd control bytes is read as it was. -/
theorem settled_of_plain {value : Bytes} (h : ∀ c ∈ value, isPlainByte c = true) :
    settled value = value := by
  rw [settled_eq]
  induction value with
  | nil => rfl
  | cons c value ih =>
    rw [List.flatMap_cons, settledByte, if_pos (h c List.mem_cons_self),
      ih fun d hd => h d (List.mem_cons_of_mem c hd)]
    rfl

theorem isPlainByte_settledByte {c b : UInt8} (h : b ∈ settledByte c) : isPlainByte b = true := by
  have hall : ∀ c < 256, (settledByte (UInt8.ofNat c)).all isPlainByte = true := by decide +kernel
  have hc := hall c.toNat c.toNat_lt
  rw [UInt8.ofNat_toNat] at hc
  exact List.all_eq_true.mp hc b h

/-- Writing and reading again changes nothing. -/
theorem settled_settled (value : Bytes) : settled (settled value) = settled value := by
  refine settled_of_plain fun b hb => ?_
  rw [settled_eq] at hb
  obtain ⟨c, -, hc⟩ := List.mem_flatMap.mp hb
  exact isPlainByte_settledByte hc

end Escapes

section Fields

variable {key : Bytes} {pieces : List Piece}

theorem extractStringField_reads (hkey : IsName key) {value : Bytes} {mark : Mark}
    (h : ∃ rest, behind key pieces = some (.string value mark :: rest)) (tail : Bytes) :
    extractStringField (piecesText pieces ++ tail) key = some (settled value) := by
  unfold extractStringField
  rw [searchField_reads hkey (reads_string value mark) h]
  rfl

theorem extractStringField_past (hkey : IsName key) (h : behind key pieces = none)
    (tail : Bytes) :
    extractStringField (piecesText pieces ++ tail) key = extractStringField tail key := by
  unfold extractStringField
  rw [searchField_past hkey _ h]

theorem extractStringField_some (hkey : IsName key) {value : Bytes} {mark : Mark}
    (h : ∃ rest, behind key pieces = some (.string value mark :: rest)) :
    extractStringField (piecesText pieces) key = some (settled value) := by
  have hreads := extractStringField_reads hkey h []
  rwa [List.append_nil] at hreads

theorem extractStringField_none (hkey : IsName key) (h : behind key pieces = none) :
    extractStringField (piecesText pieces) key = none := by
  unfold extractStringField
  rw [searchField_none hkey _ h]
  rfl

theorem extractBoolField_reads (hkey : IsName key) {value : Bool} {mark : Mark}
    (h : ∃ rest, behind key pieces = some (flagPiece value mark :: rest)) (tail : Bytes) :
    extractBoolField (piecesText pieces ++ tail) key = some value :=
  searchField_reads hkey (reads_flag value mark) h tail

theorem extractBoolField_past (hkey : IsName key) (h : behind key pieces = none) (tail : Bytes) :
    extractBoolField (piecesText pieces ++ tail) key = extractBoolField tail key :=
  searchField_past hkey boolAt h tail

theorem extractBoolField_some (hkey : IsName key) {value : Bool} {mark : Mark}
    (h : ∃ rest, behind key pieces = some (flagPiece value mark :: rest)) :
    extractBoolField (piecesText pieces) key = some value := by
  have hreads := extractBoolField_reads hkey h []
  rwa [List.append_nil] at hreads

theorem extractBoolField_none (hkey : IsName key) (h : behind key pieces = none) :
    extractBoolField (piecesText pieces) key = none := searchField_none hkey _ h

theorem extractIntField_reads (hkey : IsName key) {n : ℤ} {mark : Mark}
    (h : ∃ rest, behind key pieces = some (integerPiece n mark :: rest))
    (hn : -2 ^ 31 ≤ n ∧ n < 2 ^ 31) (tail : Bytes) :
    extractIntField (piecesText pieces ++ tail) key = .ok (some n) := by
  have hscan := reads_integer (decimalLiteral_wellFormed n) mark
  rw [decimalLiteral_integer] at hscan
  unfold extractIntField
  rw [searchField_reads hkey hscan h]
  dsimp only
  rw [stoiValue, if_pos hn]

theorem extractIntField_past (hkey : IsName key) (h : behind key pieces = none) (tail : Bytes) :
    extractIntField (piecesText pieces ++ tail) key = extractIntField tail key := by
  unfold extractIntField
  rw [searchField_past hkey _ h]

theorem extractIntField_some (hkey : IsName key) {n : ℤ} {mark : Mark}
    (h : ∃ rest, behind key pieces = some (integerPiece n mark :: rest))
    (hn : -2 ^ 31 ≤ n ∧ n < 2 ^ 31) :
    extractIntField (piecesText pieces) key = .ok (some n) := by
  have hreads := extractIntField_reads hkey h hn []
  rwa [List.append_nil] at hreads

/-- What is read is an integer of 32 bits. -/
theorem extractIntField_range {json : Bytes} {value : Option ℤ}
    (h : extractIntField json key = .ok value) : ∀ n ∈ value, -2 ^ 31 ≤ n ∧ n < 2 ^ 31 := by
  unfold extractIntField at h
  cases hsearch : searchField key scanInteger json with
  | none =>
    rw [hsearch] at h
    cases h
    exact fun n hn => by cases hn
  | some n =>
    rw [hsearch] at h
    dsimp only at h
    by_cases hrange : -2 ^ 31 ≤ n ∧ n < 2 ^ 31
    · rw [stoiValue, if_pos hrange] at h
      cases h
      exact fun m hm => Option.some.inj hm ▸ hrange
    · rw [stoiValue, if_neg hrange] at h
      cases h

theorem extractIntField_none (hkey : IsName key) (h : behind key pieces = none) :
    extractIntField (piecesText pieces) key = .ok none := by
  unfold extractIntField
  rw [searchField_none hkey _ h]

/-- What the reader makes of a number. -/
def readDouble (key : Bytes) (x : ℚ) : Except Bytes (Option ℚ) :=
  match stod x with
  | some value => .ok (some value)
  | none => .error (ascii "invalid floating-point metadata field: " ++ key)

theorem extractDoubleField_some (hkey : IsName key) {l : NumberLiteral} {hl : l.WellFormed}
    {mark : Mark} (h : ∃ rest, behind key pieces = some (literalPiece l hl mark :: rest)) :
    extractDoubleField (piecesText pieces) key = readDouble key l.value := by
  obtain ⟨rest, hrest⟩ := h
  unfold extractDoubleField
  rw [searchField_some hkey hrest (metadataNumber_pieces hl mark rest)]
  rfl

theorem extractDoubleField_past (hkey : IsName key) (h : behind key pieces = none)
    (tail : Bytes) :
    extractDoubleField (piecesText pieces ++ tail) key = extractDoubleField tail key := by
  unfold extractDoubleField
  rw [searchField_past hkey _ h]

theorem extractDoubleField_none (hkey : IsName key) (h : behind key pieces = none) :
    extractDoubleField (piecesText pieces) key = .ok none := by
  unfold extractDoubleField
  rw [searchField_none hkey _ h]

/-- A value that no number starts, and no other field of the name. -/
theorem extractDoubleField_null (hkey : IsName key) {rest : List Piece}
    (h : behind key pieces = some (topPPiece none :: rest)) (hrest : behind key rest = none) :
    extractDoubleField (piecesText pieces) key = .ok none := by
  have hnull : behind key (topPPiece none :: rest) = none := hrest
  have hnumber : metadataNumber (skipSpaces (piecesText (topPPiece none :: rest))) = none := rfl
  unfold extractDoubleField
  rw [searchField_pieces hkey, h]
  dsimp only
  rw [hnumber]
  dsimp only
  rw [searchField_none hkey _ hnull]

/-- An optional number, as the reader takes it. -/
def readOptional (key : Bytes) : Option ℚ → Except Bytes (Option ℚ)
  | none => .ok none
  | some x => readDouble key x

end Fields

section Shapes

variable {β : Type} {pieces : List Piece}

theorem eitherMatch_none {p q : Bytes → Option β} {start : Bytes} (h : p start = none) :
    eitherMatch p q start = q start := by
  unfold eitherMatch
  rw [h]

theorem eitherMatch_some {p q : Bytes → Option β} {start : Bytes} {found : β}
    (h : p start = some found) : eitherMatch p q start = some found := by
  unfold eitherMatch
  rw [h]

/-- A search for either of two patterns, one of which is nowhere. -/
theorem firstMatch_either {p q : Bytes → Option β} {text : Bytes} :
    (firstMatch p text = none → firstMatch (eitherMatch p q) text = firstMatch q text) ∧
      (firstMatch q text = none → firstMatch (eitherMatch p q) text = firstMatch p text) := by
  induction text with
  | nil => exact ⟨fun _ => rfl, fun _ => rfl⟩
  | cons b text ih =>
    unfold firstMatch eitherMatch
    cases hp : p (b :: text) with
    | none =>
      cases hq : q (b :: text) with
      | none => exact ih
      | some found => exact ⟨fun _ => rfl, fun h => (by cases h)⟩
    | some found => exact ⟨fun h => (by cases h), fun _ => rfl⟩

/-- The integers that a list writes. -/
theorem integerTexts_some {b : UInt8} {rest : Bytes} {n : ℤ}
    (h : scanInteger (b :: rest) = some n) :
    integerTexts (b :: rest) = n :: integerTexts (behindInteger (b :: rest)) := by
  rw [integerTexts]
  split
  · next m hm =>
    rw [h] at hm
    cases hm
    rfl
  · next hnone =>
    rw [h] at hnone
    cases hnone

theorem integerTexts_none {b : UInt8} {rest : Bytes} (h : scanInteger (b :: rest) = none) :
    integerTexts (b :: rest) = integerTexts rest := by
  rw [integerTexts]
  split
  · next m hm =>
    rw [h] at hm
    cases hm
  · rfl

/-- One integer in front of something that does not continue it. -/
theorem integerTexts_decimal (n : ℤ) {rest : Bytes}
    (hrest : rest = [] ∨ ∃ tail, rest = 44 :: tail) :
    integerTexts (decimal n ++ rest) = n :: integerTexts rest := by
  have hwf := decimalLiteral_wellFormed n
  have htext := decimalLiteral_text n
  have hstop : ∀ b ∈ rest.head?, isDigit b = false := by
    intro b hb
    rcases hrest with rfl | ⟨tail, rfl⟩
    · cases hb
    · rw [← Option.some.inj hb]
      rfl
  have hminus : takeMinus (decimal n ++ rest) = (decide (n < 0), decimalNat n.natAbs ++ rest) := by
    rw [← htext, takeMinus_text hwf]
    rfl
  have htake := takeWhile_isDigit_append (decimalNat_digits n.natAbs) hstop
  have hscan : scanInteger (decimal n ++ rest) = some n := by
    have hinteger := decimalLiteral_integer n
    unfold scanInteger
    rw [hminus]
    dsimp only
    rw [htake.1, if_neg (decimalNat_ne_nil _), ← apply_ite some]
    exact congrArg some hinteger
  have hbehind : behindInteger (decimal n ++ rest) = rest := by
    unfold behindInteger
    rw [hminus]
    exact htake.2
  obtain ⟨b, tail, hcons⟩ : ∃ b tail, decimal n ++ rest = b :: tail := by
    cases hdecimal : decimal n ++ rest with
    | nil =>
      rw [hdecimal] at hscan
      cases hscan
    | cons b tail => exact ⟨b, tail, rfl⟩
  rw [hcons] at hscan hbehind ⊢
  rw [integerTexts_some hscan, hbehind]

theorem joinInts_cons (value next : ℤ) (values : List ℤ) :
    joinInts (value :: next :: values) = decimal value ++ 44 :: joinInts (next :: values) := by
  unfold joinInts
  rw [List.map_cons, List.map_cons, List.intercalate_cons_cons, List.append_assoc]
  rfl

theorem integerTexts_joinInts (values : List ℤ) : integerTexts (joinInts values) = values := by
  induction values with
  | nil => rw [joinInts, List.map_nil, List.intercalate_nil, integerTexts]
  | cons value values ih =>
    cases values with
    | nil =>
      have h := integerTexts_decimal value (Or.inl rfl)
      rw [List.append_nil, integerTexts] at h
      rw [joinInts, List.map_singleton, List.intercalate_singleton]
      exact h
    | cons next values =>
      rw [joinInts_cons, integerTexts_decimal value (Or.inr ⟨_, rfl⟩), integerTexts_none rfl, ih]

/-- A list of integers is written with signs, digits and commas. -/
theorem mem_joinInts {values : List ℤ} {b : UInt8} (h : b ∈ joinInts values) :
    b = 44 ∨ b = 45 ∨ isDigit b = true := by
  induction values with
  | nil => exact absurd h List.not_mem_nil
  | cons value values ih =>
    cases values with
    | nil =>
      rw [joinInts, List.map_singleton, List.intercalate_singleton] at h
      exact Or.inr (mem_decimal h)
    | cons next values =>
      rw [joinInts_cons, List.mem_append, List.mem_cons] at h
      rcases h with h | rfl | h
      · exact Or.inr (mem_decimal h)
      · exact Or.inl rfl
      · exact ih h

/-- A list of integers is a bracket with its text. -/
theorem reads_shape (shape : List ℤ) (mark : Mark) :
    Reads bracketBody (shapePiece shape mark) (joinInts shape) := by
  intro tail
  have hbody : ∀ b ∈ joinInts shape, decide (b ≠ 93) = true := by
    intro b hb
    rw [decide_eq_true_eq]
    rintro rfl
    rcases mem_joinInts hb with h | h | h <;> cases h
  have htext : (shapePiece shape mark).text ++ tail =
      91 :: (joinInts shape ++ 93 :: (mark.byte :: tail)) := by
    show ((91 :: (joinInts shape ++ [93])) ++ [mark.byte]) ++ tail = _
    rw [List.cons_append, List.cons_append, List.append_assoc, List.append_assoc]
    rfl
  rw [htext, skipSpaces_cons rfl, bracketBody, if_pos]
  · rw [List.takeWhile_append_of_pos hbody, List.takeWhile_cons_of_neg (by decide),
      List.append_nil]
  · rw [List.mem_append]
    exact Or.inr List.mem_cons_self

theorem bracketBody_pieces (shape : List ℤ) (mark : Mark) (rest : List Piece) :
    bracketBody (skipSpaces (piecesText (shapePiece shape mark :: rest))) =
      some (joinInts shape) := reads_shape shape mark (piecesText rest)

theorem mapM_stollValue {shape : List ℤ} (h : ∀ d ∈ shape, -2 ^ 63 ≤ d ∧ d < 2 ^ 63) :
    shape.mapM stollValue = some shape := by
  induction shape with
  | nil => rfl
  | cons d shape ih =>
    rw [List.mapM_cons, stollValue, if_pos (h d List.mem_cons_self),
      ih fun e he => h e (List.mem_cons_of_mem d he)]
    rfl

/-- The shape is read in front of everything that follows it. -/
theorem extractShape_reads {front : List Piece} {content : Bytes} {mark : Mark} {shape : List ℤ}
    {isName : IsName (ascii "shape")} {mark' : Mark} {rest : List Piece}
    (hlong : behind (ascii "shape") front = none) (hshort : behind (ascii "sh") front = none)
    (hfits : ∀ d ∈ shape, -2 ^ 63 ≤ d ∧ d < 2 ^ 63) (tail : Bytes) :
    extractShape (piecesText (front ++ .string content mark :: .key (ascii "shape") isName ::
      shapePiece shape mark' :: rest) ++ tail) = .ok shape := by
  set text := (shapePiece shape mark').text ++ (piecesText rest ++ tail) with htext
  have hplace : piecesText (front ++ .string content mark :: .key (ascii "shape") isName ::
      shapePiece shape mark' :: rest) ++ tail =
        (piecesText front ++ quoted content ++ [mark.byte]) ++ jsonField (ascii "shape") text := by
    have hfield : (Piece.key (ascii "shape") isName).text ++ text =
        jsonField (ascii "shape") text :=
      jsonField_append (ascii "shape") [] text
    have hstring : (Piece.string content mark).text = quoted content ++ [mark.byte] := rfl
    rw [piecesText_append, piecesText_cons, piecesText_cons, piecesText_cons, ← hfield, htext,
      hstring]
    simp only [List.append_assoc]
  have hstop : Stop mark.byte := by
    cases mark
    exacts [stop_comma, stop_brace]
  have hfront : ∀ key, IsName key → behind key front = none →
      Fieldless key (piecesText front ++ quoted content ++ [mark.byte]) := by
    intro key hkey hbehind
    have hpieces : piecesText front ++ quoted content ++ [mark.byte] =
        piecesText (front ++ [.string content mark]) := by
      rw [piecesText_append, List.append_assoc]
      exact congrArg (piecesText front ++ ·) (List.append_nil _).symm
    rw [hpieces]
    exact fieldless_pieces hkey ((behind_append hbehind _).trans rfl)
  have hpast : searchShape (piecesText front ++ quoted content ++ [mark.byte] ++
      jsonField (ascii "shape") text) = searchShape (jsonField (ascii "shape") text) := by
    refine firstMatch_append fun before start hsplit hne => ?_
    have hno : ∀ key, IsName key → behind key front = none →
        (occursAt key (start ++ jsonField (ascii "shape") text)).bind (afterColon bracketBody) =
          none := fun key hkey hbehind =>
      fieldMatch_front hkey hstop (hfront key hkey hbehind) hsplit hne _
    rw [eitherMatch_none (hno _ isName hlong)]
    exact hno _ (by decide) hshort
  have hfound : searchShape (jsonField (ascii "shape") text) = some (joinInts shape) := by
    have hmatch : fieldMatch (ascii "shape") bracketBody (jsonField (ascii "shape") text) =
        some (joinInts shape) := by
      have hskip : skipSpaces text = text := skipSpaces_cons rfl _
      rw [fieldMatch_field hskip, ← hskip, htext]
      exact reads_shape shape mark' _
    exact firstMatch_cons_some (eitherMatch_some hmatch)
  unfold extractShape
  rw [hplace, hpast, hfound]
  dsimp only
  rw [integerTexts_joinInts, mapM_stollValue hfits]

/-- The shape is read under its long name. -/
theorem extractShape_long {shape : List ℤ} {mark : Mark}
    (h : ∃ rest, behind (ascii "shape") pieces = some (shapePiece shape mark :: rest))
    (hshort : behind (ascii "sh") pieces = none)
    (hfits : ∀ d ∈ shape, -2 ^ 63 ≤ d ∧ d < 2 ^ 63) :
    extractShape (piecesText pieces) = .ok shape := by
  obtain ⟨rest, hrest⟩ := h
  have hnone := searchField_none (by decide) bracketBody hshort
  have hsome := searchField_some (by decide) hrest (bracketBody_pieces shape mark rest)
  have hsearch : searchShape (piecesText pieces) = some (joinInts shape) :=
    (firstMatch_either.2 hnone).trans hsome
  unfold extractShape
  rw [hsearch]
  dsimp only
  rw [integerTexts_joinInts, mapM_stollValue hfits]

/-- The shape is read under its short name. -/
theorem extractShape_short {shape : List ℤ} {mark : Mark}
    (h : ∃ rest, behind (ascii "sh") pieces = some (shapePiece shape mark :: rest))
    (hlong : behind (ascii "shape") pieces = none)
    (hfits : ∀ d ∈ shape, -2 ^ 63 ≤ d ∧ d < 2 ^ 63) :
    extractShape (piecesText pieces) = .ok shape := by
  obtain ⟨rest, hrest⟩ := h
  have hnone := searchField_none (by decide) bracketBody hlong
  have hsome := searchField_some (by decide) hrest (bracketBody_pieces shape mark rest)
  have hsearch : searchShape (piecesText pieces) = some (joinInts shape) :=
    (firstMatch_either.1 hnone).trans hsome
  unfold extractShape
  rw [hsearch]
  dsimp only
  rw [integerTexts_joinInts, mapM_stollValue hfits]

end Shapes

section Aliases

variable {longKey shortKey : Bytes} {pieces : List Piece}

theorem extractStringAlias_reads (hkey : IsName longKey) {value : Bytes} {mark : Mark}
    (h : ∃ rest, behind longKey pieces = some (.string value mark :: rest)) (tail : Bytes) :
    extractStringAlias (piecesText pieces ++ tail) longKey shortKey = some (settled value) := by
  rw [extractStringAlias, extractStringField_reads hkey h]

theorem extractStringAlias_long (hkey : IsName longKey) {value : Bytes} {mark : Mark}
    (h : ∃ rest, behind longKey pieces = some (.string value mark :: rest)) :
    extractStringAlias (piecesText pieces) longKey shortKey = some (settled value) := by
  rw [extractStringAlias, extractStringField_some hkey h]

theorem extractStringAlias_short (hlong : IsName longKey) (hshort : IsName shortKey)
    {value : Bytes} {mark : Mark} (hnone : behind longKey pieces = none)
    (h : ∃ rest, behind shortKey pieces = some (.string value mark :: rest)) :
    extractStringAlias (piecesText pieces) longKey shortKey = some (settled value) := by
  rw [extractStringAlias, extractStringField_none hlong hnone]
  exact extractStringField_some hshort h

theorem extractStringAlias_none (hlong : IsName longKey) (hshort : IsName shortKey)
    (hnone : behind longKey pieces = none) (hnone' : behind shortKey pieces = none) :
    extractStringAlias (piecesText pieces) longKey shortKey = none := by
  rw [extractStringAlias, extractStringField_none hlong hnone]
  exact extractStringField_none hshort hnone'

theorem extractBoolAlias_reads (hkey : IsName longKey) {value : Bool} {mark : Mark}
    (h : ∃ rest, behind longKey pieces = some (flagPiece value mark :: rest)) (tail : Bytes) :
    extractBoolAlias (piecesText pieces ++ tail) longKey shortKey = some value := by
  rw [extractBoolAlias, extractBoolField_reads hkey h]

theorem extractBoolAlias_long (hkey : IsName longKey) {value : Bool} {mark : Mark}
    (h : ∃ rest, behind longKey pieces = some (flagPiece value mark :: rest)) :
    extractBoolAlias (piecesText pieces) longKey shortKey = some value := by
  rw [extractBoolAlias, extractBoolField_some hkey h]

theorem extractBoolAlias_short (hlong : IsName longKey) (hshort : IsName shortKey)
    {value : Bool} {mark : Mark} (hnone : behind longKey pieces = none)
    (h : ∃ rest, behind shortKey pieces = some (flagPiece value mark :: rest)) :
    extractBoolAlias (piecesText pieces) longKey shortKey = some value := by
  rw [extractBoolAlias, extractBoolField_none hlong hnone]
  exact extractBoolField_some hshort h

theorem extractIntAlias_reads (hkey : IsName longKey) {n : ℤ} {mark : Mark}
    (h : ∃ rest, behind longKey pieces = some (integerPiece n mark :: rest))
    (hn : -2 ^ 31 ≤ n ∧ n < 2 ^ 31) (tail : Bytes) :
    extractIntAlias (piecesText pieces ++ tail) longKey shortKey = .ok (some n) := by
  rw [extractIntAlias, extractIntField_reads hkey h hn]

theorem extractIntAlias_long (hkey : IsName longKey) {n : ℤ} {mark : Mark}
    (h : ∃ rest, behind longKey pieces = some (integerPiece n mark :: rest))
    (hn : -2 ^ 31 ≤ n ∧ n < 2 ^ 31) :
    extractIntAlias (piecesText pieces) longKey shortKey = .ok (some n) := by
  rw [extractIntAlias, extractIntField_some hkey h hn]

theorem extractIntAlias_short (hlong : IsName longKey) (hshort : IsName shortKey)
    {n : ℤ} {mark : Mark} (hnone : behind longKey pieces = none)
    (h : ∃ rest, behind shortKey pieces = some (integerPiece n mark :: rest))
    (hn : -2 ^ 31 ≤ n ∧ n < 2 ^ 31) :
    extractIntAlias (piecesText pieces) longKey shortKey = .ok (some n) := by
  rw [extractIntAlias, extractIntField_none hlong hnone]
  exact extractIntField_some hshort h hn

theorem extractIntAlias_none (hlong : IsName longKey) (hshort : IsName shortKey)
    (hnone : behind longKey pieces = none) (hnone' : behind shortKey pieces = none) :
    extractIntAlias (piecesText pieces) longKey shortKey = .ok none := by
  rw [extractIntAlias, extractIntField_none hlong hnone]
  exact extractIntField_none hshort hnone'

end Aliases

end LayerInference.MetadataReader
