import LayerInference.FallibleRuns
import LayerInference.MetadataHops

/-!
# Two forms of a request, and the strings in them

The gateway writes a request under short names or under long ones. The reader
gets the same fields from both, apart from the metadata level, which the short
form leaves out. A string comes back as it was written when every byte of it has
an escape that the reader knows; the other control bytes come back as the six
characters of their escape.
-/

namespace LayerInference.MetadataForms

open ByteStrings JsonText FallibleRuns JsonPieces NumberTexts MetadataTexts MetadataReader
  MetadataRoundTrips MetadataHops

variable (overflow : ℚ → ℤ)

section Forms

/-- The fields without the metadata level. -/
def levelFree (fields : ParsedRequestMetadata) : ParsedRequestMetadata :=
  { fields with metadataLevel := [] }

/-- The number controls do not depend on the metadata level. -/
theorem readControls_levelFree (fields : ParsedRequestMetadata) (temperature topP seed : Option ℚ) :
    (readControls overflow fields temperature topP seed).map levelFree =
      readControls overflow (levelFree fields) temperature topP seed := by
  unfold readControls
  cases readOptional (ascii "temperature") temperature with
  | error message => rfl
  | ok t =>
    cases readOptional (ascii "top_p") topP with
    | error message => rfl
    | ok p =>
      cases readOptional (ascii "seed") seed with
      | error message => rfl
      | ok s => rfl

/-- What is read of a request, up to the level, does not depend on the level. -/
theorem parse_levelFree {m : RequestMetadata} (hfits : RequestMetadata.Fits m) (level : Bytes) :
    (parseRequestMetadata overflow (requestMetadataJson { m with metadataLevel := level })).map
        levelFree =
      readControls overflow (levelFree (requestFields m)) (some (sixDigits.round m.temperature))
        (m.topP.map (Rounding.roundTo (10 ^ (-6 : ℤ)))) (m.seed.map Int.cast) := by
  have hlevel : RequestMetadata.Fits { m with metadataLevel := level } :=
    ⟨hfits.tokenIndex, hfits.topK, hfits.shape⟩
  rw [parse_request overflow hlevel, readControls_levelFree]
  rfl

/-- The short form and the long form of a request are read as the same fields,
apart from the metadata level; a number that cannot be read is the same error. -/
theorem forms_read_alike {m : RequestMetadata} (hfits : RequestMetadata.Fits m)
    {compact verbose : Bytes} (hcompact : metadataLevelIsCompact compact = true)
    (hverbose : metadataLevelIsCompact verbose = false) :
    requestMetadataJson { m with metadataLevel := compact } =
        piecesText (compactPieces m) ∧
      requestMetadataJson { m with metadataLevel := verbose } =
        piecesText (debugPieces { m with metadataLevel := verbose }) ∧
      (parseRequestMetadata overflow
          (requestMetadataJson { m with metadataLevel := compact })).map levelFree =
        (parseRequestMetadata overflow
          (requestMetadataJson { m with metadataLevel := verbose })).map levelFree := by
  refine ⟨?_, ?_, ?_⟩
  · unfold requestMetadataJson requestMetadataPieces
    rw [if_pos hcompact]
    rfl
  · unfold requestMetadataJson requestMetadataPieces
    rw [if_neg (by rw [hverbose]; exact Bool.false_ne_true)]
  · rw [parse_levelFree overflow hfits, parse_levelFree overflow hfits]

/-- A request in both forms. -/
theorem forms_read_alike_seeded :
    requestMetadataJson { seededRequest with metadataLevel := ascii "minimal" } =
        piecesText (compactPieces seededRequest) ∧
      requestMetadataJson { seededRequest with metadataLevel := ascii "debug" } =
        piecesText (debugPieces { seededRequest with metadataLevel := ascii "debug" }) ∧
      (parseRequestMetadata (fun _ => 0)
          (requestMetadataJson { seededRequest with metadataLevel := ascii "minimal" })).map
            levelFree =
        (parseRequestMetadata (fun _ => 0)
          (requestMetadataJson { seededRequest with metadataLevel := ascii "debug" })).map
            levelFree :=
  forms_read_alike (fun _ => 0) seededRequest_emitted.fits (by decide) (by decide)

end Forms

section Strings

/-- The string fields that the reader looks for. -/
inductive StringField where
  | requestId
  | generationMode
  | activationPrecision
  | transportMode
  | rebalanceProfile
  | metadataLevel
  | dtype
  | byteOrder

/-- The names of a field, in the order of the searches. -/
def StringField.names : StringField → List Bytes
  | .requestId => [ascii "request_id", ascii "rid"]
  | .generationMode => [ascii "generation_mode", ascii "gm"]
  | .activationPrecision => [ascii "activation_precision", ascii "ap"]
  | .transportMode => [ascii "transport_mode", ascii "tm"]
  | .rebalanceProfile => [ascii "rebalance_profile"]
  | .metadataLevel => [ascii "metadata_level", ascii "ml"]
  | .dtype => [ascii "dtype", ascii "dt"]
  | .byteOrder => [ascii "byte_order", ascii "bo"]

/-- The value of a field. -/
def StringField.value : StringField → ParsedRequestMetadata → Bytes
  | .requestId, fields => fields.requestId
  | .generationMode, fields => fields.generationMode
  | .activationPrecision, fields => fields.activationPrecision
  | .transportMode, fields => fields.transportMode
  | .rebalanceProfile, fields => fields.rebalanceProfile
  | .metadataLevel, fields => fields.metadataLevel
  | .dtype, fields => fields.tensor.dtype
  | .byteOrder, fields => fields.tensor.byteOrder

/-- The first name of the field that the text has stands in front of a string. -/
def Places (field : StringField) (value : Bytes) (pieces : List Piece) : Prop :=
  ∃ mark rest, field.names.findSome? (behind · pieces) = some (.string value mark :: rest)

/-- What a search under several names finds. -/
def extractStringNames (json : Bytes) (names : List Bytes) : Option Bytes :=
  names.findSome? (extractStringField json)

theorem StringField.names_isName (field : StringField) :
    ∀ name ∈ field.names, QuotedTexts.IsName name := by
  cases field <;> decide

theorem extractStringAlias_eq (json longKey shortKey : Bytes) :
    extractStringAlias json longKey shortKey = extractStringNames json [longKey, shortKey] := by
  unfold extractStringAlias extractStringNames
  rw [List.findSome?_cons, List.findSome?_singleton]
  cases extractStringField json longKey <;> rfl

theorem extractStringField_eq (json key : Bytes) :
    extractStringField json key = extractStringNames json [key] :=
  (List.findSome?_singleton).symm

/-- A field of a text that is read is what the searches under its names find. -/
theorem value_of_parse {json : Bytes} {fields : ParsedRequestMetadata}
    (h : parseRequestMetadata overflow json = .ok fields) {field : StringField} {value : Bytes}
    (hfound : extractStringNames json field.names = some value) : field.value fields = value := by
  unfold parseRequestMetadata at h
  obtain ⟨tokenIndex, -, h⟩ := ok_of_bind h
  obtain ⟨nextTokenId, -, h⟩ := ok_of_bind h
  obtain ⟨shape, -, h⟩ := ok_of_bind h
  obtain ⟨temperature, -, h⟩ := ok_of_bind h
  obtain ⟨topK, -, h⟩ := ok_of_bind h
  obtain ⟨topP, -, h⟩ := ok_of_bind h
  obtain ⟨seed, -, h⟩ := ok_of_bind h
  simp only [extractStringAlias_eq, extractStringField_eq] at h
  rw [← Except.ok.inj h]
  cases field <;>
  · unfold StringField.names at hfound
    simp only [StringField.value, hfound, Option.getD_some]

/-- The searches find the string that stands behind the first name. -/
theorem extractStringNames_of_places {names : List Bytes}
    (hnames : ∀ name ∈ names, QuotedTexts.IsName name) {pieces rest : List Piece} {value : Bytes}
    {mark : Mark} (h : names.findSome? (behind · pieces) = some (.string value mark :: rest)) :
    extractStringNames (piecesText pieces) names = some (settled value) := by
  unfold extractStringNames
  induction names with
  | nil => cases h
  | cons name names ih =>
    have hname := hnames name List.mem_cons_self
    rw [List.findSome?_cons] at h ⊢
    cases hbehind : behind name pieces with
    | some found =>
      rw [hbehind] at h
      rw [extractStringField_some hname ⟨rest, hbehind.trans h⟩]
    | none =>
      rw [hbehind] at h
      rw [extractStringField_none hname hbehind]
      exact ih (fun other hother => hnames other (List.mem_cons_of_mem name hother)) h

/-- A string that comes back unchanged has no odd control bytes. -/
theorem settled_eq_iff {value : Bytes} :
    settled value = value ↔ ∀ c ∈ value, isPlainByte c = true := by
  refine ⟨fun h c hc => ?_, settled_of_plain⟩
  rw [← h, settled_eq] at hc
  obtain ⟨b, -, hb⟩ := List.mem_flatMap.mp hc
  exact isPlainByte_settledByte hb

/-- A string field is read as it was written exactly when each of its bytes is
printable, or one of the five control bytes with a letter as their escape. -/
theorem string_read_back_iff {field : StringField} {value : Bytes} {pieces : List Piece}
    (hplaces : Places field value pieces) {fields : ParsedRequestMetadata}
    (hparse : parseRequestMetadata overflow (piecesText pieces) = .ok fields) :
    field.value fields = value ↔ ∀ c ∈ value, isPlainByte c = true := by
  obtain ⟨mark, rest, hfound⟩ := hplaces
  have hread := extractStringNames_of_places field.names_isName hfound
  rw [value_of_parse overflow hparse hread]
  exact settled_eq_iff

/-- A string behind the first of two names. -/
theorem places_long {longKey shortKey value : Bytes} {pieces : List Piece} {mark : Mark}
    (h : ∃ rest, behind longKey pieces = some (.string value mark :: rest)) :
    ∃ mark rest, [longKey, shortKey].findSome? (behind · pieces) =
      some (.string value mark :: rest) := by
  obtain ⟨rest, hrest⟩ := h
  exact ⟨mark, rest, by rw [List.findSome?_cons, hrest]⟩

/-- A string behind the second of two names. -/
theorem places_short {longKey shortKey value : Bytes} {pieces : List Piece} {mark : Mark}
    (hnone : behind longKey pieces = none)
    (h : ∃ rest, behind shortKey pieces = some (.string value mark :: rest)) :
    ∃ mark rest, [longKey, shortKey].findSome? (behind · pieces) =
      some (.string value mark :: rest) := by
  obtain ⟨rest, hrest⟩ := h
  exact ⟨mark, rest, by rw [List.findSome?_cons, hnone, List.findSome?_singleton, hrest]⟩

/-- The strings that the gateway passes to its writer; the short form has no level. -/
def writtenString (m : RequestMetadata) : StringField → Option Bytes
  | .requestId => some m.requestId
  | .generationMode => some m.generationMode
  | .activationPrecision => some m.activationPrecision
  | .dtype => some m.dtype
  | .metadataLevel =>
    if metadataLevelIsCompact m.metadataLevel then none else some m.metadataLevel
  | _ => none

/-- The gateway's writer places its strings in both forms. -/
theorem request_places {m : RequestMetadata} {field : StringField} {value : Bytes}
    (h : writtenString m field = some value) :
    Places field value (requestMetadataPieces m) := by
  unfold Places requestMetadataPieces
  cases hlevel : metadataLevelIsCompact m.metadataLevel with
  | true =>
    rw [if_pos rfl]
    cases field with
    | requestId =>
      cases h
      exact places_short (compact_absent rfl) (found_head ⟨_, rfl⟩)
    | generationMode =>
      cases h
      exact places_short (compact_absent rfl) (found_head ⟨_, rfl⟩)
    | activationPrecision =>
      cases h
      exact places_short (compact_absent rfl) (found_head ⟨_, rfl⟩)
    | dtype =>
      cases h
      exact places_short (compact_absent rfl) (found_head ⟨_, rfl⟩)
    | metadataLevel =>
      rw [writtenString, if_pos hlevel] at h
      cases h
    | transportMode => cases h
    | rebalanceProfile => cases h
    | byteOrder => cases h
  | false =>
    rw [if_neg Bool.false_ne_true]
    cases field with
    | requestId =>
      cases h
      exact places_long (found_head ⟨_, rfl⟩)
    | generationMode =>
      cases h
      exact places_long (found_head ⟨_, rfl⟩)
    | activationPrecision =>
      cases h
      exact places_long (found_head ⟨_, rfl⟩)
    | dtype =>
      cases h
      exact places_long (found_head ⟨_, rfl⟩)
    | metadataLevel =>
      rw [writtenString, if_neg (by rw [hlevel]; exact Bool.false_ne_true)] at h
      cases h
      exact places_long (found_head ⟨_, rfl⟩)
    | transportMode => cases h
    | rebalanceProfile => cases h
    | byteOrder => cases h

/-- A request that asks for the greatest token is read without an error. -/
theorem parse_greedy {m : RequestMetadata} (hm : Emitted m) (hgreedy : m.temperature = 0) :
    ∃ topP seed, parseRequestMetadata overflow (requestMetadataJson m) =
      .ok { requestFields m with temperature := some 0, topP := topP, seed := seed } := by
  have htemperature : readOptional (ascii "temperature") (some (sixDigits.round m.temperature)) =
      .ok (some 0) := by
    show readDouble _ (sixDigits.round m.temperature) = _
    rw [hgreedy, readDouble, Rounding.NumberFormat.round_zero, stod_zero]
  have hexact : ∀ s ∈ m.seed, ∃ x, stod s = some x ∧ toLongLong overflow x = s :=
    fun s hs => ⟨s, seed_exact (hm.seed s hs)⟩
  obtain ⟨x, hseed, -⟩ := @readOptional_seed _ (ascii "seed") _ hexact
  exact ⟨_, _, (parse_request overflow hm.fits).trans
    (readControls_ok overflow htemperature (readOptional_decimals hm.topP).1 hseed)⟩

/-- The seeded request under another name. -/
def namedRequest (requestId : Bytes) : RequestMetadata :=
  { seededRequest with requestId := requestId }

theorem namedRequest_emitted (requestId : Bytes) : Emitted (namedRequest requestId) :=
  have hm := seededRequest_emitted
  ⟨⟨hm.fits.tokenIndex, hm.fits.topK, hm.fits.shape⟩, hm.shape, hm.temperature, hm.topP, hm.seed⟩

/-- A name with a quote in a request. -/
theorem string_read_back_iff_quote : ∃ fields,
    parseRequestMetadata (fun _ => 0) (requestMetadataJson (namedRequest (ascii "a\"b"))) =
        .ok fields ∧
      (fields.requestId = ascii "a\"b" ↔ ∀ c ∈ ascii "a\"b", isPlainByte c = true) := by
  obtain ⟨topP, seed, hparse⟩ :=
    parse_greedy (fun _ => 0) (namedRequest_emitted (ascii "a\"b")) rfl
  have hplaces : Places .requestId (ascii "a\"b")
      (requestMetadataPieces (namedRequest (ascii "a\"b"))) := request_places rfl
  exact ⟨_, hparse, string_read_back_iff (fun _ => 0) hplaces hparse⟩

/-- A request named by the byte 1 is read as one named by six characters. -/
theorem control_byte_read_as_escape : ∃ fields,
    parseRequestMetadata (fun _ => 0) (requestMetadataJson (namedRequest [1])) = .ok fields ∧
      fields.requestId = ascii "\\u0001" ∧ fields.requestId ≠ [1] := by
  obtain ⟨topP, seed, hparse⟩ := parse_greedy (fun _ => 0) (namedRequest_emitted [1]) rfl
  have hread : settled [1] = ascii "\\u0001" := by decide
  exact ⟨_, hparse, hread, fun h => absurd (hread.symm.trans h) (by decide)⟩

end Strings

end LayerInference.MetadataForms
