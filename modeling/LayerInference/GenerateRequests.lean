import LayerInference.GenerationLoop
import LayerInference.MetadataReader
import LayerInference.MetadataTexts
import LayerInference.RequestBodies

/-!
# The request of a generation

The gateway takes the fields of a request out of its body by one search for each,
with a default for a field that is missing or does not fit its type. Some settings
go to the loop, the others into the metadata of every frame. On a flat object each
search finds the value of the first member that it takes for its field.
-/

namespace LayerInference.GenerateRequests

open ByteStrings TextStreams QuotedTexts JsonFields NumberTexts JsonPieces RequestBodies MetadataTexts
  MetadataReader GenerationLoop

section Readers

/-- An integer that fits an `int`, clamped, or the default. -/
def clampInt (defaultValue minValue maxValue : ℤ) (found : Option ℤ) : ℤ :=
  match found.bind stoiValue with
  | none => defaultValue
  | some parsed => max minValue (min maxValue parsed)

def parseIntFieldOrDefault (json fieldName : Bytes) (defaultValue minValue maxValue : ℤ) : ℤ :=
  clampInt defaultValue minValue maxValue (searchField fieldName scanInteger json)

def parseDoubleField (json fieldName : Bytes) : Option ℚ :=
  (searchField fieldName requestNumber json).bind stod

def parseStringField (json fieldName : Bytes) : Option Bytes :=
  searchField fieldName rawString json

def parseBoolFieldOrDefault (json fieldName : Bytes) (defaultValue : Bool) : Bool :=
  (searchField fieldName boolAt json).getD defaultValue

def parseStringFieldOrDefault (json fieldName defaultValue : Bytes) : Bytes :=
  (parseStringField json fieldName).getD defaultValue

def kMaxNewTokensCeiling : ℤ := 2 ^ 20

/-- The settings of a generation and its prompt. -/
structure GenerateRequest where
  prompt : Bytes
  maxNewTokens : ℤ
  minNewTokens : ℤ
  applyChatTemplate : Bool
  activationPrecision : Bytes
  persistentSessionsEnabled : Bool
  nativeStageChainingEnabled : Bool
  metadataLevel : Bytes
  temperature : ℚ
  topK : ℤ
  topP : Option ℚ
  seed : Option ℤ

/-- The request as the gateway takes it out of the body. -/
def generateRequest (overflow : ℚ → ℤ) (bodyText : Bytes) : GenerateRequest :=
  let maxNewTokens :=
    parseIntFieldOrDefault bodyText (ascii "max_new_tokens") 2 0 kMaxNewTokensCeiling
  { prompt := (parseStringField bodyText (ascii "prompt")).getD []
    maxNewTokens := maxNewTokens
    minNewTokens := min maxNewTokens
      (parseIntFieldOrDefault bodyText (ascii "min_new_tokens") 0 0 kMaxNewTokensCeiling)
    applyChatTemplate := parseBoolFieldOrDefault bodyText (ascii "apply_chat_template") true
    activationPrecision :=
      parseStringFieldOrDefault bodyText (ascii "activation_precision") (ascii "fp32")
    persistentSessionsEnabled :=
      parseBoolFieldOrDefault bodyText (ascii "persistent_sessions_enabled") false
    nativeStageChainingEnabled :=
      parseBoolFieldOrDefault bodyText (ascii "native_stage_chaining_enabled") false
    metadataLevel := parseStringFieldOrDefault bodyText (ascii "metadata_level") (ascii "debug")
    temperature := max 0 ((parseDoubleField bodyText (ascii "temperature")).getD 0)
    topK := parseIntFieldOrDefault bodyText (ascii "top_k") 0 0 kMaxNewTokensCeiling
    topP := parseDoubleField bodyText (ascii "top_p")
    seed := (parseDoubleField bodyText (ascii "seed")).map (toLongLong overflow) }

/-- The settings that the loop itself reads. -/
def GenerateRequest.settings (request : GenerateRequest) : LoopSettings where
  minNewTokens := request.minNewTokens
  applyChatTemplate := request.applyChatTemplate

/-- The metadata of a frame of this generation. -/
def GenerateRequest.metadata (request : GenerateRequest) (requestId : Bytes) (tokenIndex : ℤ)
    (generationMode dtype : Bytes) (shape : List ℤ) : RequestMetadata where
  requestId := requestId
  tokenIndex := tokenIndex
  generationMode := generationMode
  dtype := dtype
  shape := shape
  activationPrecision := request.activationPrecision
  persistentSessionsEnabled := request.persistentSessionsEnabled
  nativeStageChainingEnabled := request.nativeStageChainingEnabled
  minNewTokens := request.minNewTokens
  applyChatTemplate := request.applyChatTemplate
  metadataLevel := request.metadataLevel
  temperature := request.temperature
  topK := request.topK
  topP := request.topP
  seed := request.seed

variable {σ ρ : Type}

/-- The generation that a request asks for. -/
def generate (request : GenerateRequest) (tokenizer : Tokenizer) (pipeline : Pipeline σ ρ)
    (requestId : Bytes) (start : σ) : LoopState σ :=
  runStubGeneration request.settings tokenizer pipeline requestId request.prompt
    request.maxNewTokens start

end Readers

section Bodies

variable {body : Body}

/-- An integer field of a flat object. -/
theorem parseIntFieldOrDefault_body (hbody : body.WellFormed) {key : Bytes}
    (hkey : IsName key) (defaultValue minValue maxValue : ℤ) :
    parseIntFieldOrDefault body.text key defaultValue minValue maxValue =
      clampInt defaultValue minValue maxValue (fieldOf key readInteger body.members) := by
  rw [parseIntFieldOrDefault, searchField_body hkey reads_integer hbody]

theorem parseDoubleField_body (hbody : body.WellFormed) {key : Bytes}
    (hkey : IsName key) :
    parseDoubleField body.text key = (fieldOf key readNumber body.members).bind stod := by
  rw [parseDoubleField, searchField_body hkey reads_number hbody]

theorem parseStringField_body (hbody : body.WellFormed) {key : Bytes}
    (hkey : IsName key) :
    parseStringField body.text key = fieldOf key readRaw body.members := by
  rw [parseStringField, searchField_body hkey reads_raw hbody]

theorem parseBoolFieldOrDefault_body (hbody : body.WellFormed) {key : Bytes}
    (hkey : IsName key) (defaultValue : Bool) :
    parseBoolFieldOrDefault body.text key defaultValue =
      (fieldOf key readFlag body.members).getD defaultValue := by
  rw [parseBoolFieldOrDefault, searchField_body hkey reads_flag hbody]

end Bodies

end LayerInference.GenerateRequests
