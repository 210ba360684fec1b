import LayerInference.PythonValues

/-!
# The binary transport of the Python stages

A request travels as a magic, the length of a header, the header as JSON text,
and the bytes of a tensor, compressed where that saves enough. The length of the
body is written nowhere: it follows from the dtype and the shape in the header.
The libraries `json`, `zlib` and `torch` are parameters with their documented laws.
-/

namespace LayerInference.BinaryTransport

open ByteStrings PythonValues

variable {φ : Type}

/-- The dtypes of the transport; `uint16` only carries the words of `bfloat16`. -/
inductive DType where
  | float16 | float32 | float64 | bfloat16 | int64 | int32 | int16 | int8 | uint8 | bool | uint16
  deriving DecidableEq

namespace DType

/-- `str(dtype)`. -/
def name : DType → String
  | float16 => "torch.float16"
  | float32 => "torch.float32"
  | float64 => "torch.float64"
  | bfloat16 => "torch.bfloat16"
  | int64 => "torch.int64"
  | int32 => "torch.int32"
  | int16 => "torch.int16"
  | int8 => "torch.int8"
  | uint8 => "torch.uint8"
  | bool => "torch.bool"
  | uint16 => "torch.uint16"

def itemSize : DType → ℕ
  | float64 | int64 => 8
  | float32 | int32 => 4
  | float16 | bfloat16 | int16 | uint16 => 2
  | int8 | uint8 | bool => 1

theorem itemSize_pos (dtype : DType) : 0 < dtype.itemSize := by
  cases dtype <;> decide

end DType

/-- A contiguous tensor on the CPU: its elements' bytes in row-major order. -/
structure Tensor where
  dtype : DType
  shape : List ℕ
  storage : Bytes
  sized : storage.length = shape.prod * dtype.itemSize

namespace Tensor

/-- Tensors of one dtype and shape with the same bytes are equal. -/
theorem eq_of {t t' : Tensor} (hdtype : t.dtype = t'.dtype) (hshape : t.shape = t'.shape)
    (hstorage : t.storage = t'.storage) : t = t' := by
  cases t
  cases t'
  simp only at hdtype hshape hstorage
  subst hdtype hshape hstorage
  rfl

/-- `tensor.view(dtype)` between dtypes of one size. -/
def view (t : Tensor) (dtype : DType) : Except PyError Tensor :=
  if h : dtype.itemSize = t.dtype.itemSize then
    .ok ⟨dtype, t.shape, t.storage, by rw [h, t.sized]⟩
  else .error (.raised "view")

/-- `tensor.numpy().tobytes()`; numpy has no `bfloat16`. -/
def numpyBytes (t : Tensor) : Except PyError Bytes :=
  if t.dtype = .bfloat16 then .error (.raised "numpy") else .ok t.storage

/-- `torch.frombuffer(bytearray(raw), dtype=dtype).clone()`. -/
def frombuffer (raw : Bytes) (dtype : DType) : Except PyError Tensor :=
  if raw.isEmpty then .error (.raised "frombuffer")
  else if h : raw.length % dtype.itemSize = 0 then
    .ok ⟨dtype, [raw.length / dtype.itemSize], raw, by
      rw [List.prod_singleton, Nat.div_mul_cancel (Nat.dvd_of_mod_eq_zero h)]⟩
  else .error (.raised "frombuffer")

/-- `tensor.reshape(shape)` for dimensions that are not negative. -/
def reshape (t : Tensor) (shape : List ℕ) : Except PyError Tensor :=
  if h : shape.prod = t.shape.prod then .ok ⟨t.dtype, shape, t.storage, by rw [h, t.sized]⟩
  else .error (.raised "reshape")

end Tensor

/-- The bytes before every header. -/
def magic : Bytes := ascii "DLI2"

/-- What the transport uses of Python and its libraries, as documented: `json.loads`
reads back what `json.dumps` writes, and `zlib.decompress` what `zlib.compress`
writes but none of its proper beginnings; `torch.load` reads no beginning of the
magic. -/
structure Libraries (φ : Type) extends PythonFloats φ where
  str : Value φ → String
  intOf : Value φ → Option ℤ
  byteOrder : String
  dumps : Value φ → Option String
  loads : String → Option (Value φ)
  compress : Bytes → Bytes
  decompress : Bytes → Option Bytes
  torchLoad : Bytes → Option (Value φ)
  decodeTensorRaw : Bytes → Option Tensor
  str_str : ∀ text, str (.str text) = text
  intOf_int : ∀ n, intOf (.int n) = some n
  loads_dumps : ∀ value text, value.IsJson → dumps value = some text → loads text = some value
  decompress_compress : ∀ raw, decompress (compress raw) = some raw
  decompress_truncated : ∀ raw cut, cut <+: compress raw → cut ≠ compress raw →
    decompress cut = none
  torchLoad_truncated : ∀ cut, cut <+: magic → cut ≠ magic → torchLoad cut = none

/-- The flags that the transport reads. -/
structure TransportFlags where
  transportMode : String
  payloadCompression : String

section Functions

variable (lib : Libraries φ)

def isEnabled (flags : TransportFlags) : Bool := flags.transportMode == "binary_octet_stream"

def compressionMode (flags : TransportFlags) : String :=
  if !isEnabled flags then "none"
  else if flags.payloadCompression = "" then "none"
  else flags.payloadCompression

def tensorToBytes (tensor : Tensor) : Except PyError Bytes :=
  if tensor.dtype = .bfloat16 then (tensor.view .uint16).bind Tensor.numpyBytes
  else tensor.numpyBytes

/-- The list of a shape's dimensions. -/
def shapeList (shape : List ℕ) : Value φ := .list ((shape.map Nat.cast).map .int)

def tensorMetadata (tensor : Tensor) (raw : Bytes) : Dict φ :=
  [("dtype", .str tensor.dtype.name), ("shape", shapeList tensor.shape),
    ("byte_order", .str lib.byteOrder), ("tensor_bytes", .int raw.length)]

def encodeTensorBlob (tensor : Tensor) : Except PyError (Bytes × Dict φ) := do
  let raw ← tensorToBytes tensor
  return (raw, tensorMetadata lib tensor raw)

/-- The table of dtype names. -/
def dtypeFromName : String → Except PyError DType
  | "torch.float16" | "float16" => .ok .float16
  | "torch.float32" | "float32" => .ok .float32
  | "torch.float64" | "float64" => .ok .float64
  | "torch.bfloat16" | "bfloat16" => .ok .bfloat16
  | "torch.int64" | "int64" => .ok .int64
  | "torch.int32" | "int32" => .ok .int32
  | "torch.int16" | "int16" => .ok .int16
  | "torch.int8" | "int8" => .ok .int8
  | "torch.uint8" | "uint8" => .ok .uint8
  | "torch.bool" | "bool" => .ok .bool
  | name => .error (.valueError ("Unsupported tensor dtype for binary transport: " ++ name))

def shapeFromMetadata (rawShape : Value φ) : Except PyError (List ℕ) :=
  match rawShape with
  | .list items => do
    let shape ← items.mapM fun item => called "int" (lib.intOf item)
    if shape.any (· < 0) then
      .error (.valueError ("Invalid tensor shape in binary metadata: " ++
        lib.str (.list (shape.map .int))))
    else return shape.map Int.toNat
  | _ => .error (.valueError "Binary tensor metadata is missing shape list.")

def decodeTensorBlob (raw : Bytes) (metadata : Value φ) : Except PyError Tensor := do
  let metadata ← asDict metadata
  let dtype ← dtypeFromName (lib.str (metadata.getD "dtype" (.str "")))
  let shape ← shapeFromMetadata lib (metadata.get "shape")
  if dtype = .bfloat16 then
    let words ← Tensor.frombuffer raw .uint16
    let tensor ← words.view .bfloat16
    tensor.reshape shape
  else
    let tensor ← Tensor.frombuffer raw dtype
    tensor.reshape shape

/-- `HEADER_LENGTH.pack`. -/
def packLength (length : ℕ) : Except PyError Bytes :=
  if length < 2 ^ 32 then .ok (wordBytes 4 length).reverse else .error (.raised "struct.pack")

/-- `HEADER_LENGTH.unpack`. -/
def unpackLength (raw : Bytes) : ℕ := bytesWord raw.reverse

def packV2 (header : Dict φ) (body : Bytes) : Except PyError Bytes := do
  let text ← called "json.dumps" (lib.dumps (.dict header))
  let length ← packLength (encodeUtf8 text).length
  return magic ++ length ++ encodeUtf8 text ++ body

def unpackV2 (raw : Bytes) : Except PyError (Dict φ × Bytes) :=
  if raw.length < 8 then
    .error (.valueError "Binary v2 envelope is truncated before header length.")
  else
    let headerEnd := 8 + unpackLength ((raw.take 8).drop 4)
    if raw.length < headerEnd then
      .error (.valueError "Binary v2 envelope is truncated before header body.")
    else do
      let text ← called "decode" (decodeUtf8 ((raw.take headerEnd).drop 8))
      let header ← called "json.loads" (lib.loads text)
      match header with
      | .dict header =>
        if !equalsInt lib.toPythonFloats (Dict.get header "wire_version") 2 then
          .error (.valueError ("Unsupported binary wire version: " ++
            lib.str (Dict.get header "wire_version")))
        else return (header, raw.drop headerEnd)
      | _ => .error (.typeError "Binary v2 envelope header must be a dict.")

/-- The header of a request. -/
def requestHeader (request metadata : Dict φ) : Dict φ :=
  [("wire_version", .int 2), ("kind", .str "request"), ("request", .dict request),
    ("tensor", .dict metadata)]

def packRequest (request : Dict φ) (tensorBlob : Bytes) (tensorMetadata : Dict φ) :
    Except PyError Bytes :=
  let metadata := tensorMetadata.setDefault "dtype" (request.get "tensor_dtype")
  let metadata := metadata.setDefault "shape" (request.get "tensor_shape")
  let metadata := metadata.setDefault "byte_order" (.str lib.byteOrder)
  let metadata := metadata.setDefault "tensor_bytes" (.int tensorBlob.length)
  packV2 lib (requestHeader request metadata) tensorBlob

def unpackRequest (raw : Bytes) : Except PyError (Dict φ) :=
  if magic.isPrefixOf raw then do
    let (header, body) ← unpackV2 lib raw
    if !equalsStr (header.get "kind") "request" then
      .error (.typeError "Binary v2 envelope is not a request.")
    else
      match header.get "request" with
      | .dict request =>
        return [("wire_version", .int 2), ("request", .dict request), ("tensor_blob", .bytes body),
          ("tensor", orElse lib.toPythonFloats (header.get "tensor") (.dict []))]
      | _ => .error (.typeError "Binary v2 request envelope is missing request payload.")
  else do
    let envelope ← called "torch.load" (lib.torchLoad raw)
    match envelope with
    | .dict envelope =>
      if !equalsInt lib.toPythonFloats (Dict.get envelope "wire_version") 1 then
        .error (.valueError ("Unsupported binary wire version: " ++
          lib.str (Dict.get envelope "wire_version")))
      else return envelope
    | _ => .error (.typeError "Binary request envelope must be a dict.")

/-- Compression as the flags ask for it, with the record of what was done. The
environment may set the least number of saved bytes. -/
def prepareTensorBlob (flags : TransportFlags) (minSavedBytes : Option String) (elapsedMs : φ)
    (blob : Bytes) : Except PyError (Bytes × Dict φ) :=
  let mode := compressionMode flags
  let metadata : Dict φ := [("mode", .str mode), ("applied", .bool false),
    ("original_bytes", .int blob.length), ("wire_bytes", .int blob.length),
    ("compression_time_ms", .float lib.zero), ("compression_ratio", .float lib.one)]
  if mode = "none" then .ok (blob, metadata)
  else if mode ≠ "zlib" then
    .ok (blob, metadata.set "skipped_reason" (.str ("unsupported_mode:" ++ mode)))
  else do
    let compressed := lib.compress blob
    let metadata := metadata.set "compression_time_ms" (.float elapsedMs)
    let savedBytes : ℤ := blob.length - compressed.length
    let minSavedBytes ← called "int" (lib.intOf (.str (minSavedBytes.getD "4096")))
    if compressed.length ≥ blob.length then
      return (blob, metadata.set "skipped_reason" (.str "compressed_payload_not_smaller"))
    else if savedBytes < minSavedBytes then
      let metadata := metadata.set "skipped_reason" (.str "saved_bytes_below_threshold")
      return (blob, metadata.set "saved_bytes" (.int savedBytes))
    else
      return (compressed, metadata.update [("applied", .bool true),
        ("wire_bytes", .int compressed.length), ("saved_bytes", .int savedBytes),
        ("compression_ratio", .float (lib.ratio compressed.length (max 1 blob.length)))])

def restoreTensorBlob (blob : Bytes) (metadata : Value φ) : Except PyError Bytes := do
  let metadata ← asDict (orElse lib.toPythonFloats metadata (.dict []))
  let mode := lib.str (orElse lib.toPythonFloats (metadata.get "mode") (.str "none"))
  if !truthy lib.toPythonFloats (metadata.getD "applied" (.bool false)) then return blob
  else if mode = "zlib" then called "zlib.decompress" (lib.decompress blob)
  else .error (.valueError ("Unsupported binary payload compression mode: " ++ mode))

/-- The compression metadata that a request carries. -/
def carriedMetadata (request : Dict φ) : Except PyError (Value φ) := do
  let transport ← asDict (request.getD "transport" (.dict []))
  return transport.getD "payload_compression" (.dict [])

/-- How `forward_binary` reads a request and its tensor, but for the checks of the
request's own fields. -/
def receiveRequest (raw : Bytes) : Except PyError (Dict φ × Tensor) := do
  let envelope ← unpackRequest lib raw
  match envelope.get "request" with
  | .dict request =>
    match envelope.get "tensor_blob" with
    | .bytes blob =>
      let restored ← restoreTensorBlob lib blob (← carriedMetadata request)
      if equalsInt lib.toPythonFloats (envelope.get "wire_version") 2 then
        let tensor ← decodeTensorBlob lib restored
          (orElse lib.toPythonFloats (envelope.get "tensor") (.dict []))
        return (request, tensor)
      else
        let tensor ← called "decode_tensor_raw" (lib.decodeTensorRaw restored)
        return (request, tensor)
    | _ => .error (.typeError "Binary envelope is missing tensor blob.")
  | _ => .error (.typeError "Binary envelope is missing request payload.")

end Functions

section Blobs

variable {lib : Libraries φ} {tensor : Tensor}

theorem tensorToBytes_eq (tensor : Tensor) : tensorToBytes tensor = .ok tensor.storage := by
  rw [tensorToBytes]
  split
  · next hdtype =>
    have hsize : DType.uint16.itemSize = tensor.dtype.itemSize := by rw [hdtype]; rfl
    rw [Tensor.view, dif_pos hsize]
    rfl
  · next hdtype => rw [Tensor.numpyBytes, if_neg hdtype]

theorem encodeTensorBlob_eq (tensor : Tensor) : encodeTensorBlob lib tensor =
    .ok (tensor.storage, tensorMetadata lib tensor tensor.storage) := by
  rw [encodeTensorBlob, tensorToBytes_eq]
  rfl

theorem dtypeFromName_name {dtype : DType} (h : dtype ≠ .uint16) :
    dtypeFromName dtype.name = .ok dtype := by
  cases dtype with
  | uint16 => exact absurd rfl h
  | _ => rfl

theorem shapeFromMetadata_shapeList (shape : List ℕ) :
    shapeFromMetadata lib (shapeList shape) = .ok shape := by
  have hints : ((shape.map (Nat.cast : ℕ → ℤ)).map (.int : ℤ → Value φ)).mapM
      (fun item => called "int" (lib.intOf item)) = .ok (shape.map (Nat.cast : ℕ → ℤ)) := by
    induction shape with
    | nil => rfl
    | cons dim shape ih =>
      simp only [List.map_cons, List.mapM_cons, lib.intOf_int, ih]
      rfl
  have hnonneg : (shape.map (Nat.cast : ℕ → ℤ)).any (· < 0) = false := by
    simp only [List.any_map, List.any_eq_false]
    intro dim _
    simp
  have hback : (shape.map (Nat.cast : ℕ → ℤ)).map Int.toNat = shape := by
    rw [List.map_map]
    exact List.map_id shape
  simp only [shapeFromMetadata, shapeList]
  rw [hints]
  change (if (shape.map (Nat.cast : ℕ → ℤ)).any (· < 0) then _ else _) = _
  rw [hnonneg, if_neg Bool.false_ne_true]
  exact congrArg Except.ok hback

/-- Reading the bytes of a tensor as its dtype, through another one of that size. -/
def readThrough (carrier dtype : DType) (shape : List ℕ) (raw : Bytes) :
    Except PyError Tensor := do
  let words ← Tensor.frombuffer raw carrier
  let tensor ← words.view dtype
  tensor.reshape shape

theorem readThrough_storage {carrier : DType} (hcarrier : carrier.itemSize = tensor.dtype.itemSize)
    (hne : tensor.storage ≠ []) :
    readThrough carrier tensor.dtype tensor.shape tensor.storage = .ok tensor := by
  have hmultiple : tensor.storage.length % carrier.itemSize = 0 := by
    rw [tensor.sized, hcarrier]
    exact Nat.mul_mod_left _ _
  have hcount : tensor.shape.prod = [tensor.storage.length / carrier.itemSize].prod := by
    rw [List.prod_singleton, tensor.sized, hcarrier,
      Nat.mul_div_cancel _ (DType.itemSize_pos tensor.dtype)]
  rw [readThrough, Tensor.frombuffer, if_neg (by simpa using hne), dif_pos hmultiple]
  change ((Tensor.view _ tensor.dtype).bind fun t => t.reshape tensor.shape) = _
  rw [Tensor.view, dif_pos hcarrier.symm]
  change Tensor.reshape _ tensor.shape = _
  rw [Tensor.reshape, dif_pos hcount]

theorem readThrough_short {carrier : DType} (hcarrier : carrier.itemSize = tensor.dtype.itemSize)
    {raw : Bytes} (hshort : raw.length < tensor.storage.length) :
    ∃ e, readThrough carrier tensor.dtype tensor.shape raw = .error e := by
  rw [readThrough, Tensor.frombuffer]
  split
  · exact ⟨_, rfl⟩
  · split
    · next hmultiple =>
      have hcount : tensor.shape.prod ≠ [raw.length / carrier.itemSize].prod := by
        rw [List.prod_singleton]
        intro heq
        rw [tensor.sized, heq, ← hcarrier,
          Nat.div_mul_cancel (Nat.dvd_of_mod_eq_zero hmultiple)] at hshort
        exact lt_irrefl _ hshort
      refine ⟨.raised "reshape", ?_⟩
      change ((Tensor.view _ tensor.dtype).bind fun t => t.reshape tensor.shape) = _
      rw [Tensor.view, dif_pos hcarrier.symm]
      change Tensor.reshape _ tensor.shape = _
      rw [Tensor.reshape, dif_neg hcount]
    · exact ⟨_, rfl⟩

/-- A view as the same dtype changes nothing. -/
theorem view_self (t : Tensor) : t.view t.dtype = .ok t := by
  rw [Tensor.view, dif_pos rfl]

variable (lib) in
/-- Decoding with the metadata of a tensor reads the bytes as its dtype and shape. -/
theorem decodeTensorBlob_metadata (hdtype : tensor.dtype ≠ .uint16) (raw blob : Bytes) :
    ∃ carrier : DType, carrier.itemSize = tensor.dtype.itemSize ∧
      decodeTensorBlob lib raw (.dict (tensorMetadata lib tensor blob)) =
        readThrough carrier tensor.dtype tensor.shape raw := by
  have hread : decodeTensorBlob lib raw (.dict (tensorMetadata lib tensor blob)) =
      if tensor.dtype = .bfloat16 then readThrough .uint16 .bfloat16 tensor.shape raw
      else (Tensor.frombuffer raw tensor.dtype).bind fun t => t.reshape tensor.shape := by
    have hname : (tensorMetadata lib tensor blob).getD "dtype" (.str "") =
        .str tensor.dtype.name := rfl
    have hshape : (tensorMetadata lib tensor blob).get "shape" = shapeList tensor.shape := rfl
    simp only [decodeTensorBlob, asDict]
    change ((dtypeFromName (lib.str ((tensorMetadata lib tensor blob).getD "dtype" _))).bind
      fun dtype => (shapeFromMetadata lib ((tensorMetadata lib tensor blob).get "shape")).bind
        fun shape => _) = _
    rw [hname, lib.str_str, dtypeFromName_name hdtype, hshape, shapeFromMetadata_shapeList]
    rfl
  rw [hread]
  by_cases hbfloat : tensor.dtype = .bfloat16
  · refine ⟨.uint16, by rw [hbfloat]; rfl, ?_⟩
    rw [if_pos hbfloat, hbfloat]
  · refine ⟨tensor.dtype, rfl, ?_⟩
    rw [if_neg hbfloat, readThrough]
    cases hbuffer : Tensor.frombuffer raw tensor.dtype with
    | error e => rfl
    | ok t =>
      have hsame : t.dtype = tensor.dtype := by
        simp only [Tensor.frombuffer] at hbuffer
        split_ifs at hbuffer
        cases hbuffer
        rfl
      change t.reshape tensor.shape = (t.view tensor.dtype).bind fun t => t.reshape tensor.shape
      rw [← hsame, view_self]
      rfl

end Blobs

section Compression

variable {lib : Libraries φ}

theorem restoreTensorBlob_unapplied {metadata : Dict φ} (hne : metadata ≠ [])
    (happlied : metadata.getD "applied" (.bool false) = .bool false) (raw : Bytes) :
    restoreTensorBlob lib raw (.dict metadata) = .ok raw := by
  have htruthy : orElse lib.toPythonFloats (.dict metadata) (.dict []) = .dict metadata :=
    if_pos (by simpa [truthy] using hne)
  simp only [restoreTensorBlob, htruthy]
  change (if !truthy lib.toPythonFloats (metadata.getD "applied" (.bool false)) then _ else _) = _
  rw [happlied]
  rfl

theorem restoreTensorBlob_zlib {metadata : Dict φ} (hne : metadata ≠ [])
    (happlied : metadata.getD "applied" (.bool false) = .bool true)
    (hmode : metadata.get "mode" = .str "zlib") (raw : Bytes) :
    restoreTensorBlob lib raw (.dict metadata) =
      called "zlib.decompress" (lib.decompress raw) := by
  have htruthy : orElse lib.toPythonFloats (.dict metadata) (.dict []) = .dict metadata :=
    if_pos (by simpa [truthy] using hne)
  have hname : orElse lib.toPythonFloats (metadata.get "mode") (.str "none") = .str "zlib" := by
    rw [hmode]
    rfl
  simp only [restoreTensorBlob, htruthy]
  change (if !truthy lib.toPythonFloats (metadata.getD "applied" (.bool false)) then _ else
    if lib.str (orElse lib.toPythonFloats (metadata.get "mode") _) = "zlib" then _ else _) = _
  rw [happlied, hname, lib.str_str]
  rfl

/-- What is sent is the blob itself or what zlib makes of it, and its metadata say which. -/
theorem prepareTensorBlob_spec {flags : TransportFlags} {minSavedBytes : Option String}
    {elapsedMs : φ} {blob wire : Bytes} {metadata : Dict φ}
    (h : prepareTensorBlob lib flags minSavedBytes elapsedMs blob = .ok (wire, metadata)) :
    (wire = blob ∧ ∀ raw, restoreTensorBlob lib raw (.dict metadata) = .ok raw) ∨
      (wire = lib.compress blob ∧ ∀ raw, restoreTensorBlob lib raw (.dict metadata) =
        called "zlib.decompress" (lib.decompress raw)) := by
  rw [prepareTensorBlob] at h
  by_cases hnone : compressionMode flags = "none"
  · rw [if_pos hnone] at h
    cases h
    exact .inl ⟨rfl, restoreTensorBlob_unapplied (by nofun) rfl⟩
  rw [if_neg hnone] at h
  by_cases hzlib : compressionMode flags = "zlib"
  · rw [if_neg (not_not.mpr hzlib)] at h
    cases hmin : lib.intOf (.str (minSavedBytes.getD "4096")) with
    | none =>
      rw [hmin] at h
      cases h
    | some least =>
      simp only [hmin, called, bind, Except.bind] at h
      split_ifs at h with hlarger hfew
      · cases h
        exact .inl ⟨rfl, restoreTensorBlob_unapplied (by nofun) rfl⟩
      · cases h
        exact .inl ⟨rfl, restoreTensorBlob_unapplied (by nofun) rfl⟩
      · cases h
        refine .inr ⟨rfl, restoreTensorBlob_zlib (by nofun) rfl ?_⟩
        rw [hzlib]
        rfl
  · rw [if_pos hzlib] at h
    cases h
    exact .inl ⟨rfl, restoreTensorBlob_unapplied (by nofun) rfl⟩

end Compression

section Envelopes

variable {lib : Libraries φ}

theorem magic_length : magic.length = 4 := rfl

theorem unpackLength_packLength {length : ℕ} {packed : Bytes}
    (h : packLength length = .ok packed) :
    packed.length = 4 ∧ unpackLength packed = length ∧ length < 2 ^ 32 := by
  simp only [packLength] at h
  split_ifs at h with hlt
  cases h
  refine ⟨by rw [List.length_reverse, wordBytes_length], ?_, hlt⟩
  rw [unpackLength, List.reverse_reverse]
  exact bytesWord_wordBytes hlt

/-- The parts of a packed envelope. -/
theorem packV2_parts {header : Dict φ} {body packed : Bytes}
    (h : packV2 lib header body = .ok packed) :
    ∃ text length, lib.dumps (.dict header) = some text ∧
      packLength (encodeUtf8 text).length = .ok length ∧
      packed = magic ++ length ++ encodeUtf8 text ++ body := by
  cases hdumps : lib.dumps (.dict header) with
  | none =>
    simp only [packV2, hdumps] at h
    cases h
  | some text =>
    cases hlength : packLength (encodeUtf8 text).length with
    | error e =>
      simp only [packV2, hdumps, called] at h
      change (packLength _).bind _ = _ at h
      rw [hlength] at h
      cases h
    | ok length =>
      simp only [packV2, hdumps, called] at h
      change (packLength _).bind _ = _ at h
      rw [hlength] at h
      cases h
      exact ⟨text, length, rfl, hlength, rfl⟩

/-- An envelope whose header is complete is read back with the body that came. -/
theorem unpackV2_complete {header : Dict φ} {text : String} {length : Bytes}
    (hjson : (Value.dict header).IsJson) (hversion : header.get "wire_version" = .int 2)
    (hdumps : lib.dumps (.dict header) = some text)
    (hlength : packLength (encodeUtf8 text).length = .ok length) (body : Bytes) :
    unpackV2 lib (magic ++ length ++ encodeUtf8 text ++ body) = .ok (header, body) := by
  obtain ⟨hfour, hunpack, hlt⟩ := unpackLength_packLength hlength
  have hstart : (magic ++ length).length = 8 := by
    rw [List.length_append, hfour, magic_length]
  have hcut : (magic ++ length ++ encodeUtf8 text ++ body).take 8 = magic ++ length := by
    rw [List.append_assoc, ← hstart, List.take_left]
  have hword : ((magic ++ length ++ encodeUtf8 text ++ body).take 8).drop 4 = length := by
    rw [hcut, ← magic_length, List.drop_left]
  have hend : (magic ++ length ++ encodeUtf8 text).length = 8 + (encodeUtf8 text).length := by
    rw [List.length_append, hstart]
  have hhead : ((magic ++ length ++ encodeUtf8 text ++ body).take
      (8 + (encodeUtf8 text).length)).drop 8 = encodeUtf8 text := by
    rw [← hend, List.take_left, ← hstart, List.drop_left]
  have hrest : (magic ++ length ++ encodeUtf8 text ++ body).drop (8 + (encodeUtf8 text).length) =
      body := by
    rw [← hend, List.drop_left]
  have hlong : ¬(magic ++ length ++ encodeUtf8 text ++ body).length < 8 := by
    rw [List.length_append, hend]
    omega
  have hcomplete : ¬(magic ++ length ++ encodeUtf8 text ++ body).length <
      8 + (encodeUtf8 text).length := by
    rw [List.length_append, hend]
    omega
  rw [unpackV2, if_neg hlong, hword, hunpack]
  simp only [if_neg hcomplete, hhead, hrest, decodeUtf8_encodeUtf8, called]
  change (called "json.loads" (lib.loads text)).bind _ = _
  rw [lib.loads_dumps _ _ hjson hdumps]
  change (if !equalsInt lib.toPythonFloats (Dict.get header "wire_version") 2 then _ else _) = _
  rw [hversion]
  rfl

variable (lib) in
/-- An envelope cut before the end of its header is refused. -/
theorem unpackV2_truncated {length text body cut : Bytes}
    (hlength : packLength text.length = .ok length)
    (hcut : cut <+: magic ++ length ++ text ++ body) (hshort : cut.length < 8 + text.length) :
    ∃ e, unpackV2 lib cut = .error e := by
  obtain ⟨hfour, hunpack, hlt⟩ := unpackLength_packLength hlength
  have hstart : (magic ++ length).length = 8 := by
    rw [List.length_append, hfour, magic_length]
  rw [unpackV2]
  split
  · exact ⟨_, rfl⟩
  · next hlong =>
    have hword : cut.take 8 = magic ++ length := by
      have htake : cut.take 8 = (magic ++ length ++ text ++ body).take 8 := by
        obtain ⟨rest, hrest⟩ := hcut
        rw [← hrest, List.take_append_of_le_length (by omega)]
      rw [htake, List.append_assoc, ← hstart, List.take_left]
    have hread : (cut.take 8).drop 4 = length := by
      rw [hword, ← magic_length, List.drop_left]
    rw [hread, hunpack]
    exact ⟨_, if_pos hshort⟩

/-- A packed envelope that is cut ends before its body, or has lost the end of it. -/
theorem truncated_cases {head body cut : Bytes} (hcut : cut <+: head ++ body)
    (hne : cut ≠ head ++ body) :
    cut.length < head.length ∨ ∃ rest, cut = head ++ rest ∧ rest <+: body ∧ rest ≠ body := by
  rcases Nat.lt_or_ge cut.length head.length with hshort | hlong
  · exact .inl hshort
  · obtain ⟨rest, rfl⟩ : head <+: cut :=
      List.prefix_of_prefix_length_le (List.prefix_append head body) hcut hlong
    refine .inr ⟨rest, rfl, (List.prefix_append_right_inj head).mp hcut, ?_⟩
    rintro rfl
    exact hne rfl

end Envelopes

section Requests

variable {lib : Libraries φ} {request : Dict φ} {tensor : Tensor} {blob : Bytes}

/-- The metadata of a tensor leave nothing to the defaults. -/
theorem packRequest_tensorMetadata (request : Dict φ) (tensor : Tensor) (blob wire : Bytes) :
    packRequest lib request wire (tensorMetadata lib tensor blob) =
      packV2 lib (requestHeader request (tensorMetadata lib tensor blob)) wire := rfl

theorem isJson_requestHeader (h : (Value.dict request).IsJson) :
    (Value.dict (requestHeader request (tensorMetadata lib tensor blob))).IsJson := by
  have hkeys : ((requestHeader request (tensorMetadata lib tensor blob)).map Prod.fst).Nodup := by
    change ["wire_version", "kind", "request", "tensor"].Nodup
    decide
  have hmetadata : ((tensorMetadata lib tensor blob).map Prod.fst).Nodup := by
    change ["dtype", "shape", "byte_order", "tensor_bytes"].Nodup
    decide
  have hshape : (shapeList tensor.shape : Value φ).IsJson := by
    rw [shapeList, Value.IsJson]
    exact allJson_ints _
  have htensor : (Value.dict (tensorMetadata lib tensor blob)).IsJson := by
    rw [Value.IsJson]
    exact ⟨hmetadata, trivial, hshape, trivial, trivial, trivial⟩
  rw [Value.IsJson]
  exact ⟨hkeys, trivial, trivial, h, htensor, trivial⟩

/-- What is received behind a complete header. -/
theorem receiveRequest_complete {text : String} {length : Bytes} {compression : Value φ}
    (hjson : (Value.dict request).IsJson)
    (hdumps : lib.dumps (.dict (requestHeader request (tensorMetadata lib tensor blob))) =
      some text)
    (hlength : packLength (encodeUtf8 text).length = .ok length)
    (hcarried : carriedMetadata request = .ok compression) (body : Bytes) :
    receiveRequest lib (magic ++ length ++ encodeUtf8 text ++ body) =
      (restoreTensorBlob lib body compression).bind fun restored =>
        (decodeTensorBlob lib restored (.dict (tensorMetadata lib tensor blob))).bind fun tensor =>
          .ok (request, tensor) := by
  have hmagic : magic.isPrefixOf (magic ++ length ++ encodeUtf8 text ++ body) = true := by
    rw [List.isPrefixOf_iff_prefix, List.append_assoc, List.append_assoc]
    exact List.prefix_append _ _
  have hunpack : unpackRequest lib (magic ++ length ++ encodeUtf8 text ++ body) =
      .ok [("wire_version", .int 2), ("request", .dict request), ("tensor_blob", .bytes body),
        ("tensor", .dict (tensorMetadata lib tensor blob))] := by
    rw [unpackRequest, if_pos hmagic,
      unpackV2_complete (isJson_requestHeader hjson) rfl hdumps hlength]
    rfl
  rw [receiveRequest, hunpack]
  change (carriedMetadata request).bind (fun compression =>
    (restoreTensorBlob lib body compression).bind fun restored => _) = _
  rw [hcarried]
  rfl

/-- What is received of an envelope cut before the end of its header. -/
theorem receiveRequest_truncated {length text body cut : Bytes}
    (hlength : packLength text.length = .ok length)
    (hcut : cut <+: magic ++ length ++ text ++ body) (hshort : cut.length < 8 + text.length) :
    ∃ e, receiveRequest lib cut = .error e := by
  have hunpack : ∃ e, unpackRequest lib cut = .error e := by
    rw [unpackRequest]
    split
    · obtain ⟨e, he⟩ := unpackV2_truncated lib hlength hcut hshort
      rw [he]
      exact ⟨e, rfl⟩
    · next hmagic =>
      have hstart : magic <+: magic ++ length ++ text ++ body := by
        rw [List.append_assoc, List.append_assoc]
        exact List.prefix_append _ _
      rcases List.prefix_or_prefix_of_prefix hcut hstart with hcut' | hmagic'
      · have hne : cut ≠ magic := by
          rintro rfl
          exact hmagic (List.isPrefixOf_iff_prefix.mpr (List.prefix_refl magic))
        rw [lib.torchLoad_truncated cut hcut' hne]
        exact ⟨_, rfl⟩
      · exact absurd (List.isPrefixOf_iff_prefix.mpr hmagic') hmagic
  obtain ⟨e, he⟩ := hunpack
  rw [receiveRequest, he]
  exact ⟨e, rfl⟩

/-- The bytes of a packed request give back the request and the tensor, and no
proper beginning of them is accepted. -/
theorem request_round_trip {flags : TransportFlags} {minSavedBytes : Option String}
    {elapsedMs : φ} {wire packed : Bytes} {metadata compression : Dict φ}
    (hjson : (Value.dict request).IsJson) (hnonempty : 0 < tensor.shape.prod)
    (hdtype : tensor.dtype ≠ .uint16)
    (hencoded : encodeTensorBlob lib tensor = .ok (blob, metadata))
    (hprepared : prepareTensorBlob lib flags minSavedBytes elapsedMs blob = .ok (wire, compression))
    (hcarried : carriedMetadata request = .ok (.dict compression))
    (hpacked : packRequest lib request wire metadata = .ok packed) :
    receiveRequest lib packed = .ok (request, tensor) ∧
      ∀ cut, cut <+: packed → cut ≠ packed → ∃ e, receiveRequest lib cut = .error e := by
  rw [encodeTensorBlob_eq] at hencoded
  cases hencoded
  rw [packRequest_tensorMetadata] at hpacked
  obtain ⟨text, length, hdumps, hlength, rfl⟩ := packV2_parts hpacked
  have hstorage : 0 < tensor.storage.length := by
    rw [tensor.sized]
    exact Nat.mul_pos hnonempty (DType.itemSize_pos _)
  have hdecode : decodeTensorBlob lib tensor.storage
      (.dict (tensorMetadata lib tensor tensor.storage)) = .ok tensor := by
    obtain ⟨carrier, hcarrier, hread⟩ :=
      decodeTensorBlob_metadata lib hdtype tensor.storage tensor.storage
    rw [hread, readThrough_storage hcarrier (List.ne_nil_of_length_pos hstorage)]
  have hrestore : restoreTensorBlob lib wire (.dict compression) = .ok tensor.storage := by
    rcases prepareTensorBlob_spec hprepared with ⟨rfl, hraw⟩ | ⟨rfl, hzlib⟩
    · exact hraw _
    · rw [hzlib, lib.decompress_compress]
      rfl
  have hreceive := receiveRequest_complete hjson hdumps hlength hcarried
  constructor
  · rw [hreceive, hrestore]
    change (decodeTensorBlob lib tensor.storage _).bind _ = _
    rw [hdecode]
    rfl
  · intro cut hcut hne
    rcases truncated_cases hcut hne with hshort | ⟨rest, rfl, hrest, hrestne⟩
    · obtain ⟨hfour, -, -⟩ := unpackLength_packLength hlength
      rw [List.length_append, List.length_append, hfour, magic_length] at hshort
      exact receiveRequest_truncated hlength hcut hshort
    · rw [hreceive]
      rcases prepareTensorBlob_spec hprepared with ⟨rfl, hraw⟩ | ⟨rfl, hzlib⟩
      · have hless : rest.length < tensor.storage.length := by
          refine lt_of_le_of_ne hrest.length_le fun heq => hrestne ?_
          exact hrest.eq_of_length heq
        obtain ⟨carrier, hcarrier, hread⟩ :=
          decodeTensorBlob_metadata lib hdtype rest tensor.storage
        obtain ⟨e, he⟩ := readThrough_short hcarrier hless
        rw [hraw]
        change ∃ e, (decodeTensorBlob lib rest _).bind _ = .error e
        rw [hread, he]
        exact ⟨e, rfl⟩
      · rw [hzlib, lib.decompress_truncated _ _ hrest hrestne]
        exact ⟨_, rfl⟩

/-- Packing succeeds when the header has a JSON text below 4 GiB. -/
theorem packV2_of_dumps {header : Dict φ} {text : String} (body : Bytes)
    (hdumps : lib.dumps (.dict header) = some text) (hlength : (encodeUtf8 text).length < 2 ^ 32) :
    packV2 lib header body = .ok (magic ++ (wordBytes 4 (encodeUtf8 text).length).reverse ++
      encodeUtf8 text ++ body) := by
  simp only [packV2, hdumps, called, packLength, if_pos hlength, bind, Except.bind]
  rfl

end Requests

section Example

/-- A self-delimiting code: a one before every byte, and a zero at the end. -/
def delimit (raw : Bytes) : Bytes := raw.flatMap (fun b => [1, b]) ++ [0]

/-- Reading a delimited byte string. -/
def undelimit : Bytes → Option Bytes
  | [0] => some []
  | 1 :: b :: rest => (undelimit rest).map (b :: ·)
  | _ => none

theorem undelimit_delimit (raw : Bytes) : undelimit (delimit raw) = some raw := by
  induction raw with
  | nil => rfl
  | cons b raw ih =>
    change (undelimit (delimit raw)).map (b :: ·) = _
    rw [ih]
    rfl

theorem undelimit_truncated (raw cut : Bytes) (hcut : cut <+: delimit raw)
    (hne : cut ≠ delimit raw) : undelimit cut = none := by
  induction raw generalizing cut with
  | nil =>
    match cut, hcut, hne with
    | [], _, _ => rfl
    | [b], hcut, hne => exact absurd (hcut.eq_of_length rfl) hne
    | b :: c :: rest, hcut, _ =>
      have hle := hcut.length_le
      rw [List.length_cons, List.length_cons] at hle
      change rest.length + 1 + 1 ≤ 1 at hle
      omega
  | cons b raw ih =>
    have hdelimit : delimit (b :: raw) = 1 :: b :: delimit raw := rfl
    rw [hdelimit] at hcut hne
    match cut, hcut, hne with
    | [], _, _ => rfl
    | [c], hcut, _ =>
      obtain ⟨rfl, -⟩ := List.cons_prefix_cons.mp hcut
      rfl
    | c :: d :: rest, hcut, hne =>
      obtain ⟨hone, htail⟩ := List.cons_prefix_cons.mp hcut
      obtain ⟨hbyte, hrest⟩ := List.cons_prefix_cons.mp htail
      subst hone hbyte
      change (undelimit rest).map (d :: ·) = none
      rw [ih rest hrest fun heq => hne (by rw [heq])]
      rfl

/-- Two bytes. -/
def pair : Tensor := ⟨.uint8, [2], [7, 9], rfl⟩

/-- The record of a blob of two bytes that is not compressed. -/
def pairCompression : Dict ℚ :=
  [("mode", .str "none"), ("applied", .bool false), ("original_bytes", .int 2),
    ("wire_bytes", .int 2), ("compression_time_ms", .float 0), ("compression_ratio", .float 1)]

def pairRequest : Dict ℚ :=
  [("transport", .dict [("payload_compression", .dict pairCompression)])]

def pairHeader : Dict ℚ :=
  requestHeader pairRequest [("dtype", .str "torch.uint8"), ("shape", shapeList [2]),
    ("byte_order", .str "little"), ("tensor_bytes", .int 2)]

/-- What `json.dumps` writes for the header. -/
def pairText : String :=
  "\x7b\"wire_version\":2,\"kind\":\"request\",\"request\":\x7b\"transport\":" ++
  "\x7b\"payload_compression\":\x7b\"mode\":\"none\",\"applied\":false," ++
  "\"original_bytes\":2,\"wire_bytes\":2,\"compression_time_ms\":0.0," ++
  "\"compression_ratio\":1.0\x7d\x7d\x7d,\"tensor\":\x7b\"dtype\":\"torch.uint8\"," ++
  "\"shape\":[2],\"byte_order\":\"little\",\"tensor_bytes\":2\x7d\x7d"

/-- Libraries whose JSON functions know the one header. -/
def pairLibraries : Libraries ℚ where
  zero := 0
  one := 1
  ratio a b := a / b
  nonzero x := x != 0
  equalsInt x n := x == n
  str
    | .str text => text
    | _ => ""
  intOf
    | .int n => some n
    | _ => none
  byteOrder := "little"
  dumps value := if same value (.dict pairHeader) then some pairText else none
  loads text := if text = pairText then some (.dict pairHeader) else none
  compress := delimit
  decompress := undelimit
  torchLoad _ := none
  decodeTensorRaw _ := none
  str_str _ := rfl
  intOf_int _ := rfl
  loads_dumps value text _ h := by
    split_ifs at h with hsame
    cases h
    rw [if_pos rfl, eq_of_same _ _ hsame]
  decompress_compress := undelimit_delimit
  decompress_truncated := undelimit_truncated
  torchLoad_truncated _ _ _ := rfl

/-- Two bytes sent without compression. -/
theorem request_round_trip_pair :
    ∃ packed, packRequest pairLibraries pairRequest [7, 9]
        (tensorMetadata pairLibraries pair [7, 9]) = .ok packed ∧
      receiveRequest pairLibraries packed = .ok (pairRequest, pair) ∧
      ∀ cut, cut <+: packed → cut ≠ packed →
        ∃ e, receiveRequest pairLibraries cut = .error e := by
  have hdumps : pairLibraries.dumps (.dict pairHeader) = some pairText := by decide +kernel
  have hpacked := packV2_of_dumps [7, 9] hdumps (by decide +kernel)
  have hcompression : (Value.dict pairCompression).IsJson := by
    rw [Value.IsJson]
    exact ⟨by decide, trivial, trivial, trivial, trivial, trivial, trivial, trivial⟩
  have htransport : (Value.dict [("payload_compression", .dict pairCompression)]).IsJson := by
    rw [Value.IsJson]
    exact ⟨by decide, hcompression, trivial⟩
  have hjson : (Value.dict pairRequest).IsJson := by
    rw [pairRequest, Value.IsJson]
    exact ⟨by decide, htransport, trivial⟩
  have hprepared : prepareTensorBlob pairLibraries ⟨"binary_octet_stream", "none"⟩ none 0 [7, 9] =
      .ok ([7, 9], pairCompression) := rfl
  have hnonempty : 0 < pair.shape.prod := by decide
  exact ⟨_, hpacked, request_round_trip hjson hnonempty (by decide) rfl hprepared rfl hpacked⟩

end Example

end LayerInference.BinaryTransport
