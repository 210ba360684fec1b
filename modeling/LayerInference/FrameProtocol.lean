import LayerInference.ByteStrings
import Mathlib.Data.UInt

/-!
# The DLI2 frame codec

A frame is a metadata string and a tensor payload behind a fixed header of
twenty bytes: magic, version, and the two section lengths at different
widths. Encoding refuses a section above its limit. Decoding checks the
header, both limits and the exact total size, so a frame has one encoding
and every accepted byte string is one.
-/

namespace LayerInference.FrameProtocol

open ByteStrings

/-- The four magic bytes. -/
def dli2Magic : Bytes := ascii "DLI2"

/-- The only protocol version that decoding accepts. -/
def dli2Version : UInt32 := 2

/-- Magic, version, metadata length and tensor length. -/
def dli2HeaderBytes : ℕ := 20

/-- 16 MiB of metadata. -/
def dli2MaxMetadataBytes : ℕ := 16 * 1024 * 1024

/-- 8 GiB of tensor payload. -/
def dli2MaxTensorBytes : ℕ := 8 * 1024 * 1024 * 1024

/-- A decoded frame. -/
structure DliFrame where
  /-- Metadata text, uninterpreted at this level. -/
  metadataJson : Bytes
  /-- Raw little-endian tensor payload. -/
  tensorBytes : Bytes
  deriving DecidableEq

/-- Append a 32-bit word, low byte first. -/
def appendU32Le (out : Bytes) (value : UInt32) : Bytes :=
  out ++ [(value &&& 0xff).toUInt8, ((value >>> 8) &&& 0xff).toUInt8,
    ((value >>> 16) &&& 0xff).toUInt8, ((value >>> 24) &&& 0xff).toUInt8]

/-- Append a 64-bit word, low byte first, by the shifts 0, 8, up to 56. -/
def appendU64Le (out : Bytes) (value : UInt64) : Bytes :=
  (List.range 8).foldl
    (fun out i => out ++ [((value >>> UInt64.ofNat (8 * i)) &&& 0xff).toUInt8]) out

/-- Read a 32-bit word from the first four bytes. -/
def readU32Le (data : Bytes) : UInt32 :=
  (data.getD 0 0).toUInt32 ||| ((data.getD 1 0).toUInt32 <<< 8) |||
    ((data.getD 2 0).toUInt32 <<< 16) ||| ((data.getD 3 0).toUInt32 <<< 24)

/-- Read a 64-bit word from the first eight bytes. -/
def readU64Le (data : Bytes) : UInt64 :=
  (List.range 8).foldl
    (fun value i => value ||| ((data.getD i 0).toUInt64 <<< UInt64.ofNat (i * 8))) 0

/-- Compare the first four bytes with the magic. -/
def magicMatches (data : Bytes) : Bool := data.take 4 == dli2Magic

/-- Serialize a frame. The last size test is carried out in 64-bit words. -/
def encodeFrame (frame : DliFrame) : Except Bytes Bytes :=
  if frame.metadataJson.length > dli2MaxMetadataBytes then
    .error (ascii "DLI2 metadata JSON exceeds maximum allowed size")
  else if frame.tensorBytes.length > dli2MaxTensorBytes then
    .error (ascii "DLI2 tensor payload exceeds maximum allowed size")
  else
    let metadataLen := UInt32.ofNat frame.metadataJson.length
    let tensorLen := UInt64.ofNat frame.tensorBytes.length
    if UInt64.ofNat dli2HeaderBytes + metadataLen.toUInt64 + tensorLen >
        UInt64.ofNat (2 ^ 64 - 1) then
      .error (ascii "DLI2 frame is too large for this platform")
    else
      .ok (appendU64Le (appendU32Le (appendU32Le dli2Magic dli2Version) metadataLen) tensorLen ++
        frame.metadataJson ++ frame.tensorBytes)

/-- Parse a frame. The null-pointer test cannot fire on a vector and is left
out; the expected size is computed in 64-bit words as in the source. -/
def decodeFrame (bytes : Bytes) : Except Bytes DliFrame :=
  if bytes.length < dli2HeaderBytes then
    .error (ascii "DLI2 frame is smaller than fixed header")
  else if !magicMatches bytes then
    .error (ascii "DLI2 frame has invalid magic")
  else if readU32Le (bytes.drop 4) ≠ dli2Version then
    .error (ascii "DLI2 frame has unsupported version")
  else
    let metadataLen := readU32Le (bytes.drop 8)
    let tensorLen := readU64Le (bytes.drop 12)
    if metadataLen.toNat > dli2MaxMetadataBytes then
      .error (ascii "DLI2 metadata length exceeds maximum allowed size")
    else if tensorLen.toNat > dli2MaxTensorBytes then
      .error (ascii "DLI2 tensor length exceeds maximum allowed size")
    else if (UInt64.ofNat dli2HeaderBytes + metadataLen.toUInt64 + tensorLen).toNat ≠
        bytes.length then
      .error (ascii "DLI2 frame size does not match metadata/tensor lengths")
    else
      .ok ⟨(bytes.drop dli2HeaderBytes).take metadataLen.toNat,
        (bytes.drop (dli2HeaderBytes + metadataLen.toNat)).take tensorLen.toNat⟩

/-- Masking with the low byte is reduction modulo 256. -/
theorem land_low_byte (n : ℕ) : n &&& 255 = n % 256 := Nat.and_two_pow_sub_one_eq_mod n 8

/-- Appending a 32-bit word adds its four little-endian bytes. -/
theorem appendU32Le_eq (out : Bytes) (value : UInt32) :
    appendU32Le out value = out ++ wordBytes 4 value.toNat := by
  have hbyte (k : ℕ) (v : UInt32) (hv : v.toNat = value.toNat / 256 ^ k) :
      (v &&& 0xff).toUInt8 = UInt8.ofNat (value.toNat / 256 ^ k) := by
    apply UInt8.toNat_inj.mp
    simp [land_low_byte, hv]
  simp only [appendU32Le, wordBytes, Nat.div_div_eq_div_mul]
  congr 1
  rw [hbyte 0 value (by simp), hbyte 1 (value >>> 8) (by simp [Nat.shiftRight_eq_div_pow]),
    hbyte 2 (value >>> 16) (by simp [Nat.shiftRight_eq_div_pow]),
    hbyte 3 (value >>> 24) (by simp [Nat.shiftRight_eq_div_pow])]
  simp

/-- Appending a 64-bit word adds its eight little-endian bytes. -/
theorem appendU64Le_eq (out : Bytes) (value : UInt64) :
    appendU64Le out value = out ++ wordBytes 8 value.toNat := by
  have hbyte (k : ℕ) (hk : 8 * k < 64) :
      ((value >>> UInt64.ofNat (8 * k)) &&& 0xff).toUInt8 =
        UInt8.ofNat (value.toNat / 256 ^ k) := by
    have hshift : (UInt64.ofNat (8 * k)).toNat % 64 = 8 * k := by
      rw [UInt64.toNat_ofNat', Nat.mod_eq_of_lt (a := 8 * k) (by omega), Nat.mod_eq_of_lt hk]
    apply UInt8.toNat_inj.mp
    rw [UInt8.toNat_ofNat', UInt64.toNat_toUInt8, UInt64.toNat_and, UInt64.toNat_shiftRight,
      hshift, Nat.shiftRight_eq_div_pow, pow_mul, show (0xff : UInt64).toNat = 255 from rfl,
      land_low_byte]
    exact Nat.mod_mod _ _
  have hrange : List.range 8 = [0, 1, 2, 3, 4, 5, 6, 7] := rfl
  simp only [appendU64Le, hrange, List.foldl_cons, List.foldl_nil, wordBytes,
    Nat.div_div_eq_div_mul, List.append_assoc, List.cons_append, List.nil_append]
  congr 1
  rw [hbyte 0 (by omega), hbyte 1 (by omega), hbyte 2 (by omega), hbyte 3 (by omega),
    hbyte 4 (by omega), hbyte 5 (by omega), hbyte 6 (by omega), hbyte 7 (by omega)]
  simp

/-- Reading a 32-bit word evaluates its first four bytes. -/
theorem readU32Le_toNat {data : Bytes} (h : 4 ≤ data.length) :
    (readU32Le data).toNat = bytesWord (data.take 4) := by
  obtain ⟨a, b, c, d, rest, rfl⟩ : ∃ a b c d rest, data = a :: b :: c :: d :: rest := by
    match data, h with
    | a :: b :: c :: d :: rest, _ => exact ⟨a, b, c, d, rest, rfl⟩
  have ha := a.toNat_lt
  have hb := b.toNat_lt
  have hc := c.toNat_lt
  have hd := d.toNat_lt
  have hor₁ : a.toNat ||| b.toNat <<< 8 = a.toNat + b.toNat * 2 ^ 8 := or_shiftLeft_eq_add ha
  have hor₂ : (a.toNat + b.toNat * 2 ^ 8) ||| c.toNat <<< 16 =
      a.toNat + b.toNat * 2 ^ 8 + c.toNat * 2 ^ 16 := or_shiftLeft_eq_add (by omega)
  have hor₃ : (a.toNat + b.toNat * 2 ^ 8 + c.toNat * 2 ^ 16) ||| d.toNat <<< 24 =
      a.toNat + b.toNat * 2 ^ 8 + c.toNat * 2 ^ 16 + d.toNat * 2 ^ 24 :=
    or_shiftLeft_eq_add (by omega)
  have hs (x : UInt8) (k : ℕ) (hk : k ≤ 24) : x.toNat <<< k % 2 ^ 32 = x.toNat <<< k := by
    apply Nat.mod_eq_of_lt
    have hx := x.toNat_lt
    have hp : 2 ^ k ≤ 2 ^ 24 := Nat.pow_le_pow_right (by omega) hk
    rw [Nat.shiftLeft_eq]
    calc x.toNat * 2 ^ k ≤ 255 * 2 ^ 24 := Nat.mul_le_mul (by omega) hp
      _ < 2 ^ 32 := by norm_num
  simp only [readU32Le, List.getD_cons_zero, List.getD_cons_succ, UInt32.toNat_or,
    UInt32.toNat_shiftLeft, UInt8.toNat_toUInt32]
  simp only [show (8 : UInt32).toNat % 32 = 8 from rfl, show (16 : UInt32).toNat % 32 = 16 from rfl,
    show (24 : UInt32).toNat % 32 = 24 from rfl, hs b 8 (by omega), hs c 16 (by omega),
    hs d 24 (by omega), hor₁, hor₂, hor₃, List.take_succ_cons, List.take_zero, bytesWord]
  omega

/-- Each pass of the 64-bit reading loop adds one higher byte. -/
theorem readU64Le_loop {data : Bytes} {n : ℕ} (hn : n ≤ 8) (h : n ≤ data.length) :
    ((List.range n).foldl
      (fun value i => value ||| ((data.getD i 0).toUInt64 <<< UInt64.ofNat (i * 8))) 0).toNat =
      bytesWord (data.take n) := by
  induction n with
  | zero => rfl
  | succ n ih =>
    have hget : data.getD n 0 = data[n] := List.getD_eq_getElem data 0 h
    have hlow : bytesWord (data.take n) < 2 ^ (n * 8) := by
      have hlt := bytesWord_lt (data.take n)
      rwa [List.length_take_of_le (by omega), show 256 = 2 ^ 8 from rfl, ← pow_mul,
        Nat.mul_comm] at hlt
    have hshift : (UInt64.ofNat (n * 8)).toNat % 64 = n * 8 := by
      rw [UInt64.toNat_ofNat', Nat.mod_eq_of_lt (a := n * 8) (by omega),
        Nat.mod_eq_of_lt (by omega)]
    have hfit : data[n].toNat <<< (n * 8) % 2 ^ 64 = data[n].toNat <<< (n * 8) := by
      apply Nat.mod_eq_of_lt
      have hb := data[n].toNat_lt
      have hp : 2 ^ (n * 8) ≤ 2 ^ 56 := Nat.pow_le_pow_right (by omega) (by omega)
      rw [Nat.shiftLeft_eq]
      calc data[n].toNat * 2 ^ (n * 8) ≤ 255 * 2 ^ 56 := Nat.mul_le_mul (by omega) hp
        _ < 2 ^ 64 := by norm_num
    rw [List.range_succ, List.foldl_append, List.foldl_cons, List.foldl_nil, UInt64.toNat_or,
      ih (by omega) (by omega), UInt64.toNat_shiftLeft, hshift, hget, UInt8.toNat_toUInt64, hfit,
      or_shiftLeft_eq_add hlow, List.take_succ_eq_append_getElem (by omega), bytesWord_append,
      List.length_take_of_le (by omega), Nat.mul_comm n 8, pow_mul]
    simp only [bytesWord]
    ring

/-- Reading a 64-bit word evaluates its first eight bytes. -/
theorem readU64Le_toNat {data : Bytes} (h : 8 ≤ data.length) :
    (readU64Le data).toNat = bytesWord (data.take 8) :=
  readU64Le_loop le_rfl h

/-- Neither section of the frame exceeds its limit. -/
structure WithinLimits (frame : DliFrame) : Prop where
  /-- The metadata fits 16 MiB. -/
  metadata : frame.metadataJson.length ≤ dli2MaxMetadataBytes
  /-- The tensor payload fits 8 GiB. -/
  tensor : frame.tensorBytes.length ≤ dli2MaxTensorBytes

/-- The wire form of a frame, independent of both implementations. -/
def frameBytes (frame : DliFrame) : Bytes :=
  dli2Magic ++ (wordBytes 4 2 ++ (wordBytes 4 frame.metadataJson.length ++
    (wordBytes 8 frame.tensorBytes.length ++ (frame.metadataJson ++ frame.tensorBytes))))

theorem dli2Magic_length : dli2Magic.length = 4 := rfl

theorem frameBytes_length (frame : DliFrame) :
    (frameBytes frame).length =
      dli2HeaderBytes + frame.metadataJson.length + frame.tensorBytes.length := by
  simp only [frameBytes, List.length_append, wordBytes_length, dli2Magic_length, dli2HeaderBytes]
  omega

/-- The 64-bit size sum never wraps once both limits hold. -/
theorem frame_size_sum {metadataLen : UInt32} {tensorLen : UInt64}
    (hm : metadataLen.toNat ≤ dli2MaxMetadataBytes) (ht : tensorLen.toNat ≤ dli2MaxTensorBytes) :
    (UInt64.ofNat dli2HeaderBytes + metadataLen.toUInt64 + tensorLen).toNat =
      dli2HeaderBytes + metadataLen.toNat + tensorLen.toNat := by
  simp only [dli2MaxMetadataBytes, dli2MaxTensorBytes] at hm ht
  simp only [UInt64.toNat_add, UInt64.toNat_ofNat', UInt32.toNat_toUInt64, dli2HeaderBytes]
  omega

/-- Encoding succeeds exactly within the limits and writes the wire form. -/
theorem encodeFrame_ok_iff (frame : DliFrame) (bytes : Bytes) :
    encodeFrame frame = .ok bytes ↔ WithinLimits frame ∧ bytes = frameBytes frame := by
  by_cases hm : frame.metadataJson.length > dli2MaxMetadataBytes
  · simp only [encodeFrame, if_pos hm, reduceCtorEq, false_iff]
    exact fun h => absurd h.1.metadata (by omega)
  by_cases ht : frame.tensorBytes.length > dli2MaxTensorBytes
  · simp only [encodeFrame, if_neg hm, if_pos ht, reduceCtorEq, false_iff]
    exact fun h => absurd h.1.tensor (by omega)
  have hw : WithinLimits frame := ⟨by omega, by omega⟩
  simp only [dli2MaxMetadataBytes, dli2MaxTensorBytes] at hm ht
  have hml : (UInt32.ofNat frame.metadataJson.length).toNat = frame.metadataJson.length := by
    rw [UInt32.toNat_ofNat']
    omega
  have htl : (UInt64.ofNat frame.tensorBytes.length).toNat = frame.tensorBytes.length := by
    rw [UInt64.toNat_ofNat']
    omega
  have hsum := frame_size_sum (hml.le.trans hw.metadata) (htl.le.trans hw.tensor)
  have hbig : ¬UInt64.ofNat dli2HeaderBytes +
      (UInt32.ofNat frame.metadataJson.length).toUInt64 +
        UInt64.ofNat frame.tensorBytes.length > UInt64.ofNat (2 ^ 64 - 1) := by
    rw [gt_iff_lt, UInt64.lt_iff_toNat_lt, hsum, hml, htl, UInt64.toNat_ofNat', dli2HeaderBytes]
    omega
  have hout : appendU64Le (appendU32Le (appendU32Le dli2Magic dli2Version)
      (UInt32.ofNat frame.metadataJson.length)) (UInt64.ofNat frame.tensorBytes.length) ++
        frame.metadataJson ++ frame.tensorBytes = frameBytes frame := by
    simp only [appendU32Le_eq, appendU64Le_eq, hml, htl, frameBytes, List.append_assoc]
    rfl
  rw [encodeFrame, if_neg (by simpa [dli2MaxMetadataBytes] using hm),
    if_neg (by simpa [dli2MaxTensorBytes] using ht)]
  dsimp only
  rw [if_neg hbig, hout, Except.ok.injEq]
  exact ⟨fun h => ⟨hw, h.symm⟩, fun h => h.2.symm⟩

/-- A byte string with a full header is its five consecutive sections. -/
theorem header_sections (bytes : Bytes) :
    bytes = bytes.take 4 ++ ((bytes.drop 4).take 4 ++ ((bytes.drop 8).take 4 ++
      ((bytes.drop 12).take 8 ++ bytes.drop 20))) := by
  have h₃ : (bytes.drop 12).take 8 ++ bytes.drop 20 = bytes.drop 12 := by
    simpa using List.take_append_drop 8 (bytes.drop 12)
  have h₂ : (bytes.drop 8).take 4 ++ bytes.drop 12 = bytes.drop 8 := by
    simpa using List.take_append_drop 4 (bytes.drop 8)
  have h₁ : (bytes.drop 4).take 4 ++ bytes.drop 8 = bytes.drop 4 := by
    simpa using List.take_append_drop 4 (bytes.drop 4)
  rw [h₃, h₂, h₁, List.take_append_drop]

/-- A slice of known width is the little-endian form of the word it denotes. -/
theorem slice_eq_wordBytes (bytes : Bytes) (offset width : ℕ) {value : ℕ}
    (hl : offset + width ≤ bytes.length)
    (hv : bytesWord ((bytes.drop offset).take width) = value) :
    (bytes.drop offset).take width = wordBytes width value := by
  have hlen : ((bytes.drop offset).take width).length = width := by
    rw [List.length_take, List.length_drop]
    omega
  rw [← hv]
  conv_lhs => rw [← wordBytes_bytesWord ((bytes.drop offset).take width), hlen]

/-- An accepted byte string is the wire form of its frame. -/
theorem frameBytes_of_decodeFrame {bytes : Bytes} {frame : DliFrame}
    (h : decodeFrame bytes = .ok frame) : WithinLimits frame ∧ bytes = frameBytes frame := by
  unfold decodeFrame at h
  dsimp only at h
  split_ifs at h with hsize hmagic hversion hmeta htensor htotal
  cases h
  simp only [dli2HeaderBytes] at hsize
  have hver : readU32Le (bytes.drop 4) = dli2Version := not_not.mp hversion
  have hsum := not_not.mp htotal
  rw [frame_size_sum (by omega) (by omega), dli2HeaderBytes] at hsum
  have hl₀ : ((bytes.drop 20).take (readU32Le (bytes.drop 8)).toNat).length =
      (readU32Le (bytes.drop 8)).toNat := by
    rw [List.length_take, List.length_drop]
    omega
  have hl₁ : ((bytes.drop (20 + (readU32Le (bytes.drop 8)).toNat)).take
      (readU64Le (bytes.drop 12)).toNat).length = (readU64Le (bytes.drop 12)).toNat := by
    rw [List.length_take, List.length_drop]
    omega
  refine ⟨⟨?_, ?_⟩, ?_⟩
  · simp only [dli2HeaderBytes, hl₀]
    omega
  · simp only [dli2HeaderBytes, hl₁]
    omega
  · have hm : bytes.take 4 = dli2Magic := by simpa [magicMatches] using hmagic
    have hv := slice_eq_wordBytes bytes 4 4 (by omega)
      (readU32Le_toNat (by rw [List.length_drop]; omega)).symm
    have hml := slice_eq_wordBytes bytes 8 4 (by omega)
      (readU32Le_toNat (by rw [List.length_drop]; omega)).symm
    have htl := slice_eq_wordBytes bytes 12 8 (by omega)
      (readU64Le_toNat (by rw [List.length_drop]; omega)).symm
    have hbody : (bytes.drop 20).take (readU32Le (bytes.drop 8)).toNat ++
        (bytes.drop (20 + (readU32Le (bytes.drop 8)).toNat)).take
          (readU64Le (bytes.drop 12)).toNat = bytes.drop 20 := by
      rw [← List.drop_drop]
      conv_lhs =>
        rw [List.take_of_length_le
          (show ((bytes.drop 20).drop _).length ≤ _ by
            rw [List.length_drop, List.length_drop]; omega)]
      exact List.take_append_drop _ _
    conv_lhs => rw [header_sections bytes, hm, hv, hml, htl, hver, ← hbody]
    simp only [frameBytes, dli2HeaderBytes, hl₀, hl₁]
    rfl

/-- The tails of a wire form behind the magic, the version and the two lengths. -/
theorem frameBytes_drop (frame : DliFrame) :
    (frameBytes frame).drop 4 = wordBytes 4 2 ++ (wordBytes 4 frame.metadataJson.length ++
      (wordBytes 8 frame.tensorBytes.length ++ (frame.metadataJson ++ frame.tensorBytes))) ∧
    (frameBytes frame).drop 8 = wordBytes 4 frame.metadataJson.length ++
      (wordBytes 8 frame.tensorBytes.length ++ (frame.metadataJson ++ frame.tensorBytes)) ∧
    (frameBytes frame).drop 12 = wordBytes 8 frame.tensorBytes.length ++
      (frame.metadataJson ++ frame.tensorBytes) ∧
    (frameBytes frame).drop 20 = frame.metadataJson ++ frame.tensorBytes := by
  have h₄ : (frameBytes frame).drop 4 = wordBytes 4 2 ++
      (wordBytes 4 frame.metadataJson.length ++ (wordBytes 8 frame.tensorBytes.length ++
        (frame.metadataJson ++ frame.tensorBytes))) := List.drop_left' dli2Magic_length
  have h₈ : (frameBytes frame).drop 8 = wordBytes 4 frame.metadataJson.length ++
      (wordBytes 8 frame.tensorBytes.length ++ (frame.metadataJson ++ frame.tensorBytes)) := by
    rw [show 8 = 4 + 4 from rfl, ← List.drop_drop, h₄]
    exact List.drop_left' (wordBytes_length 4 2)
  have h₁₂ : (frameBytes frame).drop 12 = wordBytes 8 frame.tensorBytes.length ++
      (frame.metadataJson ++ frame.tensorBytes) := by
    rw [show 12 = 8 + 4 from rfl, ← List.drop_drop, h₈]
    exact List.drop_left' (wordBytes_length 4 _)
  refine ⟨h₄, h₈, h₁₂, ?_⟩
  rw [show 20 = 12 + 8 from rfl, ← List.drop_drop, h₁₂]
  exact List.drop_left' (wordBytes_length 8 _)

/-- The header of a wire form states the two section lengths. -/
theorem frameBytes_lengths {frame : DliFrame} (hw : WithinLimits frame) :
    (readU32Le ((frameBytes frame).drop 8)).toNat = frame.metadataJson.length ∧
      (readU64Le ((frameBytes frame).drop 12)).toNat = frame.tensorBytes.length := by
  have hwm := hw.metadata
  have hwt := hw.tensor
  simp only [dli2MaxMetadataBytes, dli2MaxTensorBytes] at hwm hwt
  have hlen := frameBytes_length frame
  simp only [dli2HeaderBytes] at hlen
  obtain ⟨-, hd₈, hd₁₂, -⟩ := frameBytes_drop frame
  constructor
  · rw [readU32Le_toNat (by rw [List.length_drop]; omega), hd₈,
      List.take_left' (wordBytes_length 4 _), bytesWord_wordBytes (by omega)]
  · rw [readU64Le_toNat (by rw [List.length_drop]; omega), hd₁₂,
      List.take_left' (wordBytes_length 8 _), bytesWord_wordBytes (by omega)]

/-- The wire form of a frame within the limits decodes to the frame. -/
theorem decodeFrame_frameBytes {frame : DliFrame} (hw : WithinLimits frame) :
    decodeFrame (frameBytes frame) = .ok frame := by
  have hwm := hw.metadata
  have hwt := hw.tensor
  have hlen := frameBytes_length frame
  simp only [dli2HeaderBytes] at hlen
  obtain ⟨hd₄, -, -, hd₂₀⟩ := frameBytes_drop frame
  obtain ⟨hml, htl⟩ := frameBytes_lengths hw
  have hmagic : (frameBytes frame).take 4 = dli2Magic := List.take_left' dli2Magic_length
  have hver : readU32Le ((frameBytes frame).drop 4) = dli2Version := by
    apply UInt32.toNat_inj.mp
    rw [readU32Le_toNat (by rw [List.length_drop]; omega), hd₄,
      List.take_left' (wordBytes_length 4 2)]
    rfl
  have hsum := frame_size_sum (hml.le.trans hwm) (htl.le.trans hwt)
  rw [decodeFrame, if_neg (by rw [hlen, dli2HeaderBytes]; omega),
    if_neg (by simp [magicMatches, hmagic]), if_neg (not_not.mpr hver)]
  dsimp only
  rw [if_neg (by omega), if_neg (by omega),
    if_neg (by rw [hsum, hml, htl, hlen, dli2HeaderBytes]; simp), ← List.drop_drop, hml, htl]
  simp only [dli2HeaderBytes, hd₂₀, List.take_left, List.drop_left, List.take_length]

/-- Decoding accepts exactly the wire forms of frames within the limits. -/
theorem decodeFrame_ok_iff (bytes : Bytes) (frame : DliFrame) :
    decodeFrame bytes = .ok frame ↔ WithinLimits frame ∧ bytes = frameBytes frame := by
  constructor
  · exact frameBytes_of_decodeFrame
  · rintro ⟨hw, rfl⟩
    exact decodeFrame_frameBytes hw

/-- Encoding fails exactly when a section exceeds its limit. -/
theorem encodeFrame_error_iff (frame : DliFrame) :
    (∃ message, encodeFrame frame = .error message) ↔
      frame.metadataJson.length > dli2MaxMetadataBytes ∨
        frame.tensorBytes.length > dli2MaxTensorBytes := by
  constructor
  · rintro ⟨message, h⟩
    by_contra hlimits
    have hw : WithinLimits frame := ⟨by omega, by omega⟩
    rw [(encodeFrame_ok_iff frame (frameBytes frame)).mpr ⟨hw, rfl⟩] at h
    cases h
  · intro hlimits
    cases henc : encodeFrame frame with
    | error message => exact ⟨message, rfl⟩
    | ok bytes =>
      have hw := ((encodeFrame_ok_iff frame bytes).mp henc).1
      have hm := hw.metadata
      have ht := hw.tensor
      omega

/-- Reading a word depends only on the bytes it covers. -/
theorem readLengths_append {bytes : Bytes} (rest : Bytes) (h : dli2HeaderBytes ≤ bytes.length) :
    readU32Le ((bytes ++ rest).drop 8) = readU32Le (bytes.drop 8) ∧
      readU64Le ((bytes ++ rest).drop 12) = readU64Le (bytes.drop 12) := by
  simp only [dli2HeaderBytes] at h
  rw [List.drop_append_of_le_length (by omega), List.drop_append_of_le_length (by omega)]
  constructor
  · apply UInt32.toNat_inj.mp
    rw [readU32Le_toNat (by rw [List.length_append, List.length_drop]; omega),
      readU32Le_toNat (by rw [List.length_drop]; omega),
      List.take_append_of_le_length (by rw [List.length_drop]; omega)]
  · apply UInt64.toNat_inj.mp
    rw [readU64Le_toNat (by rw [List.length_append, List.length_drop]; omega),
      readU64Le_toNat (by rw [List.length_drop]; omega),
      List.take_append_of_le_length (by rw [List.length_drop]; omega)]

/-- The set of wire forms is prefix free: the header fixes the total length. -/
theorem frameBytes_prefix_free {frame other : DliFrame} {rest : Bytes}
    (hw : WithinLimits frame) (hw' : WithinLimits other)
    (h : frameBytes other = frameBytes frame ++ rest) : rest = [] := by
  have hlen := frameBytes_length frame
  have hlen' := frameBytes_length other
  obtain ⟨hml, htl⟩ := frameBytes_lengths hw
  obtain ⟨hml', htl'⟩ := frameBytes_lengths hw'
  obtain ⟨hr₃₂, hr₆₄⟩ := readLengths_append rest
    (show dli2HeaderBytes ≤ (frameBytes frame).length by omega)
  rw [h, hr₃₂] at hml'
  rw [h, hr₆₄] at htl'
  rw [h, List.length_append] at hlen'
  exact List.length_eq_zero_iff.mp (by omega)

/-- The frame codec is a bijection between the frames within the limits and
the accepted byte strings, and no accepted string extends another. -/
theorem frameCodec_bijective :
    (∀ frame, (∃ message, encodeFrame frame = .error message) ↔
      frame.metadataJson.length > dli2MaxMetadataBytes ∨
        frame.tensorBytes.length > dli2MaxTensorBytes) ∧
    (∀ frame bytes, encodeFrame frame = .ok bytes → decodeFrame bytes = .ok frame) ∧
    (∀ bytes frame, decodeFrame bytes = .ok frame → encodeFrame frame = .ok bytes) ∧
    (∀ frame bytes rest, encodeFrame frame = .ok (bytes ++ rest) → rest ≠ [] →
      ∃ message, decodeFrame bytes = .error message) ∧
    (∀ frame bytes rest, encodeFrame frame = .ok bytes → rest ≠ [] →
      ∃ message, decodeFrame (bytes ++ rest) = .error message) := by
  refine ⟨encodeFrame_error_iff, ?_, ?_, ?_, ?_⟩
  · intro frame bytes henc
    exact (decodeFrame_ok_iff bytes frame).mpr ((encodeFrame_ok_iff frame bytes).mp henc)
  · intro bytes frame hdec
    exact (encodeFrame_ok_iff frame bytes).mpr ((decodeFrame_ok_iff bytes frame).mp hdec)
  · intro frame bytes rest henc hrest
    cases hdec : decodeFrame bytes with
    | error message => exact ⟨message, rfl⟩
    | ok other =>
      obtain ⟨hw', rfl⟩ := frameBytes_of_decodeFrame hdec
      obtain ⟨hw, hbytes⟩ := (encodeFrame_ok_iff _ _).mp henc
      exact absurd (frameBytes_prefix_free hw' hw hbytes.symm) hrest
  · intro frame bytes rest henc hrest
    obtain ⟨hw, rfl⟩ := (encodeFrame_ok_iff _ _).mp henc
    cases hdec : decodeFrame (frameBytes frame ++ rest) with
    | error message => exact ⟨message, rfl⟩
    | ok other =>
      obtain ⟨hw', hbytes⟩ := frameBytes_of_decodeFrame hdec
      exact absurd (frameBytes_prefix_free hw hw' hbytes.symm) hrest

/-- The codec on a frame of three bytes, and with one byte more. -/
theorem frameCodec_bijective_small :
    decodeFrame (frameBytes ⟨ascii "{}", [7]⟩) = .ok ⟨ascii "{}", [7]⟩ ∧
      ∃ message, decodeFrame (frameBytes ⟨ascii "{}", [7]⟩ ++ [0]) = .error message := by
  have henc : encodeFrame ⟨ascii "{}", [7]⟩ = .ok (frameBytes ⟨ascii "{}", [7]⟩) := by decide
  exact ⟨frameCodec_bijective.2.1 _ _ henc, frameCodec_bijective.2.2.2.2 _ _ [0] henc (by simp)⟩

end LayerInference.FrameProtocol
