import Mathlib.Data.List.DropRight
import Mathlib.Data.Nat.Digits.Defs
import Mathlib.Tactic.Ring
import Mathlib.Data.Nat.Bitwise

/-!
# Byte strings and little-endian words

A byte string is a list of unsigned bytes, with no text encoding attached.
Words are written least significant byte first at a fixed width. Reading is
the plain base-256 evaluation, so writing and reading are inverse on words
that fit the width, in both directions. Nothing here belongs to one format.
-/

namespace LayerInference.ByteStrings

/-- Raw bytes, the contents of a byte vector or of a byte string. -/
abbrev Bytes := List UInt8

/-- The bytes of an ASCII literal. -/
def ascii (text : String) : Bytes := text.toList.map fun c => UInt8.ofNat c.toNat

/-- The decimal digits of a number, most significant first. -/
def decimalNat (n : ℕ) : Bytes :=
  if n = 0 then ascii "0" else (Nat.digits 10 n).reverse.map fun d => UInt8.ofNat (48 + d)

/-- The text of a signed integer. -/
def decimal (value : ℤ) : Bytes :=
  if value < 0 then ascii "-" ++ decimalNat value.natAbs else decimalNat value.natAbs

/-- The first position at which `needle` occurs. -/
def find (needle : Bytes) : Bytes → Option ℕ
  | [] => if needle.isEmpty then some 0 else none
  | b :: rest =>
    if needle.isPrefixOf (b :: rest) then some 0 else (find needle rest).map (· + 1)

/-- White space of the C locale. -/
def isSpace (b : UInt8) : Bool := b == 32 || (9 ≤ b && b ≤ 13)

/-- Remove white space at both ends. -/
def trimCopy (text : Bytes) : Bytes := (text.dropWhile isSpace).rdropWhile isSpace

/-- The `width` low bytes of a number, least significant first. -/
def wordBytes : ℕ → ℕ → Bytes
  | 0, _ => []
  | width + 1, value => UInt8.ofNat value :: wordBytes width (value / 256)

/-- The number written by little-endian bytes. -/
def bytesWord : Bytes → ℕ
  | [] => 0
  | b :: tail => b.toNat + 256 * bytesWord tail

@[simp] theorem wordBytes_length (width value : ℕ) : (wordBytes width value).length = width := by
  induction width generalizing value with
  | zero => rfl
  | succ width ih => simp only [wordBytes, List.length_cons, ih]

/-- A byte string denotes a number below its own capacity. -/
theorem bytesWord_lt (bytes : Bytes) : bytesWord bytes < 256 ^ bytes.length := by
  induction bytes with
  | nil => simp [bytesWord]
  | cons b tail ih =>
    have hb : b.toNat < 256 := b.toNat_lt
    simp only [bytesWord, List.length_cons, pow_succ]
    omega

/-- Reading back a word that fits the width. -/
theorem bytesWord_wordBytes {width value : ℕ} (h : value < 256 ^ width) :
    bytesWord (wordBytes width value) = value := by
  induction width generalizing value with
  | zero => simp only [pow_zero] at h; simp only [wordBytes, bytesWord]; omega
  | succ width ih =>
    have hq : value / 256 < 256 ^ width := by
      rw [pow_succ] at h
      exact Nat.div_lt_of_lt_mul (by omega)
    simp only [wordBytes, bytesWord, ih hq, UInt8.toNat_ofNat']
    omega

/-- Writing back the number that some bytes denote restores the bytes. -/
theorem wordBytes_bytesWord (bytes : Bytes) : wordBytes bytes.length (bytesWord bytes) = bytes := by
  induction bytes with
  | nil => rfl
  | cons b tail ih =>
    have hb : b.toNat < 256 := b.toNat_lt
    have hq : (b.toNat + 256 * bytesWord tail) / 256 = bytesWord tail := by omega
    have hlow : UInt8.ofNat (b.toNat + 256 * bytesWord tail) = b := by
      apply UInt8.toNat_inj.mp
      rw [UInt8.toNat_ofNat']
      omega
    simp only [List.length_cons, bytesWord, wordBytes, hq, ih, hlow]

/-- Bytes of equal length that denote the same number are the same bytes. -/
theorem bytesWord_injective {xs ys : Bytes} (hl : xs.length = ys.length)
    (h : bytesWord xs = bytesWord ys) : xs = ys := by
  rw [← wordBytes_bytesWord xs, ← wordBytes_bytesWord ys, hl, h]

/-- Concatenation puts the second word above the first. -/
theorem bytesWord_append (xs ys : Bytes) :
    bytesWord (xs ++ ys) = bytesWord xs + 256 ^ xs.length * bytesWord ys := by
  induction xs with
  | nil => simp [bytesWord]
  | cons b tail ih =>
    simp only [List.cons_append, bytesWord, ih, List.length_cons, pow_succ]
    ring

/-- Joining a higher byte by a bitwise or is addition when the low part fits. -/
theorem or_shiftLeft_eq_add {low high k : ℕ} (h : low < 2 ^ k) :
    low ||| high <<< k = low + high * 2 ^ k := by
  rw [Nat.lor_comm, ← Nat.shiftLeft_add_eq_or_of_lt h, Nat.shiftLeft_eq, Nat.add_comm]

end LayerInference.ByteStrings
