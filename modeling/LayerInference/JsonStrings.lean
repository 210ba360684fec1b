import LayerInference.JsonText
import LayerInference.TextStreams

/-!
# What a JSON string literal denotes

The contents of a literal are plain bytes, short escapes and escapes of code
units. A pair of surrogates is one scalar value, and a scalar value is written in
UTF-8; a surrogate on its own denotes nothing. The escapes that the services write
denote the bytes that they were written for.
-/

namespace LayerInference.JsonStrings

open ByteStrings TextStreams JsonText

section Denotation

/-- A piece of a literal: a byte, or a code unit. -/
inductive Item where
  | byte (b : UInt8)
  | unit (value : ℕ)

/-- The byte of a short escape. -/
def shortEscape (c : UInt8) : Option UInt8 :=
  if c = 34 ∨ c = 92 ∨ c = 47 then some c
  else if c = 98 then some 8
  else if c = 102 then some 12
  else if c = 110 then some 10
  else if c = 114 then some 13
  else if c = 116 then some 9
  else none

def hexValue (c : UInt8) : Option ℕ :=
  if isDigit c then some (c.toNat - 48)
  else if 97 ≤ c ∧ c ≤ 102 then some (c.toNat - 87)
  else if 65 ≤ c ∧ c ≤ 70 then some (c.toNat - 55)
  else none

/-- The code unit that four hexadecimal digits write. -/
def hexUnit (a b c d : UInt8) : Option ℕ :=
  match hexValue a, hexValue b, hexValue c, hexValue d with
  | some a, some b, some c, some d => some (4096 * a + 256 * b + 16 * c + d)
  | _, _, _, _ => none

/-- The pieces of the contents of a literal. -/
def items : Bytes → Option (List Item)
  | [] => some []
  | 92 :: 117 :: a :: b :: c :: d :: rest =>
    match hexUnit a b c d with
    | some value => (items rest).map (.unit value :: ·)
    | none => none
  | 92 :: c :: rest =>
    match shortEscape c with
    | some b => (items rest).map (.byte b :: ·)
    | none => none
  | b :: rest => if b < 0x20 ∨ b = 34 ∨ b = 92 then none else (items rest).map (.byte b :: ·)

/-- A scalar value in UTF-8. -/
def utf8 (c : ℕ) : Bytes :=
  if c < 0x80 then [UInt8.ofNat c]
  else if c < 0x800 then [UInt8.ofNat (0xc0 + c / 64), UInt8.ofNat (0x80 + c % 64)]
  else if c < 0x10000 then
    [UInt8.ofNat (0xe0 + c / 4096), UInt8.ofNat (0x80 + c / 64 % 64), UInt8.ofNat (0x80 + c % 64)]
  else
    [UInt8.ofNat (0xf0 + c / 262144), UInt8.ofNat (0x80 + c / 4096 % 64),
      UInt8.ofNat (0x80 + c / 64 % 64), UInt8.ofNat (0x80 + c % 64)]

def isHighSurrogate (c : ℕ) : Bool := 0xd800 ≤ c && c < 0xdc00

def isLowSurrogate (c : ℕ) : Bool := 0xdc00 ≤ c && c < 0xe000

/-- The text of a list of pieces, with the surrogates in pairs. -/
def joinItems : List Item → Option Bytes
  | [] => some []
  | .byte b :: rest => (joinItems rest).map (b :: ·)
  | .unit high :: .unit low :: rest =>
    if isHighSurrogate high && isLowSurrogate low then
      (joinItems rest).map (utf8 (0x10000 + 1024 * (high - 0xd800) + (low - 0xdc00)) ++ ·)
    else if isHighSurrogate high || isLowSurrogate high then none
    else (joinItems (.unit low :: rest)).map (utf8 high ++ ·)
  | .unit value :: rest =>
    if isHighSurrogate value || isLowSurrogate value then none
    else (joinItems rest).map (utf8 value ++ ·)

/-- The string that the contents of a literal denote, in UTF-8. -/
def denote (contents : Bytes) : Option Bytes := (items contents).bind joinItems

end Denotation

section Escapes

theorem denote_nil : denote [] = some [] := rfl

/-- A code unit that is no surrogate stands for itself, whatever follows. -/
theorem joinItems_unit {value : ℕ} (h : value < 0xd800) (rest : List Item) :
    joinItems (.unit value :: rest) = (joinItems rest).map (utf8 value ++ ·) := by
  have hhigh : isHighSurrogate value = false := by
    rw [isHighSurrogate, decide_eq_false (by omega), Bool.false_and]
  have hlow : isLowSurrogate value = false := by
    rw [isLowSurrogate, decide_eq_false (by omega), Bool.false_and]
  have hplain : (isHighSurrogate value || isLowSurrogate value) = false := by
    rw [hhigh, hlow, Bool.false_or]
  cases rest with
  | nil =>
    change (if (isHighSurrogate value || isLowSurrogate value) = true then none else _) = _
    rw [hplain, if_neg Bool.false_ne_true]
  | cons item rest =>
    cases item with
    | byte b =>
      change (if (isHighSurrogate value || isLowSurrogate value) = true then none else _) = _
      rw [hplain, if_neg Bool.false_ne_true]
    | unit low =>
      change (if (isHighSurrogate value && isLowSurrogate low) = true then _ else
        if (isHighSurrogate value || isLowSurrogate value) = true then none else _) = _
      have hpair : (isHighSurrogate value && isLowSurrogate low) = false := by
        rw [hhigh, Bool.false_and]
      rw [hpair, if_neg Bool.false_ne_true, hplain, if_neg Bool.false_ne_true]

/-- The bytes that a literal holds as they are. -/
theorem denote_plain {b : UInt8} (hcontrol : ¬b < 0x20) (hquote : b ≠ 34) (hslash : b ≠ 92)
    (rest : Bytes) : denote (b :: rest) = (denote rest).map (b :: ·) := by
  have hitems : items (b :: rest) = (items rest).map (.byte b :: ·) := by
    conv_lhs => unfold items
    split
    · next heq => cases heq
    · next heq => exact absurd (List.cons.inj heq).1 hslash
    · next heq => exact absurd (List.cons.inj heq).1 hslash
    · next heq =>
      cases heq
      rw [if_neg (by rw [not_or, not_or]; exact ⟨hcontrol, hquote, hslash⟩)]
  rw [denote, denote, hitems]
  cases items rest with
  | none => rfl
  | some found => rfl

theorem denote_short {c b : UInt8} (hunit : c ≠ 117) (hshort : shortEscape c = some b)
    (rest : Bytes) : denote (92 :: c :: rest) = (denote rest).map (b :: ·) := by
  have hitems : items (92 :: c :: rest) = (items rest).map (.byte b :: ·) := by
    conv_lhs => unfold items
    split
    · next heq => cases heq
    · next heq => exact absurd (List.cons.inj (List.cons.inj heq).2).1 hunit
    · next heq =>
      cases heq
      rw [hshort]
    · next hother heq =>
      cases heq
      exact absurd rfl (hother c rest rfl)
  rw [denote, denote, hitems]
  cases items rest with
  | none => rfl
  | some found => rfl

/-- The escape of a control byte is the code unit of the byte. -/
theorem denote_control {c : UInt8} (h : c < 0x20) (rest : Bytes) :
    denote (ascii "\\u00" ++ [hexDigit ((c >>> 4) &&& 0x0f), hexDigit (c &&& 0x0f)] ++ rest) =
      (denote rest).map (c :: ·) := by
  have hall : ∀ n < 32, hexUnit 48 48 (hexDigit ((UInt8.ofNat n >>> 4) &&& 0x0f))
      (hexDigit (UInt8.ofNat n &&& 0x0f)) = some n := by
    decide +kernel
  have hlt : c.toNat < 32 := UInt8.lt_iff_toNat_lt.mp h
  have hunit := hall c.toNat hlt
  rw [UInt8.ofNat_toNat] at hunit
  have hitems : items (ascii "\\u00" ++ [hexDigit ((c >>> 4) &&& 0x0f), hexDigit (c &&& 0x0f)] ++
      rest) = (items rest).map (.unit c.toNat :: ·) := by
    change items (92 :: 117 :: 48 :: 48 :: hexDigit ((c >>> 4) &&& 0x0f) :: hexDigit (c &&& 0x0f) ::
      rest) = _
    rw [items, hunit]
  have hutf8 : utf8 c.toNat = [c] := by
    rw [utf8, if_pos (by omega), UInt8.ofNat_toNat]
  rw [denote, denote, hitems]
  cases items rest with
  | none => rfl
  | some found =>
    change joinItems (.unit c.toNat :: found) = (joinItems found).map (c :: ·)
    rw [joinItems_unit (by omega), hutf8]
    rfl

/-- The escape of a byte denotes the byte. -/
theorem denote_jsonEscapeByte (c : UInt8) (rest : Bytes) :
    denote (jsonEscapeByte c ++ rest) = (denote rest).map (c :: ·) := by
  unfold jsonEscapeByte
  by_cases hquote : c = 34
  · rw [if_pos hquote, hquote]
    exact denote_short (by decide) (by decide) rest
  rw [if_neg hquote]
  by_cases hslash : c = 92
  · rw [if_pos hslash, hslash]
    exact denote_short (by decide) (by decide) rest
  rw [if_neg hslash]
  by_cases hback : c = 8
  · rw [if_pos hback, hback]
    exact denote_short (by decide) (by decide) rest
  rw [if_neg hback]
  by_cases hfeed : c = 12
  · rw [if_pos hfeed, hfeed]
    exact denote_short (by decide) (by decide) rest
  rw [if_neg hfeed]
  by_cases hline : c = 10
  · rw [if_pos hline, hline]
    exact denote_short (by decide) (by decide) rest
  rw [if_neg hline]
  by_cases hreturn : c = 13
  · rw [if_pos hreturn, hreturn]
    exact denote_short (by decide) (by decide) rest
  rw [if_neg hreturn]
  by_cases htab : c = 9
  · rw [if_pos htab, htab]
    exact denote_short (by decide) (by decide) rest
  rw [if_neg htab]
  by_cases hcontrol : c < 0x20
  · rw [if_pos hcontrol]
    exact denote_control hcontrol rest
  · rw [if_neg hcontrol]
    exact denote_plain hcontrol hquote hslash rest

/-- What is escaped is denoted. -/
theorem denote_jsonEscape (value : Bytes) : denote (jsonEscape value) = some value := by
  induction value with
  | nil => rfl
  | cons c value ih =>
    have hcons : jsonEscape (c :: value) = jsonEscapeByte c ++ jsonEscape value := rfl
    rw [hcons, denote_jsonEscapeByte, ih]
    rfl

end Escapes

end LayerInference.JsonStrings
