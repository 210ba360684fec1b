import LayerInference.JsonText
import LayerInference.QuotedTexts

/-!
# Fields of JSON texts

Objects are written field by field, and read back by searches for a quoted
key that know nothing of nesting. What such a search makes of a field is
stated here for each kind of text: a key, an escaped string and anything
without quotes. An escaped string reads back as the string that it came from.
-/

namespace LayerInference.JsonFields

open ByteStrings JsonText QuotedTexts

variable {β : Type}

/-- A string value. -/
def quoted (value : Bytes) : Bytes := 34 :: (jsonEscape value ++ [34])

def jsonField (key value : Bytes) : Bytes := 34 :: (key ++ 34 :: 58 :: value)

def joinFields (fields : List Bytes) : Bytes := [44].intercalate fields

def jsonObject (fields : List Bytes) : Bytes := 0x7b :: (joinFields fields ++ [0x7d])

theorem joinFields_cons (first next : Bytes) (fields : List Bytes) :
    joinFields (first :: next :: fields) = first ++ 44 :: joinFields (next :: fields) := by
  unfold joinFields
  rw [List.intercalate_cons_cons, List.append_assoc]
  rfl

theorem joinFields_single (field : Bytes) : joinFields [field] = field :=
  List.intercalate_singleton

theorem jsonField_append (key value rest : Bytes) :
    jsonField key value ++ rest = jsonField key (value ++ rest) := by
  unfold jsonField
  rw [List.cons_append, List.append_assoc]
  rfl

def boolText (value : Bool) : Bytes := if value then ascii "true" else ascii "false"

section Escapes

theorem jsonEscape_cons (c : UInt8) (value : Bytes) :
    jsonEscape (c :: value) = jsonEscapeByte c ++ jsonEscape value := rfl

theorem hexDigit_ne {value : UInt8} (h : value < 16) :
    hexDigit value ≠ 34 ∧ hexDigit value ≠ 92 := by
  have hall : ∀ n < 16, hexDigit (UInt8.ofNat n) ≠ 34 ∧ hexDigit (UInt8.ofNat n) ≠ 92 := by decide
  have hvalue := hall value.toNat (UInt8.lt_iff_toNat_lt.mp h)
  rwa [UInt8.ofNat_toNat] at hvalue

theorem nibble_lt (c : UInt8) : c &&& 0x0f < 16 := by
  rw [UInt8.lt_iff_toNat_lt, UInt8.toNat_and]
  exact Nat.lt_of_le_of_lt Nat.and_le_right (by decide)

/-- An escaped byte is escaped text. -/
theorem escaped_jsonEscapeByte (c : UInt8) {rest : Bytes} (h : Escaped rest) :
    Escaped (jsonEscapeByte c ++ rest) := by
  unfold jsonEscapeByte
  by_cases hquote : c = 34
  · rw [if_pos hquote]
    exact .escape (by decide) (by decide) h
  rw [if_neg hquote]
  by_cases hslash : c = 92
  · rw [if_pos hslash]
    exact .escape (by decide) (by decide) h
  rw [if_neg hslash]
  by_cases hback : c = 8
  · rw [if_pos hback]
    exact .escape (by decide) (by decide) h
  rw [if_neg hback]
  by_cases hfeed : c = 12
  · rw [if_pos hfeed]
    exact .escape (by decide) (by decide) h
  rw [if_neg hfeed]
  by_cases hline : c = 10
  · rw [if_pos hline]
    exact .escape (by decide) (by decide) h
  rw [if_neg hline]
  by_cases hreturn : c = 13
  · rw [if_pos hreturn]
    exact .escape (by decide) (by decide) h
  rw [if_neg hreturn]
  by_cases htab : c = 9
  · rw [if_pos htab]
    exact .escape (by decide) (by decide) h
  rw [if_neg htab]
  by_cases hcontrol : c < 0x20
  · rw [if_pos hcontrol]
    have hhigh := hexDigit_ne (nibble_lt (c >>> 4))
    have hlow := hexDigit_ne (nibble_lt c)
    exact .escape (by decide) (by decide) (.plain (by decide) (by decide)
      (.plain (by decide) (by decide) (.plain hhigh.1 hhigh.2 (.plain hlow.1 hlow.2 h))))
  · rw [if_neg hcontrol]
    exact .plain hquote hslash h

theorem escaped_jsonEscape (value : Bytes) : Escaped (jsonEscape value) := by
  induction value with
  | nil => exact .nil
  | cons c value ih =>
    rw [jsonEscape_cons]
    exact escaped_jsonEscapeByte c ih

end Escapes

section Searches

/-- A byte that may stand behind a string and is neither blank, colon nor part
of a name. -/
structure Separator (b : UInt8) : Prop where
  notSpace : isSpace b = false
  notName : isNameByte b = false
  notColon : b ≠ 58
  notQuote : b ≠ 34

theorem separator_comma : Separator 44 := ⟨rfl, rfl, by decide, by decide⟩

theorem separator_brace : Separator 0x7d := ⟨rfl, rfl, by decide, by decide⟩

theorem separator_bracket : Separator 93 := ⟨rfl, rfl, by decide, by decide⟩

theorem keyLiteral_wellFormed {key : Bytes} (h : IsName key) : Literal.WellFormed ⟨key, [58]⟩ where
  escaped := by
    have hbytes := h.bytes
    clear h
    induction key with
    | nil => exact .nil
    | cons b key ih =>
      have hb := isNameByte_ne (hbytes b List.mem_cons_self)
      exact .plain hb.1 hb.2.1 (ih fun c hc => hbytes c (List.mem_cons_of_mem b hc))
  plain := (by decide : (34 : UInt8) ∉ [58])
  separated := ⟨58, [], rfl, rfl, rfl, fun _ hquote => (isNameByte_ne (h.bytes 34 hquote)).1 rfl⟩

theorem stringLiteral_wellFormed (value : Bytes) {b : UInt8} (h : Separator b) :
    Literal.WellFormed ⟨jsonEscape value, [b]⟩ where
  escaped := escaped_jsonEscape value
  plain := fun hquote => h.notQuote (List.mem_singleton.mp hquote).symm
  separated := ⟨b, [], rfl, h.notSpace, h.notName, fun hcolon => absurd hcolon h.notColon⟩

/-- Another key is passed over. -/
theorem searchKey_otherKey {key other : Bytes} (hkey : IsName key) (hother : IsName other)
    (hne : other ≠ key) (behind : Bytes → Option β) (rest : Bytes) :
    searchKey key behind (jsonField other rest) = searchKey key behind rest := by
  classical
  have hliteral := searchKey_literal hkey (keyLiteral_wellFormed hother) behind rest
  have hnot : ¬Mentions key ⟨other, [58]⟩ := by
    rintro (heq | hsuffix)
    · exact hne heq
    · exact (isNameByte_ne (hother.bytes 34 (hsuffix.subset List.mem_cons_self))).1 rfl
  rw [if_neg hnot] at hliteral
  have htext : (⟨other, [58]⟩ : Literal).text ++ rest = jsonField other rest := by
    unfold Literal.text jsonField
    rw [List.cons_append, List.append_assoc]
    rfl
  rw [htext] at hliteral
  exact hliteral

/-- The key itself is found. -/
theorem searchKey_sameKey {key : Bytes} (hkey : IsName key) (behind : Bytes → Option β)
    (rest : Bytes) :
    searchKey key behind (jsonField key rest) =
      match behind (58 :: rest) with
      | some value => some value
      | none => searchKey key behind rest := by
  classical
  have hliteral := searchKey_literal hkey (keyLiteral_wellFormed hkey) behind rest
  rw [if_pos (show Mentions key ⟨key, [58]⟩ from Or.inl rfl)] at hliteral
  have htext : (⟨key, [58]⟩ : Literal).text ++ rest = jsonField key rest := by
    unfold Literal.text jsonField
    rw [List.cons_append, List.append_assoc]
    rfl
  rw [htext] at hliteral
  exact hliteral

/-- A string is passed over or ends with the key. -/
theorem searchKey_quoted {key : Bytes} (hkey : IsName key) (value : Bytes) {b : UInt8}
    (hb : Separator b) (behind : Bytes → Option β) (rest : Bytes) :
    searchKey key behind (quoted value ++ b :: rest) = searchKey key behind rest ∨
      searchKey key behind (quoted value ++ b :: rest) =
        match behind (b :: rest) with
        | some found => some found
        | none => searchKey key behind rest := by
  classical
  have hliteral := searchKey_literal hkey (stringLiteral_wellFormed value hb) behind rest
  have htext : (⟨jsonEscape value, [b]⟩ : Literal).text ++ rest = quoted value ++ b :: rest := by
    unfold Literal.text quoted
    rw [List.cons_append, List.cons_append, List.append_assoc, List.append_assoc]
    rfl
  rw [htext] at hliteral
  by_cases hmentions : Mentions key ⟨jsonEscape value, [b]⟩
  · rw [if_pos hmentions] at hliteral
    exact Or.inr hliteral
  · rw [if_neg hmentions] at hliteral
    exact Or.inl hliteral

end Searches

end LayerInference.JsonFields
