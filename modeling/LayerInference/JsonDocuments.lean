import LayerInference.JsonFields
import LayerInference.JsonStrings
import LayerInference.NumberTexts

/-!
# JSON documents

A document is one value with blanks around it. What a text writes is given by the
rules of the grammar, one for each kind of value, with blanks wherever the grammar
allows them. A reader that looks one byte ahead finds in every such text the value
that the rules give it. Numbers are read exactly, and strings as their UTF-8 bytes.
-/

namespace LayerInference.JsonDocuments

open ByteStrings TextStreams JsonText QuotedTexts JsonFields JsonStrings NumberTexts

/-- A value. The members of an object keep their order. -/
inductive Json where
  | null
  | bool (value : Bool)
  | number (value : ℚ)
  | string (value : Bytes)
  | array (items : List Json)
  | object (members : List (Bytes × Json))

/-- The member of a name; the last one of several counts. -/
def Json.get? (key : Bytes) : Json → Option Json
  | .object members => (members.reverse.find? fun member => member.1 == key).map Prod.snd
  | _ => none

def Json.item? (index : ℕ) : Json → Option Json
  | .array items => items[index]?
  | _ => none

/-- A value that counts as absent where one is tested. -/
def isFalsy : Json → Bool
  | .null => true
  | .bool value => !value
  | .number value => decide (value = 0)
  | .string value => value.isEmpty
  | .array _ => false
  | .object _ => false

section Grammar

def isBlank (b : UInt8) : Bool := b == 32 || b == 9 || b == 10 || b == 13

def Blank (text : Bytes) : Prop := ∀ b ∈ text, isBlank b = true

/-- A number literal without zeros in front. -/
structure PlainNumber (l : NumberLiteral) : Prop where
  wellFormed : l.WellFormed
  noZero : l.whole = [48] ∨ l.whole.head? ≠ some 48

/-- The contents of a literal write a string. -/
structure WritesString (contents value : Bytes) : Prop where
  escaped : Escaped contents
  denotes : denote contents = some value

mutual

/-- A text without blanks around it writes a value. -/
inductive Writes : Bytes → Json → Prop
  | null : Writes (ascii "null") .null
  | bool (value : Bool) : Writes (boolText value) (.bool value)
  | number {l : NumberLiteral} (h : PlainNumber l) : Writes l.text (.number l.value)
  | string {contents value : Bytes} (h : WritesString contents value) :
      Writes (34 :: (contents ++ [34])) (.string value)
  | emptyArray {blanks : Bytes} (h : Blank blanks) : Writes (91 :: (blanks ++ [93])) (.array [])
  | array {text : Bytes} {items : List Json} (h : WritesItems text items) :
      Writes (91 :: (text ++ [93])) (.array items)
  | emptyObject {blanks : Bytes} (h : Blank blanks) :
      Writes (0x7b :: (blanks ++ [0x7d])) (.object [])
  | object {text : Bytes} {members : List (Bytes × Json)} (h : WritesMembers text members) :
      Writes (0x7b :: (text ++ [0x7d])) (.object members)

/-- A text writes a value with blanks around it. -/
inductive WritesElement : Bytes → Json → Prop
  | padded {front text back : Bytes} {value : Json} (hfront : Blank front) (h : Writes text value)
      (hback : Blank back) : WritesElement (front ++ (text ++ back)) value

/-- A text writes the items of an array, at least one. -/
inductive WritesItems : Bytes → List Json → Prop
  | last {text : Bytes} {value : Json} (h : WritesElement text value) : WritesItems text [value]
  | cons {text rest : Bytes} {value : Json} {items : List Json} (h : WritesElement text value)
      (hrest : WritesItems rest items) : WritesItems (text ++ 44 :: rest) (value :: items)

/-- A text writes a key, a colon and a value. -/
inductive WritesMember : Bytes → Bytes × Json → Prop
  | keyed {front contents key gap text : Bytes} {value : Json} (hfront : Blank front)
      (hkey : WritesString contents key) (hgap : Blank gap) (h : WritesElement text value) :
      WritesMember (front ++ 34 :: (contents ++ 34 :: (gap ++ 58 :: text))) (key, value)

/-- A text writes the members of an object, at least one. -/
inductive WritesMembers : Bytes → List (Bytes × Json) → Prop
  | last {text : Bytes} {member : Bytes × Json} (h : WritesMember text member) :
      WritesMembers text [member]
  | cons {text rest : Bytes} {member : Bytes × Json} {members : List (Bytes × Json)}
      (h : WritesMember text member) (hrest : WritesMembers rest members) :
      WritesMembers (text ++ 44 :: rest) (member :: members)

end

end Grammar

section Reader

def skipBlanks (text : Bytes) : Bytes := text.dropWhile isBlank

/-- The contents of a literal up to its closing quote, and what stands behind it. -/
def contentsRest : Bytes → Option (Bytes × Bytes)
  | [] => none
  | 34 :: rest => some ([], rest)
  | [92] => none
  | 92 :: c :: rest => (contentsRest rest).map fun found => (92 :: c :: found.1, found.2)
  | c :: rest => (contentsRest rest).map fun found => (c :: found.1, found.2)

def readString : Bytes → Option (Bytes × Bytes)
  | 34 :: rest =>
    (contentsRest rest).bind fun found => (denote found.1).map fun value => (value, found.2)
  | _ => none

/-- The fraction of a number: a point with at least one digit, or nothing. -/
def readFraction : Bytes → Option (Bytes × Bytes)
  | 46 :: rest =>
    if rest.takeWhile isDigit = [] then none
    else some (rest.takeWhile isDigit, rest.dropWhile isDigit)
  | rest => some ([], rest)

/-- The power of ten of a number, or nothing. -/
def readPower : Bytes → Option (Option PowerText × Bytes)
  | [] => some (none, [])
  | mark :: rest =>
    if mark = 101 ∨ mark = 69 then
      let signed := takeSign rest
      if signed.2.takeWhile isDigit = [] then none
      else some (some ⟨mark, signed.1, signed.2.takeWhile isDigit⟩, signed.2.dropWhile isDigit)
    else some (none, mark :: rest)

def readNumber (text : Bytes) : Option (NumberLiteral × Bytes) :=
  let whole := (takeMinus text).2.takeWhile isDigit
  if whole = [] ∨ (whole.head? = some 48 ∧ whole ≠ [48]) then none
  else
    (readFraction ((takeMinus text).2.dropWhile isDigit)).bind fun fraction =>
      (readPower fraction.2).map fun power =>
        (⟨(takeMinus text).1, whole, fraction.1, power.1⟩, power.2)

def readWord (word : Bytes) (value : Json) (text : Bytes) : Option (Json × Bytes) :=
  if word.isPrefixOf text then some (value, text.drop word.length) else none

/-- A value that is no string and holds no others. -/
def readScalar (text : Bytes) : Option (Json × Bytes) :=
  (readWord (ascii "null") .null text).or <|
    (readWord (ascii "true") (.bool true) text).or <|
      (readWord (ascii "false") (.bool false) text).or <|
        (readNumber text).map fun found => (.number found.1.value, found.2)

mutual

/-- A value at the start of a text, and what stands behind it. -/
def readValue : ℕ → Bytes → Option (Json × Bytes)
  | 0, _ => none
  | fuel + 1, text =>
    match text with
    | 0x7b :: rest =>
      match skipBlanks rest with
      | 0x7d :: behind => some (.object [], behind)
      | _ => (readMembers fuel rest).map fun found => (.object found.1, found.2)
    | 91 :: rest =>
      match skipBlanks rest with
      | 93 :: behind => some (.array [], behind)
      | _ => (readItems fuel rest).map fun found => (.array found.1, found.2)
    | 34 :: _ => (readString text).map fun found => (.string found.1, found.2)
    | _ => readScalar text

def readItems : ℕ → Bytes → Option (List Json × Bytes)
  | 0, _ => none
  | fuel + 1, text =>
    (readValue fuel (skipBlanks text)).bind fun found =>
      match skipBlanks found.2 with
      | 44 :: rest => (readItems fuel rest).map fun more => (found.1 :: more.1, more.2)
      | 93 :: rest => some ([found.1], rest)
      | _ => none

def readMembers : ℕ → Bytes → Option (List (Bytes × Json) × Bytes)
  | 0, _ => none
  | fuel + 1, text =>
    (readString (skipBlanks text)).bind fun key =>
      match skipBlanks key.2 with
      | 58 :: behind =>
        (readValue fuel (skipBlanks behind)).bind fun found =>
          match skipBlanks found.2 with
          | 44 :: rest =>
            (readMembers fuel rest).map fun more => ((key.1, found.1) :: more.1, more.2)
          | 0x7d :: rest => some ([(key.1, found.1)], rest)
          | _ => none
      | _ => none

end

/-- The value of a document; the size of the text bounds its depth. -/
def readJson (text : Bytes) : Option Json :=
  (readValue text.length (skipBlanks text)).bind fun found =>
    if skipBlanks found.2 = [] then some found.1 else none

end Reader

section Blanks

theorem blank_nil : Blank [] := fun _ hb => absurd hb List.not_mem_nil

/-- Blanks in front of a text are skipped with those that it starts with. -/
theorem skipBlanks_append {blanks : Bytes} (h : Blank blanks) (rest : Bytes) :
    skipBlanks (blanks ++ rest) = skipBlanks rest := by
  induction blanks with
  | nil => rfl
  | cons b blanks ih =>
    have hb := h b List.mem_cons_self
    unfold skipBlanks
    rw [List.cons_append, List.dropWhile_cons_of_pos hb]
    exact ih fun b hb => h b (List.mem_cons_of_mem _ hb)

theorem skipBlanks_cons {b : UInt8} (h : isBlank b = false) (rest : Bytes) :
    skipBlanks (b :: rest) = b :: rest :=
  List.dropWhile_cons_of_neg (by rw [h]; exact Bool.false_ne_true)

theorem skipBlanks_blank {blanks : Bytes} (h : Blank blanks) : skipBlanks blanks = [] := by
  have happend := skipBlanks_append h []
  rwa [List.append_nil] at happend

/-- A text with which no number goes on. -/
def Stops (rest : Bytes) : Prop := ∀ b ∈ rest.head?, Ends b

theorem isBlank_cases {b : UInt8} (h : isBlank b = true) : b = 32 ∨ b = 9 ∨ b = 10 ∨ b = 13 := by
  unfold isBlank at h
  simpa only [Bool.or_eq_true, beq_iff_eq, or_assoc] using h

theorem ends_blank {b : UInt8} (h : isBlank b = true) : Ends b := by
  rcases isBlank_cases h with rfl | rfl | rfl | rfl <;> exact ⟨rfl, by decide, by decide⟩

/-- Blanks and what stops a number stop it together. -/
theorem stops_append {blanks rest : Bytes} (h : Blank blanks) (hrest : Stops rest) :
    Stops (blanks ++ rest) := by
  cases blanks with
  | nil => exact hrest
  | cons b blanks =>
    intro c hc
    obtain rfl := Option.some.inj hc
    exact ends_blank (h b List.mem_cons_self)

theorem stops_cons {b : UInt8} (h : Ends b) (rest : Bytes) : Stops (b :: rest) := by
  intro c hc
  obtain rfl := Option.some.inj hc
  exact h

end Blanks

section Scalars

/-- Escaped contents are read up to their closing quote. -/
theorem contentsRest_escaped {contents : Bytes} (h : Escaped contents) (rest : Bytes) :
    contentsRest (contents ++ 34 :: rest) = some (contents, rest) := by
  induction h with
  | nil => rfl
  | @plain b inner hquote hslash _ ih =>
    rw [List.cons_append]
    unfold contentsRest
    split
    · next heq => cases heq
    · next heq => exact absurd (List.cons.inj heq).1 hquote
    · next heq => exact absurd (List.cons.inj heq).1 hslash
    · next heq => exact absurd (List.cons.inj heq).1 hslash
    · next heq =>
      cases heq
      rw [ih]
      rfl
  | @escape b inner _ _ _ ih =>
    rw [List.cons_append, List.cons_append, contentsRest, ih]
    rfl

theorem readString_writes {contents value : Bytes} (h : WritesString contents value)
    (rest : Bytes) : readString (34 :: (contents ++ 34 :: rest)) = some (value, rest) := by
  rw [readString, contentsRest_escaped h.escaped, Option.bind_some, h.denotes]
  rfl

/-- The power of a number is read as a whole. -/
theorem readPower_text {power : Option PowerText} (h : ∀ p ∈ power, p.WellFormed) {rest : Bytes}
    (hrest : Stops rest) : readPower (powerText power ++ rest) = some (power, rest) := by
  cases power with
  | none =>
    change readPower rest = some (none, rest)
    cases rest with
    | nil => rfl
    | cons b rest => exact if_neg (not_or.mpr (hrest b rfl).notMark)
  | some power =>
    have hpower := h power rfl
    have htake := takeWhile_isDigit_append hpower.digits fun b hb => (hrest b hb).notDigit
    have hsign : takeSign (power.sign ++ (power.digits ++ rest)) =
        (power.sign, power.digits ++ rest) := by
      rcases hpower.sign with heq | heq | heq
      · obtain ⟨d, tail, hcons⟩ := List.exists_cons_of_ne_nil hpower.ne
        have hd := hpower.digits d (hcons ▸ List.mem_cons_self)
        rw [heq, hcons]
        exact takeSign_of_digit hd _
      · rw [heq]
        rfl
      · rw [heq]
        rfl
    have htext : powerText (some power) ++ rest =
        power.mark :: (power.sign ++ (power.digits ++ rest)) := by
      change (power.mark :: (power.sign ++ power.digits)) ++ rest = _
      rw [List.cons_append, List.append_assoc]
    rw [htext, readPower, if_pos hpower.mark, hsign]
    dsimp only
    rw [htake.1, htake.2, if_neg hpower.ne]

/-- What follows the digits in front of a power starts with no digit and no point. -/
theorem power_head {power : Option PowerText} (h : ∀ p ∈ power, p.WellFormed) {rest : Bytes}
    (hrest : Stops rest) :
    ∀ b ∈ (powerText power ++ rest).head?, isDigit b = false ∧ b ≠ 46 := by
  cases power with
  | none => exact fun b hb => ⟨(hrest b hb).notDigit, (hrest b hb).notPoint⟩
  | some power =>
    intro b hb
    obtain rfl : power.mark = b := Option.some.inj hb
    refine ⟨isDigit_mark (h power rfl).mark, ?_⟩
    rcases (h power rfl).mark with hmark | hmark <;> rw [hmark] <;> decide

theorem readFraction_absent {rest : Bytes} (h : ∀ b ∈ rest.head?, b ≠ 46) :
    readFraction rest = some ([], rest) := by
  unfold readFraction
  split
  · exact absurd rfl (h 46 rfl)
  · rfl

/-- A number is read as it is written. -/
theorem readNumber_text {l : NumberLiteral} (hl : PlainNumber l) {rest : Bytes}
    (hrest : Stops rest) : readNumber (l.text ++ rest) = some (l, rest) := by
  have hform := hl.wellFormed
  have hhead := power_head hform.power hrest
  have hzero : ¬(l.whole = [] ∨ (l.whole.head? = some 48 ∧ l.whole ≠ [48])) := by
    rintro (hnil | ⟨hhead, hne⟩)
    · exact hform.ne hnil
    · exact hl.noZero.elim hne fun h => h hhead
  unfold readNumber
  rw [takeMinus_text hform]
  dsimp only
  by_cases hfraction : l.fraction = []
  · have htext : NumberLiteral.fractionText l.fraction ++ (powerText l.power ++ rest) =
        powerText l.power ++ rest := by
      rw [NumberLiteral.fractionText, if_pos hfraction, List.nil_append]
    have htake := takeWhile_isDigit_append hform.whole fun b hb => (hhead b hb).1
    rw [htext, htake.1, htake.2, if_neg hzero, readFraction_absent fun b hb => (hhead b hb).2,
      Option.bind_some, readPower_text hform.power hrest, ← hfraction]
    rfl
  · have htext : NumberLiteral.fractionText l.fraction ++ (powerText l.power ++ rest) =
        46 :: (l.fraction ++ (powerText l.power ++ rest)) := by
      rw [NumberLiteral.fractionText, if_neg hfraction, List.cons_append]
    have htake := @takeWhile_isDigit_append l.whole
      (46 :: (l.fraction ++ (powerText l.power ++ rest))) hform.whole fun b hb => by
        obtain rfl := Option.some.inj hb
        rfl
    have hdigits := takeWhile_isDigit_append hform.fraction fun b hb => (hhead b hb).1
    rw [htext, htake.1, htake.2, if_neg hzero, readFraction, hdigits.1, hdigits.2,
      if_neg hfraction, Option.bind_some, readPower_text hform.power hrest]
    rfl

end Scalars

section Reading

/-- A byte that a value of no kind but a scalar can start with. -/
theorem number_head {l : NumberLiteral} (hl : l.WellFormed) :
    ∃ b tail, l.text = b :: tail ∧ (b = 45 ∨ isDigit b = true) := by
  obtain ⟨d, tail, hcons⟩ := List.exists_cons_of_ne_nil hl.ne
  unfold NumberLiteral.text
  cases l.negative with
  | true => exact ⟨45, _, rfl, Or.inl rfl⟩
  | false =>
    rw [hcons]
    exact ⟨d, _, rfl, Or.inr (hl.whole d (hcons ▸ List.mem_cons_self))⟩

theorem number_byte {b : UInt8} (h : b = 45 ∨ isDigit b = true) :
    isBlank b = false ∧ b ≠ 93 ∧ b ≠ 0x7d ∧ b ≠ 0x7b ∧ b ≠ 91 ∧ b ≠ 34 ∧ b ≠ 110 ∧ b ≠ 116 ∧
      b ≠ 102 := by
  rcases h with rfl | h
  · decide
  · have hspec : ∀ n < 256, isDigit (UInt8.ofNat n) = true →
        isBlank (UInt8.ofNat n) = false ∧ UInt8.ofNat n ≠ 93 ∧ UInt8.ofNat n ≠ 0x7d ∧
          UInt8.ofNat n ≠ 0x7b ∧ UInt8.ofNat n ≠ 91 ∧ UInt8.ofNat n ≠ 34 ∧ UInt8.ofNat n ≠ 110 ∧
            UInt8.ofNat n ≠ 116 ∧ UInt8.ofNat n ≠ 102 := by
      decide +kernel
    have hb := hspec b.toNat b.toNat_lt
    rw [UInt8.ofNat_toNat] at hb
    exact hb h

/-- A value starts with a byte that is no blank and closes no array. -/
theorem writes_head {text : Bytes} {value : Json} (h : Writes text value) :
    ∃ b tail, text = b :: tail ∧ isBlank b = false ∧ b ≠ 93 := by
  cases h with
  | null => exact ⟨110, _, rfl, rfl, by decide⟩
  | bool value =>
    cases value with
    | true => exact ⟨116, _, rfl, rfl, by decide⟩
    | false => exact ⟨102, _, rfl, rfl, by decide⟩
  | number hl =>
    obtain ⟨b, tail, htext, hb⟩ := number_head hl.wellFormed
    have hbyte := number_byte hb
    exact ⟨b, tail, htext, hbyte.1, hbyte.2.1⟩
  | string h => exact ⟨34, _, rfl, rfl, by decide⟩
  | emptyArray h => exact ⟨91, _, rfl, rfl, by decide⟩
  | array h => exact ⟨91, _, rfl, rfl, by decide⟩
  | emptyObject h => exact ⟨0x7b, _, rfl, rfl, by decide⟩
  | object h => exact ⟨0x7b, _, rfl, rfl, by decide⟩

/-- Blanks in front of a value are skipped, and no more. -/
theorem skipBlanks_writes {front text : Bytes} {value : Json} (hfront : Blank front)
    (h : Writes text value) (rest : Bytes) :
    skipBlanks (front ++ (text ++ rest)) = text ++ rest := by
  obtain ⟨b, tail, rfl, hblank, -⟩ := writes_head h
  rw [skipBlanks_append hfront, List.cons_append, skipBlanks_cons hblank]

theorem ascii_null : ascii "null" = 110 :: ascii "ull" := rfl

theorem ascii_true : ascii "true" = 116 :: ascii "rue" := rfl

theorem ascii_false : ascii "false" = 102 :: ascii "alse" := rfl

theorem readWord_none {word : Bytes} {w b : UInt8} (h : b ≠ w) (value : Json) (tail : Bytes) :
    readWord (w :: word) value (b :: tail) = none := by
  refine if_neg fun hprefix => h ?_
  rw [List.isPrefixOf_cons_cons, Bool.and_eq_true, beq_iff_eq] at hprefix
  exact hprefix.1.symm

/-- A number is read as the number that its literal writes. -/
theorem readValue_number {l : NumberLiteral} (hl : PlainNumber l) {rest : Bytes}
    (hrest : Stops rest) (fuel : ℕ) :
    readValue (fuel + 1) (l.text ++ rest) = some (.number l.value, rest) := by
  obtain ⟨b, tail, htext, hb⟩ := number_head hl.wellFormed
  obtain ⟨-, -, -, hbrace, hbracket, hquote, hnull, htrue, hfalse⟩ := number_byte hb
  have hscalar : readValue (fuel + 1) (l.text ++ rest) = readScalar (l.text ++ rest) := by
    rw [htext, List.cons_append, readValue]
    · exact fun _ heq => hbrace (List.cons.inj heq).1
    · exact fun _ heq => hbracket (List.cons.inj heq).1
    · exact fun _ heq => hquote (List.cons.inj heq).1
  have hread := readNumber_text hl hrest
  rw [htext, List.cons_append] at hread
  rw [hscalar, htext, List.cons_append, readScalar, ascii_null, ascii_true, ascii_false,
    readWord_none hnull, readWord_none htrue, readWord_none hfalse, hread]
  rfl

theorem readValue_array {rest : Bytes} (h : ∀ b ∈ (skipBlanks rest).head?, b ≠ 93) (fuel : ℕ) :
    readValue (fuel + 1) (91 :: rest) =
      (readItems fuel rest).map fun found => (.array found.1, found.2) := by
  rw [readValue]
  split
  · next heq => exact absurd rfl (h 93 (by rw [heq]; rfl))
  · rfl

theorem readValue_object {rest : Bytes} (h : ∀ b ∈ (skipBlanks rest).head?, b ≠ 0x7d) (fuel : ℕ) :
    readValue (fuel + 1) (0x7b :: rest) =
      (readMembers fuel rest).map fun found => (.object found.1, found.2) := by
  rw [readValue]
  split
  · next heq => exact absurd rfl (h 0x7d (by rw [heq]; rfl))
  · rfl

/-- The items behind an opening bracket do not close it. -/
theorem items_head {text : Bytes} {items : List Json} (h : WritesItems text items)
    (rest : Bytes) : ∀ b ∈ (skipBlanks (text ++ rest)).head?, b ≠ 93 := by
  have helement : ∀ {text value}, WritesElement text value → ∀ rest,
      ∀ b ∈ (skipBlanks (text ++ rest)).head?, b ≠ 93 := by
    rintro _ _ ⟨hfront, hvalue, -⟩ rest b hb
    rw [List.append_assoc, List.append_assoc, skipBlanks_writes hfront hvalue] at hb
    obtain ⟨c, tail, rfl, -, hc⟩ := writes_head hvalue
    obtain rfl : c = b := Option.some.inj hb
    exact hc
  cases h with
  | last h => exact helement h rest
  | cons h hrest =>
    rw [List.append_assoc]
    exact helement h _

theorem members_head {text : Bytes} {members : List (Bytes × Json)}
    (h : WritesMembers text members) (rest : Bytes) :
    ∀ b ∈ (skipBlanks (text ++ rest)).head?, b ≠ 0x7d := by
  have hmember : ∀ {text member}, WritesMember text member → ∀ rest,
      ∀ b ∈ (skipBlanks (text ++ rest)).head?, b ≠ 0x7d := by
    rintro _ _ ⟨hfront, -, -, -⟩ rest b hb
    rw [List.append_assoc, skipBlanks_append hfront, List.cons_append, skipBlanks_cons rfl] at hb
    obtain rfl : 34 = b := Option.some.inj hb
    decide
  cases h with
  | last h => exact hmember h rest
  | cons h hrest =>
    rw [List.append_assoc]
    exact hmember h _

theorem stops_comma (rest : Bytes) : Stops (44 :: rest) := stops_cons ends_comma rest

theorem stops_bracket (rest : Bytes) : Stops (93 :: rest) :=
  stops_cons ⟨rfl, by decide, by decide⟩ rest

theorem stops_brace (rest : Bytes) : Stops (0x7d :: rest) := stops_cons ends_brace rest

/-- The key of a member is read up to its colon, with the text of its value behind. -/
theorem readKey_writes {front contents key gap : Bytes} (hfront : Blank front)
    (hkey : WritesString contents key) (hgap : Blank gap) (rest : Bytes) :
    readString (skipBlanks (front ++ 34 :: (contents ++ 34 :: (gap ++ 58 :: rest)))) =
        some (key, gap ++ 58 :: rest) ∧
      skipBlanks (gap ++ 58 :: rest) = 58 :: rest := by
  rw [skipBlanks_append hfront, skipBlanks_cons rfl, skipBlanks_append hgap, skipBlanks_cons rfl]
  exact ⟨readString_writes hkey _, rfl⟩

mutual

/-- A value is read as the rules give it, whatever stops it. -/
theorem readValue_writes {text : Bytes} {value : Json} (h : Writes text value) {rest : Bytes}
    (hrest : Stops rest) {fuel : ℕ} (hfuel : text.length ≤ fuel) :
    readValue fuel (text ++ rest) = some (value, rest) := by
  obtain ⟨fuel, rfl⟩ : ∃ n, fuel = n + 1 := by
    obtain ⟨b, tail, htext, -⟩ := writes_head h
    rw [htext, List.length_cons] at hfuel
    exact ⟨fuel - 1, by omega⟩
  cases h with
  | null => rfl
  | bool value => cases value <;> rfl
  | number hl => exact readValue_number hl hrest fuel
  | string hstring =>
    rw [List.cons_append, List.append_assoc, readValue]
    exact congrArg (Option.map _) (readString_writes hstring rest)
  | emptyArray hblank =>
    have hclose := skipBlanks_append hblank (93 :: rest)
    rw [skipBlanks_cons rfl] at hclose
    rw [List.cons_append, List.append_assoc, List.singleton_append, readValue, hclose]
    rfl
  | emptyObject hblank =>
    have hclose := skipBlanks_append hblank (0x7d :: rest)
    rw [skipBlanks_cons rfl] at hclose
    rw [List.cons_append, List.append_assoc, List.singleton_append, readValue, hclose]
    rfl
  | array hitems =>
    rw [List.length_cons, List.length_append, List.length_singleton] at hfuel
    rw [List.cons_append, List.append_assoc, List.singleton_append,
      readValue_array (items_head hitems _),
      readItems_writes hitems rest (Nat.le_of_succ_le_succ hfuel)]
    rfl
  | object hmembers =>
    rw [List.length_cons, List.length_append, List.length_singleton] at hfuel
    rw [List.cons_append, List.append_assoc, List.singleton_append,
      readValue_object (members_head hmembers _),
      readMembers_writes hmembers rest (Nat.le_of_succ_le_succ hfuel)]
    rfl

/-- A value with blanks around it is read up to the blanks behind it. -/
theorem readElement_writes {text : Bytes} {value : Json} (h : WritesElement text value)
    {rest : Bytes} (hrest : Stops rest) {fuel : ℕ} (hfuel : text.length ≤ fuel) :
    ∃ back, Blank back ∧
      readValue fuel (skipBlanks (text ++ rest)) = some (value, back ++ rest) := by
  cases h with
  | @padded front inner back _ hfront hvalue hback =>
    refine ⟨back, hback, ?_⟩
    rw [List.length_append, List.length_append] at hfuel
    rw [List.append_assoc, List.append_assoc, skipBlanks_writes hfront hvalue]
    exact readValue_writes hvalue (stops_append hback hrest) (by omega)

theorem readItems_writes {text : Bytes} {items : List Json} (h : WritesItems text items)
    (rest : Bytes) {fuel : ℕ} (hfuel : text.length + 1 ≤ fuel) :
    readItems fuel (text ++ 93 :: rest) = some (items, rest) := by
  obtain ⟨fuel, rfl⟩ : ∃ n, fuel = n + 1 := ⟨fuel - 1, by omega⟩
  cases h with
  | last hvalue =>
    obtain ⟨back, hback, hread⟩ := readElement_writes hvalue (stops_bracket rest)
      (Nat.le_of_succ_le_succ hfuel)
    rw [readItems, hread, Option.bind_some, skipBlanks_append hback, skipBlanks_cons rfl]
    rfl
  | @cons first others _ items hvalue hothers =>
    rw [List.length_append, List.length_cons] at hfuel
    have hfirst : first.length ≤ fuel := by omega
    obtain ⟨back, hback, hread⟩ :=
      readElement_writes hvalue (stops_comma (others ++ 93 :: rest)) hfirst
    have hmore : readItems fuel (others ++ 93 :: rest) = some (items, rest) :=
      readItems_writes hothers rest (by omega)
    rw [List.append_assoc, List.cons_append, readItems, hread, Option.bind_some,
      skipBlanks_append hback, skipBlanks_cons rfl]
    change (readItems fuel (others ++ 93 :: rest)).map _ = _
    rw [hmore]
    rfl

theorem readMembers_writes {text : Bytes} {members : List (Bytes × Json)}
    (h : WritesMembers text members) (rest : Bytes) {fuel : ℕ} (hfuel : text.length + 1 ≤ fuel) :
    readMembers fuel (text ++ 0x7d :: rest) = some (members, rest) := by
  obtain ⟨fuel, rfl⟩ : ∃ n, fuel = n + 1 := ⟨fuel - 1, by omega⟩
  cases h with
  | last hmember =>
    cases hmember with
    | @keyed front contents key gap inner value hfront hkey hgap hvalue =>
      have hinner : inner.length ≤ fuel := by
        simp only [List.length_append, List.length_cons] at hfuel
        omega
      obtain ⟨back, hback, hread⟩ := readElement_writes hvalue (stops_brace rest) hinner
      have hfound := readKey_writes hfront hkey hgap (inner ++ 0x7d :: rest)
      simp only [List.append_assoc, List.cons_append]
      rw [readMembers, hfound.1, Option.bind_some, hfound.2]
      change (readValue fuel (skipBlanks (inner ++ 0x7d :: rest))).bind _ = _
      rw [hread, Option.bind_some, skipBlanks_append hback, skipBlanks_cons rfl]
      rfl
  | @cons first others _ members hmember hothers =>
    cases hmember with
    | @keyed front contents key gap inner value hfront hkey hgap hvalue =>
      simp only [List.length_append, List.length_cons] at hfuel
      have hinner : inner.length ≤ fuel := by omega
      obtain ⟨back, hback, hread⟩ :=
        readElement_writes hvalue (stops_comma (others ++ 0x7d :: rest)) hinner
      have hmore : readMembers fuel (others ++ 0x7d :: rest) = some (members, rest) :=
        readMembers_writes hothers rest (by omega)
      have hfound := readKey_writes hfront hkey hgap (inner ++ 44 :: (others ++ 0x7d :: rest))
      simp only [List.append_assoc, List.cons_append]
      rw [readMembers, hfound.1, Option.bind_some, hfound.2]
      change (readValue fuel (skipBlanks (inner ++ 44 :: (others ++ 0x7d :: rest)))).bind _ = _
      rw [hread, Option.bind_some, skipBlanks_append hback, skipBlanks_cons rfl]
      change (readMembers fuel (others ++ 0x7d :: rest)).map _ = _
      rw [hmore]
      rfl

end

/-- A document is read as the value that it writes. -/
theorem readJson_writes {text : Bytes} {value : Json} (h : WritesElement text value) :
    readJson text = some value := by
  have hstops : Stops [] := fun b hb => by cases hb
  obtain ⟨back, hback, hread⟩ := readElement_writes h hstops le_rfl
  rw [List.append_nil, List.append_nil] at hread
  rw [readJson, hread, Option.bind_some, skipBlanks_blank hback]
  exact if_pos rfl

theorem writesElement_of_writes {text : Bytes} {value : Json} (h : Writes text value) :
    WritesElement text value := by
  have hpadded := WritesElement.padded blank_nil h blank_nil
  rwa [List.nil_append, List.append_nil] at hpadded

end Reading

section Numbers

/-- Decimal digits start with a zero only for zero. -/
theorem decimalNat_noZero (n : ℕ) : decimalNat n = [48] ∨ (decimalNat n).head? ≠ some 48 := by
  unfold decimalNat
  split
  · exact Or.inl rfl
  · next hn =>
    right
    have hne : Nat.digits 10 n ≠ [] := fun hnil => hn (Nat.digits_eq_nil_iff_eq_zero.mp hnil)
    have hlast := Nat.getLast_digit_ne_zero 10 hn
    have hlt : (Nat.digits 10 n).getLast hne < 10 :=
      Nat.digits_lt_base (by decide) (List.getLast_mem hne)
    rw [List.head?_map, List.head?_reverse, List.getLast?_eq_some_getLast hne, Option.map_some]
    generalize (Nat.digits 10 n).getLast hne = d at hlast hlt
    interval_cases d <;> first | exact absurd rfl hlast | decide

theorem plainNumber_decimal (n : ℤ) : PlainNumber (decimalLiteral n) :=
  ⟨decimalLiteral_wellFormed n, decimalNat_noZero n.natAbs⟩

/-- A number with all its digits starts with no zero. -/
theorem digitsAt_noZero {width n : ℕ} (hlow : 10 ^ width ≤ n) (hhigh : n < 10 ^ (width + 1)) :
    ∃ d rest, digitsAt (width + 1) n = d :: rest ∧ d ≠ 48 := by
  induction width generalizing n with
  | zero =>
    refine ⟨_, [], rfl, ?_⟩
    have hlt : n < 10 := hhigh
    have hpos : 1 ≤ n := hlow
    rw [Nat.mod_eq_of_lt hlt]
    interval_cases n <;> decide
  | succ width ih =>
    rw [pow_succ] at hlow hhigh
    obtain ⟨d, rest, hdigits, hd⟩ := @ih (n / 10) (by omega) (by omega)
    refine ⟨d, rest ++ [UInt8.ofNat (48 + n % 10)], ?_, hd⟩
    rw [digitsAt, hdigits, List.cons_append]

/-- A double is written without zeros in front. -/
theorem plainNumber_stream (x : ℚ) : PlainNumber (streamLiteral x) := by
  refine ⟨(streamLiteral_spec x).1, ?_⟩
  unfold streamLiteral
  split
  · exact Or.inl rfl
  · next hne =>
    have hpos : 0 < |x| := abs_pos.mpr hne
    obtain ⟨-, hlt⟩ := sixDigits_digits hpos
    have hnonneg : 0 ≤ sixDigits.round |x| := sixDigits.round_nonneg hpos.le
    dsimp only
    generalize sixDigits.round |x| = value at hlt hnonneg
    rcases hnonneg.eq_or_lt with rfl | hvalue
    · left
      rw [Int.log_zero_right, zero_div, Int.floor_zero]
      rfl
    · have hunit : (0 : ℚ) < 10 ^ (Int.log 10 value - 5) := zpow_pos (by norm_num) _
      have hlow : 10 ^ 5 ≤ ⌊value / 10 ^ (Int.log 10 value - 5)⌋.toNat := by
        have hle : ((10 : ℕ) : ℚ) ^ Int.log 10 value ≤ value :=
          Int.zpow_log_le_self (by decide) hvalue
        have hsplit : ((10 ^ 5 : ℤ) : ℚ) ≤ value / 10 ^ (Int.log 10 value - 5) := by
          rw [le_div_iff₀ hunit]
          calc ((10 ^ 5 : ℤ) : ℚ) * 10 ^ (Int.log 10 value - 5)
              = 10 ^ (5 : ℤ) * 10 ^ (Int.log 10 value - 5) := by norm_num
            _ = 10 ^ Int.log 10 value := by
              rw [← zpow_add₀ (by norm_num : (10 : ℚ) ≠ 0)]
              congr 1
              ring
            _ ≤ value := by exact_mod_cast hle
        have hfloor := Int.le_floor.mpr hsplit
        omega
      obtain ⟨d, rest, hdigits, hd⟩ := digitsAt_noZero hlow hlt
      rw [hdigits]
      unfold streamDigits
      split
      · right
        exact fun h => hd (Option.some.inj h)
      · split
        · exact Or.inl rfl
        · right
          rw [List.take_succ_cons]
          exact fun h => hd (Option.some.inj h)

end Numbers

section Written

/-- A text with the value that it writes. -/
structure Written where
  text : Bytes
  value : Json
  writes : Writes text value

/-- A byte that stands for itself in a string. -/
def isPlainByte (b : UInt8) : Bool := 0x20 ≤ b && b != 34 && b != 92

/-- A member of an object, with a key that needs no escapes. -/
structure Field where
  key : Bytes
  plain : key.all isPlainByte = true
  written : Written

/-- The blanks of an object: in front of its keys, behind its colons, and before
its end. -/
structure Layout where
  before : Bytes
  gap : Bytes
  last : Bytes
  blank : Blank before ∧ Blank gap ∧ Blank last

/-- No blanks at all. -/
def Layout.compact : Layout := ⟨[], [], [], blank_nil, blank_nil, blank_nil⟩

def Field.text (layout : Layout) (field : Field) : Bytes :=
  layout.before ++ jsonField field.key (layout.gap ++ field.written.text)

def Field.member (field : Field) : Bytes × Json := (field.key, field.written.value)

theorem writesString_escaped (value : Bytes) : WritesString (jsonEscape value) value :=
  ⟨escaped_jsonEscape value, denote_jsonEscape value⟩

theorem writesString_plain {key : Bytes} (h : key.all isPlainByte = true) :
    WritesString key key := by
  induction key with
  | nil => exact ⟨.nil, rfl⟩
  | cons b key ih =>
    rw [List.all_cons, Bool.and_eq_true] at h
    have hrest := ih h.2
    obtain ⟨⟨hcontrol, hquote⟩, hslash⟩ : (0x20 ≤ b ∧ b ≠ 34) ∧ b ≠ 92 := by
      simpa only [isPlainByte, Bool.and_eq_true, decide_eq_true_eq, bne_iff_ne] using h.1
    refine ⟨.plain hquote hslash hrest.escaped, ?_⟩
    rw [denote_plain (UInt8.not_lt.mpr hcontrol) hquote hslash, hrest.denotes]
    rfl

theorem writesMember_field (layout : Layout) (field : Field) {back : Bytes} (hback : Blank back) :
    WritesMember (field.text layout ++ back) field.member := by
  have hvalue := WritesElement.padded layout.blank.2.1 field.written.writes hback
  have hmember :=
    WritesMember.keyed layout.blank.1 (writesString_plain field.plain) blank_nil hvalue
  change WritesMember _ (field.key, field.written.value)
  simpa only [Field.text, jsonField, List.append_assoc, List.cons_append, List.nil_append] using
    hmember

/-- Fields with commas between them, up to the blanks before the end. -/
theorem writesMembers_fields (layout : Layout) (first : Field) (fields : List Field) :
    WritesMembers (joinFields ((first :: fields).map (Field.text layout)) ++ layout.last)
      ((first :: fields).map Field.member) := by
  induction fields generalizing first with
  | nil =>
    rw [List.map_singleton, joinFields_single]
    exact .last (writesMember_field layout first layout.blank.2.2)
  | cons next fields ih =>
    rw [List.map_cons, List.map_cons, joinFields_cons, List.append_assoc, List.cons_append]
    have hfirst := writesMember_field layout first blank_nil
    rw [List.append_nil] at hfirst
    exact .cons hfirst (ih next)

theorem writesItems_texts (first : Written) (items : List Written) :
    WritesItems (joinFields ((first :: items).map Written.text))
      ((first :: items).map Written.value) := by
  induction items generalizing first with
  | nil =>
    rw [List.map_singleton, joinFields_single]
    exact .last (writesElement_of_writes first.writes)
  | cons next items ih =>
    rw [List.map_cons, List.map_cons, joinFields_cons]
    exact .cons (writesElement_of_writes first.writes) (ih next)

namespace Written

def flag (value : Bool) : Written := ⟨boolText value, .bool value, .bool value⟩

def string (value : Bytes) : Written :=
  ⟨quoted value, .string value, .string (writesString_escaped value)⟩

def integer (n : ℤ) : Written where
  text := decimal n
  value := .number n
  writes := by
    have hwrites := Writes.number (plainNumber_decimal n)
    rwa [decimalLiteral_text, NumberLiteral.value_of_integer rfl rfl, decimalLiteral_integer]
      at hwrites

/-- A double is written with six digits. -/
def double (x : ℚ) : Written where
  text := streamDouble x
  value := .number (sixDigits.round x)
  writes := by
    have hwrites := Writes.number (plainNumber_stream x)
    rwa [(streamLiteral_spec x).2] at hwrites

def array (items : List Written) : Written where
  text := 91 :: (joinFields (items.map text) ++ [93])
  value := .array (items.map value)
  writes := by
    cases items with
    | nil => exact .emptyArray blank_nil
    | cons first items => exact .array (writesItems_texts first items)

def object (layout : Layout) (fields : List Field) : Written where
  text := 0x7b :: (joinFields (fields.map (Field.text layout)) ++ (layout.last ++ [0x7d]))
  value := .object (fields.map Field.member)
  writes := by
    rw [← List.append_assoc]
    cases fields with
    | nil => exact .emptyObject layout.blank.2.2
    | cons first fields => exact .object (writesMembers_fields layout first fields)

/-- A written value is read as it was meant. -/
theorem read (written : Written) : readJson written.text = some written.value :=
  readJson_writes (writesElement_of_writes written.writes)

end Written

end Written

end LayerInference.JsonDocuments
