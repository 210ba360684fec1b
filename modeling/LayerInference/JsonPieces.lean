import LayerInference.JsonFields
import LayerInference.NumberTexts
import LayerInference.TensorPlans

/-!
# Texts written in pieces

A writer of JSON sends keys, strings and other text to a stream, one piece after
the other. A piece carries the proof that it cannot disturb a search: a key is a
name, a separator stands behind a string, and other text has no quote. A search
for a field then sees the keys only, whatever the strings contain.
-/

namespace LayerInference.JsonPieces

open ByteStrings TextStreams JsonText QuotedTexts JsonFields NumberTexts

variable {β : Type}

/-- What stands behind a value: a comma, or the end of the object. -/
inductive Mark where
  | comma
  | close

def Mark.byte : Mark → UInt8
  | .comma => 44
  | .close => 0x7d

theorem Mark.separator (mark : Mark) : Separator mark.byte := by
  cases mark with
  | comma => exact separator_comma
  | close => exact separator_brace

theorem Mark.ends (mark : Mark) : Ends mark.byte := by
  cases mark with
  | comma => exact ends_comma
  | close => exact ends_brace

/-- A piece of a text. -/
inductive Piece where
  | key (name : Bytes) (isName : IsName name)
  | string (value : Bytes) (mark : Mark)
  | plain (text : Bytes) (noQuote : 34 ∉ text)

def Piece.text : Piece → Bytes
  | .key name _ => jsonField name []
  | .string value mark => quoted value ++ [mark.byte]
  | .plain text _ => text

def piecesText (pieces : List Piece) : Bytes := pieces.flatMap Piece.text

theorem piecesText_cons (piece : Piece) (pieces : List Piece) :
    piecesText (piece :: pieces) = piece.text ++ piecesText pieces := rfl

theorem piecesText_append (front back : List Piece) :
    piecesText (front ++ back) = piecesText front ++ piecesText back := List.flatMap_append

/-- The pieces behind the first key of a name. -/
def behind (key : Bytes) : List Piece → Option (List Piece)
  | [] => none
  | .key name _ :: pieces => if name = key then some pieces else behind key pieces
  | .string _ _ :: pieces => behind key pieces
  | .plain _ _ :: pieces => behind key pieces

/-- Pieces without the key are passed over. -/
theorem behind_append {key : Bytes} {front : List Piece} (h : behind key front = none)
    (back : List Piece) : behind key (front ++ back) = behind key back := by
  induction front with
  | nil => rfl
  | cons piece front ih =>
    cases piece with
    | key name isName =>
      rw [behind] at h
      rw [List.cons_append, behind]
      by_cases hsame : name = key
      · rw [if_pos hsame] at h
        cases h
      · rw [if_neg hsame] at h ⊢
        exact ih h
    | string value mark => exact ih h
    | plain text noQuote => exact ih h

/-- A key that is found is found in front of other pieces, too. -/
theorem behind_append_some {key : Bytes} {front rest : List Piece}
    (h : behind key front = some rest) (back : List Piece) :
    behind key (front ++ back) = some (rest ++ back) := by
  induction front with
  | nil => cases h
  | cons piece front ih =>
    cases piece with
    | key name isName =>
      rw [behind] at h
      rw [List.cons_append, behind]
      by_cases hsame : name = key
      · rw [if_pos hsame] at h ⊢
        rw [Option.some.inj h]
      · rw [if_neg hsame] at h ⊢
        exact ih h
    | string value mark => exact ih h
    | plain text noQuote => exact ih h

/-- The names of the keys among the pieces. -/
def keysOf : List Piece → List Bytes
  | [] => []
  | .key name _ :: pieces => name :: keysOf pieces
  | .string _ _ :: pieces => keysOf pieces
  | .plain _ _ :: pieces => keysOf pieces

theorem keysOf_append (front back : List Piece) :
    keysOf (front ++ back) = keysOf front ++ keysOf back := by
  induction front with
  | nil => rfl
  | cons piece front ih =>
    cases piece with
    | key name isName => exact congrArg (name :: ·) ih
    | string value mark => exact ih
    | plain text noQuote => exact ih

/-- A name of no key is not found. -/
theorem behind_of_not_mem {key : Bytes} {pieces : List Piece} (h : key ∉ keysOf pieces) :
    behind key pieces = none := by
  induction pieces with
  | nil => rfl
  | cons piece pieces ih =>
    cases piece with
    | key name isName =>
      rw [keysOf, List.mem_cons, not_or] at h
      rw [behind, if_neg fun hsame => h.1 hsame.symm]
      exact ih h.2
    | string value mark => exact ih h
    | plain text noQuote => exact ih h

/-- A field search passes over a string. -/
theorem searchField_string {key : Bytes} (hkey : IsName key) (value : Bytes → Option β)
    (content : Bytes) {b : UInt8} (hb : Separator b) (rest : Bytes) :
    searchField key value (quoted content ++ b :: rest) = searchField key value rest := by
  have hnone : afterColon value (b :: rest) = none := by
    unfold afterColon skipSpaces
    rw [List.dropWhile_cons_of_neg (by rw [hb.notSpace]; exact Bool.false_ne_true)]
    split
    · next heq => exact absurd (List.cons.inj heq).1 hb.notColon
    · rfl
  unfold searchField
  rcases searchKey_quoted hkey content hb (afterColon value) rest with h | h
  · exact h
  · rw [h, hnone]

/-- Pieces without the key are passed over, whatever stands behind them. -/
theorem searchField_past {key : Bytes} (hkey : IsName key) (value : Bytes → Option β)
    {pieces : List Piece} (h : behind key pieces = none) (tail : Bytes) :
    searchField key value (piecesText pieces ++ tail) = searchField key value tail := by
  induction pieces with
  | nil => rfl
  | cons piece pieces ih =>
    rw [piecesText_cons, List.append_assoc]
    cases piece with
    | key name isName =>
      have htext : (Piece.key name isName).text ++ (piecesText pieces ++ tail) =
          jsonField name (piecesText pieces ++ tail) := jsonField_append name [] _
      rw [behind] at h
      by_cases hsame : name = key
      · rw [if_pos hsame] at h
        cases h
      · rw [if_neg hsame] at h
        rw [htext, ← ih h]
        exact searchKey_otherKey hkey isName hsame (afterColon value) _
    | string content mark =>
      have htext : (Piece.string content mark).text ++ (piecesText pieces ++ tail) =
          quoted content ++ mark.byte :: (piecesText pieces ++ tail) := by
        rw [Piece.text, List.append_assoc]
        rfl
      rw [htext, searchField_string hkey value content mark.separator]
      exact ih h
    | plain text noQuote => exact (searchKey_append noQuote _ _).trans (ih h)

/-- Pieces up to the first key of a name. -/
theorem behind_split {key : Bytes} {pieces rest : List Piece} (h : behind key pieces = some rest) :
    ∃ front isName, pieces = front ++ .key key isName :: rest ∧ behind key front = none := by
  induction pieces with
  | nil => cases h
  | cons piece pieces ih =>
    cases piece with
    | key name isName =>
      rw [behind] at h
      by_cases hsame : name = key
      · subst hsame
        rw [if_pos rfl] at h
        exact ⟨[], isName, by rw [Option.some.inj h]; rfl, rfl⟩
      · rw [if_neg hsame] at h
        obtain ⟨front, isName', hpieces, hfront⟩ := ih h
        refine ⟨.key name isName :: front, isName', by rw [hpieces]; rfl, ?_⟩
        rw [behind, if_neg hsame, hfront]
    | string value mark =>
      obtain ⟨front, isName, hpieces, hfront⟩ := ih h
      exact ⟨.string value mark :: front, isName, by rw [hpieces]; rfl, hfront⟩
    | plain text noQuote =>
      obtain ⟨front, isName, hpieces, hfront⟩ := ih h
      exact ⟨.plain text noQuote :: front, isName, by rw [hpieces]; rfl, hfront⟩

/-- The value of the first field of a name, or the search behind it. -/
theorem searchField_behind {key : Bytes} (hkey : IsName key) (value : Bytes → Option β)
    {pieces rest : List Piece} (h : behind key pieces = some rest) (tail : Bytes) :
    searchField key value (piecesText pieces ++ tail) =
      (value (skipSpaces (piecesText rest ++ tail))).or
        (searchField key value (piecesText rest ++ tail)) := by
  obtain ⟨front, isName, rfl, hfront⟩ := behind_split h
  have htext : piecesText (front ++ .key key isName :: rest) ++ tail =
      piecesText front ++ jsonField key (piecesText rest ++ tail) := by
    have hfield : (Piece.key key isName).text ++ (piecesText rest ++ tail) =
        jsonField key (piecesText rest ++ tail) := jsonField_append key [] _
    rw [piecesText_append, piecesText_cons, List.append_assoc, List.append_assoc, hfield]
  rw [htext, searchField_past hkey value hfront]
  unfold searchField
  have hcolon : afterColon value (58 :: (piecesText rest ++ tail)) =
      value (skipSpaces (piecesText rest ++ tail)) := rfl
  rw [searchKey_sameKey hkey, hcolon]
  cases value (skipSpaces (piecesText rest ++ tail)) <;> rfl

/-- The value of the first field of a name, without anything behind the pieces. -/
theorem searchField_pieces {key : Bytes} (hkey : IsName key) (value : Bytes → Option β)
    (pieces : List Piece) :
    searchField key value (piecesText pieces) =
      match behind key pieces with
      | none => none
      | some rest =>
        match value (skipSpaces (piecesText rest)) with
        | some found => some found
        | none => searchField key value (piecesText rest) := by
  cases hbehind : behind key pieces with
  | none =>
    have hpast := searchField_past hkey value hbehind []
    rw [List.append_nil] at hpast
    exact hpast
  | some rest =>
    have hfound := searchField_behind hkey value hbehind []
    rw [List.append_nil, List.append_nil] at hfound
    rw [hfound]
    dsimp only
    cases value (skipSpaces (piecesText rest)) <;> rfl

/-- No key of the name, no field. -/
theorem searchField_none {key : Bytes} (hkey : IsName key) (value : Bytes → Option β)
    {pieces : List Piece} (h : behind key pieces = none) :
    searchField key value (piecesText pieces) = none := by
  rw [searchField_pieces hkey, h]

/-- A field whose value is read. -/
theorem searchField_some {key : Bytes} (hkey : IsName key) {value : Bytes → Option β}
    {pieces rest : List Piece} (h : behind key pieces = some rest) {found : β}
    (hvalue : value (skipSpaces (piecesText rest)) = some found) :
    searchField key value (piecesText pieces) = some found := by
  rw [searchField_pieces hkey, h]
  dsimp only
  rw [hvalue]

/-- A reader that takes its value from one piece, whatever stands behind it. -/
def Reads (value : Bytes → Option β) (piece : Piece) (found : β) : Prop :=
  ∀ tail, value (skipSpaces (piece.text ++ tail)) = some found

/-- A field whose piece is read. -/
theorem searchField_reads {key : Bytes} (hkey : IsName key) {value : Bytes → Option β}
    {pieces : List Piece} {piece : Piece} {found : β} (hreads : Reads value piece found)
    (h : ∃ rest, behind key pieces = some (piece :: rest)) (tail : Bytes) :
    searchField key value (piecesText pieces ++ tail) = some found := by
  obtain ⟨rest, hrest⟩ := h
  rw [searchField_behind hkey value hrest, piecesText_cons, List.append_assoc, hreads,
    Option.some_or]

section Values

/-- The pattern `"((?:\\.|[^"\\])*)"` behind its opening quote: the raw contents.
An escape does not reach over the end of a line. -/
def rawRest : Bytes → Option Bytes
  | [] => none
  | 34 :: _ => some []
  | [92] => none
  | 92 :: c :: rest => if c = 10 ∨ c = 13 then none else (rawRest rest).map fun raw => 92 :: c :: raw
  | c :: rest => (rawRest rest).map fun raw => c :: raw

/-- A string literal, as its raw contents. -/
def rawString : Bytes → Option Bytes
  | 34 :: rest => rawRest rest
  | _ => none

/-- The pattern `(true|false)`. -/
def boolAt (text : Bytes) : Option Bool :=
  if (ascii "true").isPrefixOf text then some true
  else if (ascii "false").isPrefixOf text then some false
  else none

/-- Escaped contents are read up to their closing quote. -/
theorem rawRest_escaped {content : Bytes} (h : Escaped content) (rest : Bytes) :
    rawRest (content ++ 34 :: rest) = some content := by
  induction h with
  | nil => rfl
  | @plain b inner hquote hslash _ ih =>
    rw [List.cons_append]
    unfold rawRest
    split
    · next heq => cases heq
    · next heq => exact absurd (List.cons.inj heq).1 hquote
    · next heq => exact absurd (List.cons.inj heq).1 hslash
    · next heq => exact absurd (List.cons.inj heq).1 hslash
    · next heq =>
      cases heq
      rw [ih]
      rfl
  | @escape b inner hline hreturn _ ih =>
    rw [List.cons_append, List.cons_append, rawRest,
      if_neg (not_or.mpr ⟨hline, hreturn⟩), ih]
    rfl

theorem skipSpaces_cons {b : UInt8} (h : isSpace b = false) (rest : Bytes) :
    skipSpaces (b :: rest) = b :: rest :=
  List.dropWhile_cons_of_neg (by rw [h]; exact Bool.false_ne_true)

theorem reads_string (content : Bytes) (mark : Mark) :
    Reads rawString (.string content mark) (jsonEscape content) := by
  intro tail
  have htext : (Piece.string content mark).text ++ tail =
      34 :: (jsonEscape content ++ 34 :: (mark.byte :: tail)) := by
    rw [Piece.text, quoted, List.append_assoc, List.cons_append, List.append_assoc]
    rfl
  rw [htext, skipSpaces_cons rfl]
  exact rawRest_escaped (escaped_jsonEscape content) _

theorem rawString_pieces (content : Bytes) (mark : Mark) (pieces : List Piece) :
    rawString (skipSpaces (piecesText (.string content mark :: pieces))) =
      some (jsonEscape content) := reads_string content mark (piecesText pieces)

/-- A truth value and what stands behind it. -/
def flagPiece (value : Bool) (mark : Mark) : Piece :=
  .plain (boolText value ++ [mark.byte]) (by cases value <;> cases mark <;> decide)

theorem reads_flag (value : Bool) (mark : Mark) : Reads boolAt (flagPiece value mark) value := by
  intro tail
  cases value <;> cases mark <;> rfl

/-- A number and what stands behind it. -/
def literalPiece (l : NumberLiteral) (h : l.WellFormed) (mark : Mark) : Piece :=
  .plain (l.text ++ [mark.byte]) (by
    rw [List.mem_append, not_or]
    refine ⟨quote_not_mem_literal h, ?_⟩
    cases mark <;> decide)

/-- An integer, as a stream writes it. -/
def integerPiece (n : ℤ) (mark : Mark) : Piece :=
  literalPiece (decimalLiteral n) (decimalLiteral_wellFormed n) mark

/-- A double, as a stream writes it. -/
def doublePiece (x : ℚ) (mark : Mark) : Piece :=
  literalPiece (streamLiteral x) (streamLiteral_spec x).1 mark

theorem skipSpaces_literal {l : NumberLiteral} (hl : l.WellFormed) (rest : Bytes) :
    skipSpaces (l.text ++ rest) = l.text ++ rest := by
  obtain ⟨d, tail, hcons⟩ := List.exists_cons_of_ne_nil hl.ne
  have hd := hl.whole d (hcons ▸ List.mem_cons_self)
  unfold NumberLiteral.text
  rw [hcons]
  cases l.negative with
  | true => exact skipSpaces_cons rfl _
  | false => exact skipSpaces_cons (not_isSpace_of_isDigit hd) _

theorem literalPiece_text {l : NumberLiteral} (hl : l.WellFormed) (mark : Mark)
    (tail : Bytes) : skipSpaces ((literalPiece l hl mark).text ++ tail) =
      l.text ++ mark.byte :: tail := by
  have htext : (literalPiece l hl mark).text ++ tail = l.text ++ mark.byte :: tail := by
    show (l.text ++ [mark.byte]) ++ tail = _
    rw [List.append_assoc]
    rfl
  rw [htext, skipSpaces_literal hl]

theorem reads_integer {l : NumberLiteral} (hl : l.WellFormed) (mark : Mark) :
    Reads scanInteger (literalPiece l hl mark) l.integer := by
  intro tail
  rw [literalPiece_text, scanInteger_text hl mark.ends]

theorem reads_number {l : NumberLiteral} (hl : l.WellFormed) (mark : Mark) :
    Reads metadataNumber (literalPiece l hl mark) l.value := by
  intro tail
  rw [literalPiece_text]
  exact scanNumber_text takesFraction_metadata hl mark.ends _

theorem metadataNumber_pieces {l : NumberLiteral} (hl : l.WellFormed) (mark : Mark)
    (pieces : List Piece) :
    metadataNumber (skipSpaces (piecesText (literalPiece l hl mark :: pieces))) = some l.value :=
  reads_number hl mark (piecesText pieces)

end Values

end LayerInference.JsonPieces
