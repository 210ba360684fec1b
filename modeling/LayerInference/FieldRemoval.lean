import LayerInference.JsonPieces

/-!
# Fields taken out of texts

A field is removed by three patterns in turn: with the comma before it, with the
comma behind it, and alone. Every match of a pattern is left out, from the left.
A text in pieces without the key does not change, and a field whose key is the
only one of its name goes together with its comma, whatever the strings of the
other pieces contain.
-/

namespace LayerInference.FieldRemoval

open ByteStrings TextStreams QuotedTexts JsonFields NumberTexts JsonPieces

section Patterns

/-- The matches of a pattern are left out. A pattern gives what stands behind its
match, and the bytes up to there are skipped. -/
def removeMatches (p : Bytes → Option Bytes) : ℕ → Bytes → Bytes
  | _, [] => []
  | skipped + 1, _ :: rest => removeMatches p skipped rest
  | 0, b :: rest =>
    match p (b :: rest) with
    | some behind => removeMatches p (rest.length - behind.length) rest
    | none => b :: removeMatches p 0 rest

/-- The pattern `"key"\s*:\s*` with a value behind it. -/
def fieldMatch (key : Bytes) (value : Bytes → Option Bytes) (text : Bytes) : Option Bytes :=
  (occursAt key text).bind (afterColon value)

/-- A field behind a comma. -/
def middleMatch (key : Bytes) (value : Bytes → Option Bytes) : Bytes → Option Bytes
  | 44 :: rest => fieldMatch key value (skipSpaces rest)
  | _ => none

def commaBehind (text : Bytes) : Option Bytes :=
  match skipSpaces text with
  | 44 :: rest => some rest
  | _ => none

/-- A field in front of a comma. -/
def firstFieldMatch (key : Bytes) (value : Bytes → Option Bytes) (text : Bytes) : Option Bytes :=
  (fieldMatch key value text).bind commaBehind

def removeField (value : Bytes → Option Bytes) (json key : Bytes) : Bytes :=
  let json := removeMatches (middleMatch key value) 0 json
  let json := removeMatches (firstFieldMatch key value) 0 json
  removeMatches (fieldMatch key value) 0 json

/-- What stands behind the pattern `\{[^{}]*\}`. -/
def behindObject : Bytes → Option Bytes
  | 0x7b :: rest =>
    match rest.dropWhile (fun b => b != 0x7b && b != 0x7d) with
    | 0x7d :: behind => some behind
    | _ => none
  | _ => none

/-- What stands behind the pattern `(?:[eE][+-]?\d+)?`. -/
def behindPower : Bytes → Bytes
  | [] => []
  | mark :: rest =>
    if (mark = 101 ∨ mark = 69) ∧ (takeSign rest).2.takeWhile isDigit ≠ [] then
      (takeSign rest).2.dropWhile isDigit
    else mark :: rest

/-- What stands behind a number. No match of a number can be cut short and still
have a blank or a comma behind it. -/
def behindNumber (text : Bytes) : Option Bytes :=
  (metadataFraction ((takeMinus text).2.takeWhile isDigit)
    ((takeMinus text).2.dropWhile isDigit)).map fun found => behindPower found.2

def removeObjectField (json key : Bytes) : Bytes := removeField behindObject json key

def removeNumberField (json key : Bytes) : Bytes := removeField behindNumber json key

end Patterns

section Matches

variable {p : Bytes → Option Bytes}

theorem removeMatches_skip (skipped : ℕ) (text : Bytes) :
    removeMatches p skipped text = removeMatches p 0 (text.drop skipped) := by
  induction text generalizing skipped with
  | nil => cases skipped <;> rfl
  | cons b rest ih =>
    cases skipped with
    | zero => rfl
    | succ skipped =>
      rw [removeMatches, List.drop_succ_cons]
      exact ih skipped

/-- Bytes at which no match starts are kept. -/
theorem removeMatches_append {front back : Bytes}
    (h : ∀ before start, front = before ++ start → start ≠ [] → p (start ++ back) = none) :
    removeMatches p 0 (front ++ back) = front ++ removeMatches p 0 back := by
  induction front with
  | nil => rfl
  | cons b front ih =>
    have hfirst := h [] (b :: front) rfl (List.cons_ne_nil b front)
    rw [List.cons_append] at hfirst ⊢
    rw [removeMatches, hfirst, ih fun before start hsplit hne =>
      h (b :: before) start (by rw [hsplit, List.cons_append]) hne]
    rfl

theorem removeMatches_none {text : Bytes}
    (h : ∀ before start, text = before ++ start → start ≠ [] → p start = none) :
    removeMatches p 0 text = text := by
  have hkept := @removeMatches_append p text [] fun before start hsplit hne => by
    rw [List.append_nil]
    exact h before start hsplit hne
  rw [List.append_nil] at hkept
  exact hkept.trans (List.append_nil text)

/-- A match is left out as a whole. -/
theorem removeMatches_match {b : UInt8} {rest taken behind : Bytes}
    (h : p (b :: rest) = some behind) (hrest : rest = taken ++ behind) :
    removeMatches p 0 (b :: rest) = removeMatches p 0 behind := by
  rw [removeMatches, h]
  dsimp only
  rw [removeMatches_skip, hrest, List.length_append, Nat.add_sub_cancel, List.drop_left]

end Matches

section Fields

variable {key text : Bytes} {value : Bytes → Option Bytes}

/-- Every field of a name has this text behind its colon. -/
def ValuesAre (key text : Bytes) (target : Bytes) : Prop :=
  ∀ before start, text = before ++ start → ∀ found, fieldMatch key some start = some found →
    found = target

/-- No field of a name. -/
def Fieldless (key text : Bytes) : Prop :=
  ∀ before start, text = before ++ start → fieldMatch key some start = none

theorem Fieldless.suffix {front back : Bytes} (h : Fieldless key (front ++ back)) :
    Fieldless key back := by
  intro before start hsplit
  exact h (front ++ before) start (by rw [hsplit, List.append_assoc])

/-- A field with a value is a field. -/
theorem fieldMatch_none (h : fieldMatch key some text = none) :
    fieldMatch key value text = none := by
  unfold fieldMatch at h ⊢
  cases hoccurs : occursAt key text with
  | none => rfl
  | some behind =>
    rw [hoccurs, Option.bind_some] at h
    rw [Option.bind_some]
    unfold afterColon at h ⊢
    cases hskip : skipSpaces behind with
    | nil => rfl
    | cons b rest =>
      rw [hskip] at h
      by_cases hcolon : b = 58
      · subst hcolon
        cases h
      · split
        · next heq => exact absurd (List.cons.inj heq).1 hcolon
        · rfl

theorem occursAt_eq {behind : Bytes} (h : occursAt key text = some behind) :
    text = 34 :: (key ++ 34 :: behind) := by
  unfold occursAt at h
  split at h
  · next hstarts =>
    obtain ⟨rest, hrest⟩ := List.isPrefixOf_iff_prefix.mp hstarts
    have hlength : (34 :: (key ++ [34])).length = key.length + 2 := by
      rw [List.length_cons, List.length_append]
      rfl
    rw [← hrest, ← hlength, List.drop_left] at h
    rw [← hrest, Option.some.inj h, List.cons_append, List.append_assoc]
    rfl
  · cases h

theorem skipSpaces_split (text : Bytes) :
    ∃ blank, text = blank ++ skipSpaces text ∧ ∀ b ∈ blank, isSpace b = true :=
  ⟨text.takeWhile isSpace, List.takeWhile_append_dropWhile.symm,
    fun _ hb => List.mem_takeWhile_imp hb⟩

/-- A field in its parts. -/
theorem fieldMatch_split {found : Bytes} (h : fieldMatch key some text = some found) :
    ∃ before behind, text = 34 :: (key ++ 34 :: (before ++ 58 :: (behind ++ found))) ∧
      (∀ b ∈ before, isSpace b = true) ∧ ∀ b ∈ behind, isSpace b = true := by
  unfold fieldMatch at h
  cases hoccurs : occursAt key text with
  | none =>
    rw [hoccurs] at h
    cases h
  | some rest =>
    rw [hoccurs, Option.bind_some] at h
    obtain ⟨before, hbefore, hblank⟩ := skipSpaces_split rest
    unfold afterColon at h
    split at h
    · next after hafter =>
      obtain ⟨behind, hbehind, hblank'⟩ := skipSpaces_split after
      refine ⟨before, behind, ?_, hblank, hblank'⟩
      rw [← Option.some.inj h, ← hbehind, ← hafter, ← hbefore]
      exact occursAt_eq hoccurs
    · cases h

/-- Without blanks a field is read at once. -/
theorem fieldMatch_field {target : Bytes} (htarget : skipSpaces target = target) :
    fieldMatch key value (jsonField key target) = value target := by
  have hoccurs : occursAt key (jsonField key target) = some (58 :: target) := by
    unfold occursAt jsonField
    have hsplit : 34 :: (key ++ 34 :: 58 :: target) = (34 :: (key ++ [34])) ++ 58 :: target := by
      rw [List.cons_append, List.append_assoc]
      rfl
    have hlength : (34 :: (key ++ [34])).length = key.length + 2 := by
      rw [List.length_cons, List.length_append]
      rfl
    rw [hsplit, if_pos (List.isPrefixOf_iff_prefix.mpr (List.prefix_append _ _)), ← hlength,
      List.drop_left]
  unfold fieldMatch
  rw [hoccurs, Option.bind_some]
  unfold afterColon
  have hcolon : skipSpaces (58 :: target) = 58 :: target := skipSpaces_cons rfl target
  rw [hcolon]
  show value (skipSpaces target) = value target
  rw [htarget]

/-- Without the field no pattern matches. -/
theorem middleMatch_none (h : Fieldless key text) {before start : Bytes}
    (hsplit : text = before ++ start) : middleMatch key value start = none := by
  unfold middleMatch
  split
  · next _ rest =>
    obtain ⟨blank, hblank, -⟩ := skipSpaces_split rest
    refine fieldMatch_none (h (before ++ 44 :: blank) (skipSpaces rest) ?_)
    rw [hsplit, List.append_assoc, List.cons_append, ← hblank]
  · rfl

theorem firstFieldMatch_none (h : Fieldless key text) {before start : Bytes}
    (hsplit : text = before ++ start) : firstFieldMatch key value start = none := by
  unfold firstFieldMatch
  rw [fieldMatch_none (h before start hsplit)]
  rfl

/-- A text without the field does not change. -/
theorem removeField_absent (h : Fieldless key text) : removeField value text key = text := by
  have hmiddle : removeMatches (middleMatch key value) 0 text = text :=
    removeMatches_none fun _ _ hsplit _ => middleMatch_none h hsplit
  have hfirst : removeMatches (firstFieldMatch key value) 0 text = text :=
    removeMatches_none fun _ _ hsplit _ => firstFieldMatch_none h hsplit
  have honly : removeMatches (fieldMatch key value) 0 text = text :=
    removeMatches_none fun before start hsplit _ => fieldMatch_none (h before start hsplit)
  unfold removeField
  dsimp only
  rw [hmiddle, hfirst, honly]

/-- Blanks at the end of two texts are told apart from a byte that is none. -/
theorem eq_of_blank_end {front front' blank : Bytes} {b : UInt8}
    (hblank : ∀ c ∈ blank, isSpace c = true) (hb : isSpace b = false)
    (h : front ++ blank = front' ++ [b]) : blank = [] := by
  by_contra hne
  obtain ⟨inner, last, rfl⟩ := (List.eq_nil_or_concat blank).resolve_left hne
  have hlast := congrArg List.getLast? h
  rw [List.concat_eq_append, ← List.append_assoc, List.getLast?_concat,
    List.getLast?_concat] at hlast
  rw [List.concat_eq_append] at hblank
  have hspace := hblank last (List.mem_append_right _ List.mem_cons_self)
  rw [Option.some.inj hlast, hb] at hspace
  cases hspace

/-- The only field of a name is left out together with the comma before it. -/
theorem removeField_once {front target behind : Bytes} (htarget : skipSpaces target = target)
    (hvalue : value target = some behind) (hbehind : ∃ taken, target = taken ++ behind)
    (honce : ValuesAre key (front ++ 44 :: jsonField key target) target)
    (hgone : Fieldless key (front ++ behind)) :
    removeField value (front ++ 44 :: jsonField key target) key = front ++ behind := by
  have hfront : ∀ before start, front = before ++ start → start ≠ [] →
      middleMatch key value (start ++ 44 :: jsonField key target) = none := by
    intro before start hsplit hne
    unfold middleMatch
    split
    · next _ rest hcomma =>
      refine fieldMatch_none ?_
      by_contra hmatch
      obtain ⟨found, hfound⟩ := Option.ne_none_iff_exists'.mp hmatch
      obtain ⟨blank, hblank, hspaces⟩ := skipSpaces_split rest
      have hplace : front ++ 44 :: jsonField key target =
          (before ++ 44 :: blank) ++ skipSpaces rest := by
        rw [hsplit, List.append_assoc, hcomma, List.append_assoc, List.cons_append, ← hblank]
      have hsame := honce _ _ hplace found hfound
      obtain ⟨gap, gap', hparts, hgap, hgap'⟩ := fieldMatch_split hfound
      -- both places have the same text behind the colon, so they are the same place
      rw [hblank, hparts, hsame] at hcomma
      have hends : ((((44 :: blank) ++ 34 :: (key ++ 34 :: gap)) ++ [58]) ++ gap') ++ target =
          (((start ++ [44]) ++ 34 :: (key ++ [34])) ++ [58]) ++ target := by
        have hleft : ((((44 :: blank) ++ 34 :: (key ++ 34 :: gap)) ++ [58]) ++ gap') ++ target =
            44 :: (blank ++ 34 :: (key ++ 34 :: (gap ++ 58 :: (gap' ++ target)))) := by
          simp only [List.append_assoc, List.cons_append, List.nil_append]
        have hright : (((start ++ [44]) ++ 34 :: (key ++ [34])) ++ [58]) ++ target =
            start ++ 44 :: jsonField key target := by
          unfold jsonField
          simp only [List.append_assoc, List.cons_append, List.nil_append]
        rw [hleft, hright, hcomma]
      have hcolons := List.append_cancel_right hends
      rw [eq_of_blank_end hgap' rfl hcolons, List.append_nil] at hcolons
      have hkeys := List.append_cancel_right hcolons
      have hquotes : ((44 :: blank) ++ 34 :: (key ++ [34])) ++ gap =
          ((start ++ [44]) ++ 34 :: key) ++ [34] := by
        simp only [List.append_assoc, List.cons_append, List.nil_append] at hkeys ⊢
        exact hkeys
      rw [eq_of_blank_end hgap rfl hquotes] at hkeys
      have hcommas := List.append_cancel_right hkeys
      have hnil : blank = [] := @eq_of_blank_end [44] start blank 44 hspaces rfl hcommas
      rw [hnil] at hcommas
      exact hne (List.append_cancel_right (hcommas.symm.trans (List.nil_append [44]).symm))
    · rfl
  have hmiddle : removeMatches (middleMatch key value) 0 (front ++ 44 :: jsonField key target) =
      front ++ behind := by
    rw [removeMatches_append hfront]
    obtain ⟨taken, htaken⟩ := hbehind
    have hmatch : middleMatch key value (44 :: jsonField key target) = some behind := by
      show fieldMatch key value (skipSpaces (jsonField key target)) = some behind
      have hquote : skipSpaces (jsonField key target) = jsonField key target :=
        skipSpaces_cons rfl _
      rw [hquote, fieldMatch_field htarget, hvalue]
    have hrest : jsonField key target = jsonField key taken ++ behind := by
      rw [jsonField_append, ← htaken]
    rw [removeMatches_match hmatch hrest]
    congr 1
    exact removeMatches_none fun _ _ hsplit _ => middleMatch_none hgone.suffix hsplit
  have hfirst : removeMatches (firstFieldMatch key value) 0 (front ++ behind) = front ++ behind :=
    removeMatches_none fun _ _ hsplit _ => firstFieldMatch_none hgone hsplit
  have honly : removeMatches (fieldMatch key value) 0 (front ++ behind) = front ++ behind :=
    removeMatches_none fun before start hsplit _ => fieldMatch_none (hgone before start hsplit)
  unfold removeField
  dsimp only
  rw [hmiddle, hfirst, honly]

end Fields

section Pieces

variable {key : Bytes} {value : Bytes → Option Bytes}

/-- Where a search for any value fails there is no field. -/
theorem fieldless_of_search {text : Bytes} (h : searchField key some text = none) :
    Fieldless key text := by
  intro before start hsplit
  cases start with
  | nil => rfl
  | cons b start => exact firstMatch_none h hsplit (List.cons_ne_nil b start)

/-- Pieces without the key have no field of its name. -/
theorem fieldless_pieces (hkey : IsName key) {pieces : List Piece} (h : behind key pieces = none) :
    Fieldless key (piecesText pieces) :=
  fieldless_of_search (searchField_none hkey some h)

/-- Where a search for any other value fails, every field has this one. -/
theorem valuesAre_of_search {text target : Bytes}
    (h : searchField key (fun found => if found = target then none else some found) text = none) :
    ValuesAre key text target := by
  intro before start hsplit found hmatch
  by_contra hother
  obtain ⟨b, tail, hcons⟩ : ∃ b tail, start = b :: tail := by
    cases start with
    | nil => cases hmatch
    | cons b tail => exact ⟨b, tail, rfl⟩
  have hplace := firstMatch_none h hsplit (by rw [hcons]; exact List.cons_ne_nil b tail)
  unfold fieldMatch at hmatch
  cases hoccurs : occursAt key start with
  | none =>
    rw [hoccurs] at hmatch
    cases hmatch
  | some after =>
    rw [hoccurs, Option.bind_some] at hmatch hplace
    unfold afterColon at hmatch hplace
    split at hmatch
    · next colon heq =>
      rw [heq] at hplace
      change (if skipSpaces colon = target then none else some (skipSpaces colon)) =
        none at hplace
      rw [Option.some.inj hmatch, if_neg hother] at hplace
      cases hplace
    · cases hmatch

end Pieces

section Values

theorem behindPower_text {power : Option PowerText} (h : ∀ p ∈ power, p.WellFormed) {b : UInt8}
    (hb : Ends b) (rest : Bytes) : behindPower (powerText power ++ b :: rest) = b :: rest := by
  cases power with
  | none => exact if_neg fun hmark => absurd hmark.1 (not_or.mpr hb.notMark)
  | some power =>
    have hpower := h power rfl
    have htake := @takeWhile_digits power.digits rest b hpower.digits hb.notDigit
    have hsign : (takeSign (power.sign ++ (power.digits ++ b :: rest))).2 =
        power.digits ++ b :: rest := by
      rcases hpower.sign with heq | heq | heq
      · obtain ⟨d, tail, hcons⟩ := List.exists_cons_of_ne_nil hpower.ne
        have hd := hpower.digits d (hcons ▸ List.mem_cons_self)
        rw [heq, hcons]
        exact congrArg Prod.snd (takeSign_of_digit hd _)
      · rw [heq]
        rfl
      · rw [heq]
        rfl
    have htext : powerText (some power) ++ b :: rest =
        power.mark :: (power.sign ++ (power.digits ++ b :: rest)) := by
      show (power.mark :: (power.sign ++ power.digits)) ++ b :: rest = _
      rw [List.cons_append, List.append_assoc]
    rw [htext, behindPower, hsign, htake.1, htake.2, if_pos ⟨hpower.mark, hpower.ne⟩]

/-- What stands behind a written number. -/
theorem behindNumber_text {l : NumberLiteral} (hl : l.WellFormed) {b : UInt8} (hb : Ends b)
    (rest : Bytes) : behindNumber (l.text ++ b :: rest) = some (b :: rest) := by
  obtain ⟨c, tail, hc, hdigit, hpoint⟩ := powerText_head hl.power hb rest
  have hpower := behindPower_text hl.power hb rest
  unfold behindNumber
  rw [takeMinus_text hl]
  dsimp only
  by_cases hfraction : l.fraction = []
  · have htext : NumberLiteral.fractionText l.fraction ++ (powerText l.power ++ b :: rest) =
        c :: tail := by
      rw [NumberLiteral.fractionText, if_pos hfraction, List.nil_append, hc]
    have htake := @takeWhile_digits l.whole tail c hl.whole hdigit
    rw [htext, htake.1, htake.2, takesFraction_metadata.absent hl.ne hpoint, Option.map_some]
    dsimp only
    rw [← hc, hpower]
  · have htext : NumberLiteral.fractionText l.fraction ++ (powerText l.power ++ b :: rest) =
        46 :: (l.fraction ++ (powerText l.power ++ b :: rest)) := by
      rw [NumberLiteral.fractionText, if_neg hfraction, List.cons_append]
    have htake := @takeWhile_digits l.whole (l.fraction ++ (powerText l.power ++ b :: rest)) 46
      hl.whole rfl
    have hdigits := @takeWhile_digits l.fraction tail c hl.fraction hdigit
    rw [← hc] at hdigits
    rw [htext, htake.1, htake.2, takesFraction_metadata.present hl.ne
      (by rw [hdigits.1]; exact hfraction), hdigits.2, Option.map_some]
    dsimp only
    rw [hpower]

/-- A text that opens and closes no object. -/
def Unbraced (text : Bytes) : Prop := ∀ b ∈ text, b ≠ 0x7b ∧ b ≠ 0x7d

/-- What stands behind an object without inner objects. -/
theorem behindObject_text {inner : Bytes} (h : Unbraced inner) (rest : Bytes) :
    behindObject (0x7b :: (inner ++ 0x7d :: rest)) = some rest := by
  have hplain : ∀ b ∈ inner, (b != 0x7b && b != 0x7d) = true := by
    intro b hb
    rw [Bool.and_eq_true]
    exact ⟨bne_iff_ne.mpr (h b hb).1, bne_iff_ne.mpr (h b hb).2⟩
  have hdrop : (inner ++ 0x7d :: rest).dropWhile (fun b => b != 0x7b && b != 0x7d) =
      0x7d :: rest := by
    rw [List.dropWhile_append_of_pos hplain]
    rfl
  rw [behindObject, hdrop]
  rfl

theorem unbraced_literal {l : NumberLiteral} (hl : l.WellFormed) : Unbraced l.text := by
  intro b hb
  rcases literal_bytes hl hb with h | h
  · constructor
    · rintro rfl
      cases h
    · rintro rfl
      cases h
  · constructor
    · rintro rfl
      exact absurd h (by decide)
    · rintro rfl
      exact absurd h (by decide)

theorem unbraced_append {front back : Bytes} (hfront : Unbraced front) (hback : Unbraced back) :
    Unbraced (front ++ back) := by
  intro b hb
  rcases List.mem_append.mp hb with h | h
  · exact hfront b h
  · exact hback b h

/-- A number and the comma behind it. -/
theorem unbraced_comma {l : NumberLiteral} (hl : l.WellFormed) :
    Unbraced (literalPiece l hl .comma).text :=
  unbraced_append (unbraced_literal hl) fun b hb => by
    rw [List.mem_singleton.mp hb]
    exact ⟨by decide, by decide⟩

theorem unbraced_key {name : Bytes} (isName : IsName name) :
    Unbraced (Piece.key name isName).text := by
  intro b hb
  rcases List.mem_cons.mp hb with rfl | hb
  · exact ⟨by decide, by decide⟩
  rcases List.mem_append.mp hb with hname | hb
  · have hbyte := isName.bytes b hname
    constructor
    · rintro rfl
      cases hbyte
    · rintro rfl
      cases hbyte
  · rcases List.mem_cons.mp hb with rfl | hb
    · exact ⟨by decide, by decide⟩
    · rw [List.mem_singleton.mp hb]
      exact ⟨by decide, by decide⟩

theorem unbraced_pieces {pieces : List Piece} (h : ∀ piece ∈ pieces, Unbraced piece.text) :
    Unbraced (piecesText pieces) := by
  intro b hb
  obtain ⟨piece, hpiece, hb⟩ := List.mem_flatMap.mp hb
  exact h piece hpiece b hb

end Values

end LayerInference.FieldRemoval
