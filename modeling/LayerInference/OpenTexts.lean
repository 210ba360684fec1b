import LayerInference.FieldRemoval

/-!
# Texts that go on behind a byte

A field search reads a number only up to a byte that continues no number, no key
and no blank. What stands behind such a byte is then searched on its own, so the
result of a search over a text with an open end splits there. A text in which a
key is not quoted is passed over, and the only field of a name behind it can be
taken out without touching it. Nothing here belongs to one format.
-/

namespace LayerInference.OpenTexts

open ByteStrings TextStreams QuotedTexts JsonFields NumberTexts JsonPieces FieldRemoval

variable {β : Type} {b : UInt8}

section Stops

/-- A byte at which every number, key and blank ends. -/
structure Stop (b : UInt8) : Prop where
  ends : Ends b
  separates : Separator b
  notSign : b ≠ 45 ∧ b ≠ 43

theorem stop_comma : Stop 44 := ⟨ends_comma, separator_comma, by decide⟩

theorem stop_brace : Stop 0x7d := ⟨ends_brace, separator_brace, by decide⟩

/-- A reader that does not look behind the byte. -/
def Stops (b : UInt8) (value : Bytes → Option β) : Prop :=
  ∀ text rest, value (text ++ b :: rest) = value text

theorem takeWhile_stop {p : UInt8 → Bool} (hb : p b = false) (text rest : Bytes) :
    (text ++ b :: rest).takeWhile p = text.takeWhile p := by
  induction text with
  | nil => exact List.takeWhile_cons_of_neg (by rw [hb]; exact Bool.false_ne_true)
  | cons c text ih =>
    rw [List.cons_append, List.takeWhile_cons, List.takeWhile_cons, ih]

theorem dropWhile_stop {p : UInt8 → Bool} (hb : p b = false) (text rest : Bytes) :
    (text ++ b :: rest).dropWhile p = text.dropWhile p ++ b :: rest := by
  induction text with
  | nil => exact List.dropWhile_cons_of_neg (by rw [hb]; exact Bool.false_ne_true)
  | cons c text ih =>
    rw [List.cons_append, List.dropWhile_cons, List.dropWhile_cons, ih]
    split <;> rfl

theorem skipSpaces_stop (hb : Stop b) (text rest : Bytes) :
    skipSpaces (text ++ b :: rest) = skipSpaces text ++ b :: rest :=
  dropWhile_stop hb.separates.notSpace text rest

theorem takeMinus_stop (hb : Stop b) (text rest : Bytes) :
    takeMinus (text ++ b :: rest) = ((takeMinus text).1, (takeMinus text).2 ++ b :: rest) := by
  cases text with
  | nil =>
    rw [List.nil_append, takeMinus]
    · rfl
    · rintro more heq
      exact hb.notSign.1 (List.cons.inj heq).1
  | cons c text =>
    by_cases hc : c = 45
    · subst hc
      rfl
    · have hplain : ∀ more, takeMinus (c :: more) = (false, c :: more) := by
        intro more
        rw [takeMinus]
        rintro other heq
        exact hc (List.cons.inj heq).1
      rw [List.cons_append, hplain, hplain]
      rfl

/-- An integer ends at the byte. -/
theorem stops_scanInteger (hb : Stop b) : Stops b scanInteger := by
  intro text rest
  unfold scanInteger
  rw [takeMinus_stop hb]
  dsimp only
  rw [takeWhile_stop hb.ends.notDigit]

theorem takeSign_stop (hb : Stop b) (text rest : Bytes) :
    takeSign (text ++ b :: rest) = ((takeSign text).1, (takeSign text).2 ++ b :: rest) := by
  have hplain : ∀ (c : UInt8) (more : Bytes), c ≠ 45 → c ≠ 43 →
      takeSign (c :: more) = ([], c :: more) := by
    intro c more hminus hplus
    rw [takeSign]
    · rintro other heq
      exact hplus (List.cons.inj heq).1
    · rintro other heq
      exact hminus (List.cons.inj heq).1
  cases text with
  | nil => exact hplain b rest hb.notSign.1 hb.notSign.2
  | cons c text =>
    by_cases hminus : c = 45
    · subst hminus
      rfl
    by_cases hplus : c = 43
    · subst hplus
      rfl
    rw [List.cons_append, hplain c _ hminus hplus, hplain c _ hminus hplus]
    rfl

theorem scanPower_stop (hb : Stop b) (text rest : Bytes) :
    scanPower (text ++ b :: rest) = scanPower text := by
  cases text with
  | nil => exact if_neg (not_or.mpr hb.ends.notMark)
  | cons c text =>
    rw [List.cons_append, scanPower, scanPower, takeSign_stop hb]
    dsimp only
    rw [takeWhile_stop hb.ends.notDigit]

theorem metadataFraction_stop (hb : Stop b) (whole text rest : Bytes) :
    metadataFraction whole (text ++ b :: rest) =
      (metadataFraction whole text).map fun found => (found.1, found.2 ++ b :: rest) := by
  have hplain : ∀ (c : UInt8) (more : Bytes), c ≠ 46 →
      metadataFraction whole (c :: more) = if whole = [] then none else some ([], c :: more) := by
    intro c more hpoint
    unfold metadataFraction
    split
    · next heq => exact absurd (List.cons.inj heq).1 hpoint
    · rfl
  cases text with
  | nil =>
    have hnil : metadataFraction whole [] = if whole = [] then none else some ([], []) := rfl
    rw [List.nil_append, hplain b rest hb.ends.notPoint, hnil]
    split <;> rfl
  | cons c text =>
    by_cases hpoint : c = 46
    · subst hpoint
      rw [List.cons_append, metadataFraction, metadataFraction,
        takeWhile_stop hb.ends.notDigit, dropWhile_stop hb.ends.notDigit]
      split <;> rfl
    · rw [List.cons_append, hplain c _ hpoint, hplain c _ hpoint]
      split <;> rfl

/-- A number ends at the byte. -/
theorem stops_metadataNumber (hb : Stop b) : Stops b metadataNumber := by
  intro text rest
  unfold metadataNumber scanNumber
  rw [takeMinus_stop hb]
  dsimp only
  rw [takeWhile_stop hb.ends.notDigit, dropWhile_stop hb.ends.notDigit, metadataFraction_stop hb]
  cases metadataFraction ((takeMinus text).2.takeWhile isDigit)
      ((takeMinus text).2.dropWhile isDigit) with
  | none => rfl
  | some found =>
    show some (signedValue _ (unsignedValue _ found.1 (scanPower (found.2 ++ b :: rest)))) = _
    rw [scanPower_stop hb]

end Stops

section Searches

variable {key : Bytes}

theorem not_mem_quoted (hkey : IsName key) (hb : Stop b) : b ∉ 34 :: (key ++ [34]) := by
  intro hmem
  rcases List.mem_cons.mp hmem with rfl | hmem
  · exact hb.separates.notQuote rfl
  rcases List.mem_append.mp hmem with hname | hmem
  · have hbyte := hkey.bytes b hname
    rw [hb.separates.notName] at hbyte
    cases hbyte
  · exact hb.separates.notQuote (List.mem_singleton.mp hmem)

/-- A key does not reach over the byte. -/
theorem occursAt_stop (hkey : IsName key) (hb : Stop b) (text rest : Bytes) :
    occursAt key (text ++ b :: rest) = (occursAt key text).map (· ++ b :: rest) := by
  have hiff : 34 :: (key ++ [34]) <+: text ++ b :: rest ↔ 34 :: (key ++ [34]) <+: text := by
    constructor
    · intro hstart
      rcases List.prefix_or_prefix_of_prefix hstart (List.prefix_append text (b :: rest)) with h | h
      · exact h
      · obtain ⟨more, hmore⟩ := h
        cases more with
        | nil => exact ⟨[], by rw [List.append_nil, ← hmore, List.append_nil]⟩
        | cons c more =>
          rw [← hmore, List.prefix_append_right_inj] at hstart
          obtain ⟨behind, hbehind⟩ := hstart
          have hc : c = b := (List.cons.inj hbehind).1
          refine absurd ?_ (not_mem_quoted hkey hb)
          rw [← hmore, ← hc]
          exact List.mem_append_right _ List.mem_cons_self
    · exact fun h => h.trans (List.prefix_append text (b :: rest))
  unfold occursAt
  by_cases hstart : 34 :: (key ++ [34]) <+: text
  · have hlength : key.length + 2 ≤ text.length := by
      have hle := hstart.length_le
      rw [List.length_cons, List.length_append] at hle
      exact hle
    rw [if_pos (List.isPrefixOf_iff_prefix.mpr (hiff.mpr hstart)),
      if_pos (List.isPrefixOf_iff_prefix.mpr hstart), List.drop_append_of_le_length hlength]
    rfl
  · rw [if_neg fun h => hstart (hiff.mp (List.isPrefixOf_iff_prefix.mp h)),
      if_neg fun h => hstart (List.isPrefixOf_iff_prefix.mp h)]
    rfl

theorem stops_afterColon {value : Bytes → Option β} (hb : Stop b) (hvalue : Stops b value) :
    Stops b (afterColon value) := by
  intro text rest
  unfold afterColon
  rw [skipSpaces_stop hb]
  cases skipSpaces text with
  | nil =>
    rw [List.nil_append]
    split
    · next heq => exact absurd (List.cons.inj heq).1 hb.separates.notColon
    · rfl
  | cons c behind =>
    by_cases hcolon : c = 58
    · subst hcolon
      show value (skipSpaces (behind ++ b :: rest)) = value (skipSpaces behind)
      rw [skipSpaces_stop hb, hvalue]
    · rw [List.cons_append]
      split
      · next heq => exact absurd (List.cons.inj heq).1 hcolon
      · split
        · next heq => exact absurd (List.cons.inj heq).1 hcolon
        · rfl

/-- A search splits at the byte. -/
theorem searchField_stop {value : Bytes → Option β} (hkey : IsName key) (hb : Stop b)
    (hvalue : Stops b value) (text rest : Bytes) :
    searchField key value (text ++ b :: rest) =
      (searchField key value text).or (searchField key value rest) := by
  induction text with
  | nil =>
    unfold searchField searchKey
    rw [List.nil_append, firstMatch_cons_none]
    · rfl
    · rw [occursAt_of_ne hb.separates.notQuote]
      rfl
  | cons c text ih =>
    have hfirst : (occursAt key (c :: text ++ b :: rest)).bind (afterColon value) =
        (occursAt key (c :: text)).bind (afterColon value) := by
      rw [occursAt_stop hkey hb]
      cases occursAt key (c :: text) with
      | none => rfl
      | some behind => exact stops_afterColon hb hvalue behind rest
    unfold searchField searchKey at ih ⊢
    cases hmatch : (occursAt key (c :: text)).bind (afterColon value) with
    | some found =>
      rw [List.cons_append, firstMatch_cons_some (hfirst.trans hmatch),
        firstMatch_cons_some hmatch]
      rfl
    | none =>
      rw [List.cons_append, firstMatch_cons_none (hfirst.trans hmatch),
        firstMatch_cons_none hmatch, ih]

/-- A field in front of the byte goes on behind it. -/
theorem fieldMatch_stop (hkey : IsName key) (hb : Stop b) (text rest : Bytes) :
    fieldMatch key some (text ++ b :: rest) = (fieldMatch key some text).map (· ++ b :: rest) := by
  unfold fieldMatch
  rw [occursAt_stop hkey hb]
  cases occursAt key text with
  | none => rfl
  | some behind =>
    show afterColon some (behind ++ b :: rest) = (afterColon some behind).map (· ++ b :: rest)
    unfold afterColon
    rw [skipSpaces_stop hb]
    cases skipSpaces behind with
    | nil =>
      rw [List.nil_append]
      split
      · next heq => exact absurd (List.cons.inj heq).1 hb.separates.notColon
      · rfl
    | cons c value =>
      by_cases hcolon : c = 58
      · subst hcolon
        show some (skipSpaces (value ++ b :: rest)) = some (skipSpaces value ++ b :: rest)
        rw [skipSpaces_stop hb]
      · rw [List.cons_append]
        split
        · next heq => exact absurd (List.cons.inj heq).1 hcolon
        · split
          · next heq => exact absurd (List.cons.inj heq).1 hcolon
          · rfl

/-- No field starts in front of the byte, whatever stands behind it. -/
theorem fieldMatch_front {value : Bytes → Option Bytes} (hkey : IsName key) (hb : Stop b)
    {front : Bytes} (h : Fieldless key (front ++ [b])) {before start : Bytes}
    (hsplit : front ++ [b] = before ++ start) (hne : start ≠ []) (rest : Bytes) :
    fieldMatch key value (start ++ rest) = none := by
  obtain ⟨inner, last, rfl⟩ := (List.eq_nil_or_concat start).resolve_left hne
  rw [List.concat_eq_append] at hsplit ⊢
  have hlast : last = b := by
    have hends := congrArg List.getLast? hsplit
    rw [← List.append_assoc, List.getLast?_concat, List.getLast?_concat] at hends
    exact (Option.some.inj hends).symm
  have hnone := h before (inner ++ [last]) hsplit
  rw [hlast, fieldMatch_stop hkey hb, Option.map_eq_none_iff] at hnone
  rw [hlast, List.append_assoc]
  refine fieldMatch_none ?_
  show fieldMatch key some (inner ++ b :: rest) = none
  rw [fieldMatch_stop hkey hb, hnone]
  rfl

/-- The key is nowhere quoted in the text. -/
def Unquoted (key text : Bytes) : Prop := ¬34 :: (key ++ [34]) <:+: text

/-- A search for the key passes over the text, whatever it looks for behind it. -/
def PassedOver (key text : Bytes) : Prop :=
  ∀ (value : Bytes → Option Bytes) (b : UInt8), Stop b → ∀ rest,
    searchField key value (text ++ b :: rest) = searchField key value rest

theorem passedOver_nil (key : Bytes) : PassedOver key [] := by
  intro value b hb rest
  unfold searchField searchKey
  rw [List.nil_append, firstMatch_cons_none]
  rw [occursAt_of_ne hb.separates.notQuote]
  rfl

theorem passedOver_unquoted (hkey : IsName key) {text : Bytes} (h : Unquoted key text) :
    PassedOver key text := by
  intro value b hb rest
  induction text with
  | nil => exact passedOver_nil key value b hb rest
  | cons c text ih =>
    have htext : Unquoted key text := fun hinside =>
      h (hinside.trans (List.suffix_cons c text).isInfix)
    have hstart : occursAt key (c :: text) = none := by
      unfold occursAt
      exact if_neg fun hstart => h (List.isPrefixOf_iff_prefix.mp hstart).isInfix
    have hnone := occursAt_stop hkey hb (c :: text) rest
    rw [hstart] at hnone
    have hrest := ih htext
    unfold searchField searchKey at hrest ⊢
    rw [List.cons_append] at hnone ⊢
    rw [firstMatch_cons_none, hrest]
    rw [hnone]
    rfl

/-- Pieces without the key in front of a text that is passed over. -/
theorem passedOver_pieces (hkey : IsName key) {pieces : List Piece} (h : behind key pieces = none)
    {text : Bytes} (htext : PassedOver key text) : PassedOver key (piecesText pieces ++ text) := by
  intro value b hb rest
  rw [List.append_assoc, searchField_past hkey value h]
  exact htext value b hb rest

/-- Behind a text that is passed over there is a field or none. -/
theorem fieldless_passed {front rest : Bytes} (hfront : PassedOver key front) (hb : Stop b)
    (hrest : searchField key some rest = none) : Fieldless key (front ++ b :: rest) :=
  fieldless_of_search ((hfront some b hb rest).trans hrest)

end Searches

section Removal

variable {key : Bytes} {value : Bytes → Option Bytes}

/-- The only field of its name is taken out behind a text that is passed over. -/
theorem removeField_passed {front target rest : Bytes} (hkey : IsName key)
    (hfront : PassedOver key front) (hb : Stop b) (htarget : skipSpaces target = target)
    (hnone : ∀ other : Bytes → Option Bytes, searchField key other target = none)
    (hvalue : value target = some (b :: rest)) (htaken : ∃ taken, target = taken ++ b :: rest)
    (hrest : searchField key some rest = none) :
    removeField value (front ++ 44 :: jsonField key target) key = front ++ b :: rest := by
  refine removeField_once htarget hvalue htaken ?_ (fieldless_passed hfront hb hrest)
  refine valuesAre_of_search ?_
  have hcolon : afterColon (fun found => if found = target then none else some found)
      (58 :: target) = none := by
    show (if skipSpaces target = target then none else some (skipSpaces target)) = none
    exact if_pos htarget
  rw [hfront _ 44 stop_comma]
  unfold searchField
  rw [searchKey_sameKey hkey, hcolon]
  exact hnone _

end Removal

end LayerInference.OpenTexts
