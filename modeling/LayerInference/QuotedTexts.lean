import LayerInference.JsonText

/-!
# Keys in quoted texts

A text of quoted literals with plain text between them, and the search for a
quoted key in it. In an escaped literal a quote never stands alone, so a key is
found only where a literal is the key or ends with it. A search that also asks
for a colon behind the key finds exactly the literals that are keys, whatever
the other literals contain. Nothing here belongs to one format.
-/

namespace LayerInference.QuotedTexts

open ByteStrings

variable {β : Type}

section Search

/-- The first result over the positions of a text. -/
def firstMatch (p : Bytes → Option β) : Bytes → Option β
  | [] => none
  | b :: rest =>
    match p (b :: rest) with
    | some value => some value
    | none => firstMatch p rest

/-- What stands behind the quoted key, if the text starts with it. -/
def occursAt (key text : Bytes) : Option Bytes :=
  if (34 :: (key ++ [34])).isPrefixOf text then some (text.drop (key.length + 2)) else none

/-- Search for a quoted key with something behind it. -/
def searchKey (key : Bytes) (behind : Bytes → Option β) (text : Bytes) : Option β :=
  firstMatch (fun start => (occursAt key start).bind behind) text

def skipSpaces (text : Bytes) : Bytes := text.dropWhile isSpace

/-- The value behind a colon. -/
def afterColon (value : Bytes → Option β) (text : Bytes) : Option β :=
  match skipSpaces text with
  | 58 :: rest => value (skipSpaces rest)
  | _ => none

/-- The pattern of a field: a quoted key, a colon and a value. -/
def searchField (key : Bytes) (value : Bytes → Option β) (text : Bytes) : Option β :=
  searchKey key (afterColon value) text

theorem firstMatch_cons_none {p : Bytes → Option β} {b : UInt8} {rest : Bytes}
    (h : p (b :: rest) = none) : firstMatch p (b :: rest) = firstMatch p rest := by
  rw [firstMatch, h]

theorem firstMatch_cons_some {p : Bytes → Option β} {b : UInt8} {rest : Bytes} {value : β}
    (h : p (b :: rest) = some value) : firstMatch p (b :: rest) = some value := by
  rw [firstMatch, h]

/-- A search without a result has none at any place. -/
theorem firstMatch_none {p : Bytes → Option β} {text : Bytes}
    (h : firstMatch p text = none) {front start : Bytes} (hsplit : text = front ++ start)
    (hne : start ≠ []) : p start = none := by
  induction text generalizing front with
  | nil => exact absurd (List.append_eq_nil_iff.mp hsplit.symm).2 hne
  | cons b text ih =>
    rw [firstMatch] at h
    cases hp : p (b :: text) with
    | some value =>
      rw [hp] at h
      cases h
    | none =>
      rw [hp] at h
      cases front with
      | nil =>
        rw [List.nil_append] at hsplit
        rw [← hsplit, hp]
      | cons c front => exact ih h (List.cons.inj hsplit).2

/-- Places without a result are passed over. -/
theorem firstMatch_append {p : Bytes → Option β} {front back : Bytes}
    (h : ∀ before start, front = before ++ start → start ≠ [] → p (start ++ back) = none) :
    firstMatch p (front ++ back) = firstMatch p back := by
  induction front with
  | nil => rfl
  | cons b front ih =>
    have hfirst := h [] (b :: front) rfl (List.cons_ne_nil b front)
    rw [List.cons_append] at hfirst ⊢
    rw [firstMatch_cons_none hfirst]
    exact ih fun before start hsplit hne =>
      h (b :: before) start (by rw [hsplit, List.cons_append]) hne

theorem occursAt_of_ne {key rest : Bytes} {b : UInt8} (h : b ≠ 34) :
    occursAt key (b :: rest) = none := by
  have hbeq : ((34 : UInt8) == b) = false := beq_eq_false_iff_ne.mpr h.symm
  unfold occursAt
  rw [List.isPrefixOf, hbeq, Bool.false_and]
  exact if_neg Bool.false_ne_true

/-- Text without quotes is passed over. -/
theorem searchKey_append {key plain : Bytes} (h : 34 ∉ plain) (behind : Bytes → Option β)
    (rest : Bytes) : searchKey key behind (plain ++ rest) = searchKey key behind rest := by
  induction plain with
  | nil => rfl
  | cons b plain ih =>
    have hb : b ≠ 34 := fun heq => h (heq ▸ List.mem_cons_self)
    have hrest := ih fun hmem => h (List.mem_cons_of_mem b hmem)
    unfold searchKey at hrest ⊢
    rw [List.cons_append, firstMatch_cons_none, hrest]
    rw [occursAt_of_ne hb]
    rfl

end Search

section Literals

/-- The inside of a literal: quotes and backslashes only as part of escapes. -/
inductive Escaped : Bytes → Prop where
  | nil : Escaped []
  | plain {b : UInt8} {rest : Bytes} : b ≠ 34 → b ≠ 92 → Escaped rest → Escaped (b :: rest)
  | escape {b : UInt8} {rest : Bytes} : b ≠ 10 → b ≠ 13 → Escaped rest →
      Escaped (92 :: b :: rest)

/-- A quoted literal and the plain text up to the next one. -/
structure Literal where
  content : Bytes
  tail : Bytes

def Literal.text (l : Literal) : Bytes := 34 :: (l.content ++ 34 :: l.tail)

def isNameByte (b : UInt8) : Bool := (97 ≤ b && b ≤ 122) || b == 95

/-- A key of lower-case letters and underscores. -/
structure IsName (key : Bytes) : Prop where
  ne : key ≠ []
  bytes : ∀ b ∈ key, isNameByte b = true

instance (key : Bytes) : Decidable (IsName key) :=
  decidable_of_iff (key ≠ [] ∧ key.all isNameByte = true)
    ⟨fun h => ⟨h.1, List.all_eq_true.mp h.2⟩, fun h => ⟨h.ne, List.all_eq_true.mpr h.bytes⟩⟩

/-- A literal that is a key has a colon right behind it and no escapes; any
other one has some other separator behind it. -/
structure Literal.WellFormed (l : Literal) : Prop where
  escaped : Escaped l.content
  plain : 34 ∉ l.tail
  separated : ∃ b rest, l.tail = b :: rest ∧ isSpace b = false ∧ isNameByte b = false ∧
    (b = 58 → 34 ∉ l.content)

/-- A literal is the key or ends with it behind an escaped quote. -/
def Mentions (key : Bytes) (l : Literal) : Prop := l.content = key ∨ 34 :: key <:+ l.content

theorem isNameByte_ne {b : UInt8} (h : isNameByte b = true) : b ≠ 34 ∧ b ≠ 92 ∧ b ≠ 58 := by
  refine ⟨?_, ?_, ?_⟩
  · rintro rfl
    cases h
  · rintro rfl
    cases h
  · rintro rfl
    cases h

/-- A name with a quote behind it can start escaped text only as a whole. -/
theorem eq_of_prefix_escaped {content : Bytes} (hcontent : Escaped content) {key rest : Bytes}
    (hkey : ∀ b ∈ key, isNameByte b = true) (h : key ++ [34] <+: content ++ 34 :: rest) :
    content = key := by
  induction key generalizing content with
  | nil =>
    cases hcontent with
    | nil => rfl
    | plain hquote _ _ =>
      obtain ⟨more, hmore⟩ := h
      exact absurd (List.cons.inj hmore).1.symm hquote
    | escape _ _ _ =>
      obtain ⟨more, hmore⟩ := h
      exact absurd (List.cons.inj hmore).1 (by decide)
  | cons k key ih =>
    have hk := isNameByte_ne (hkey k List.mem_cons_self)
    obtain ⟨more, hmore⟩ := h
    cases hcontent with
    | nil => exact absurd (List.cons.inj hmore).1 hk.1
    | plain hquote hslash hrest =>
      obtain ⟨hhead, htail⟩ := List.cons.inj hmore
      have hsame := ih hrest (fun b hb => hkey b (List.mem_cons_of_mem k hb)) ⟨more, htail⟩
      rw [hsame, hhead]
    | escape _ _ _ => exact absurd (List.cons.inj hmore).1 hk.2.1

/-- The closing quote is not the opening quote of the key. -/
theorem occursAt_separator {key : Bytes} (hkey : IsName key) {b : UInt8} {rest : Bytes}
    (hb : isNameByte b = false) : occursAt key (34 :: b :: rest) = none := by
  obtain ⟨k, tail, rfl⟩ := List.exists_cons_of_ne_nil hkey.ne
  have hk := hkey.bytes k List.mem_cons_self
  have hbeq : (k == b) = false := by
    rw [beq_eq_false_iff_ne]
    rintro rfl
    rw [hk] at hb
    cases hb
  unfold occursAt
  rw [List.cons_append, List.isPrefixOf, List.isPrefixOf, hbeq, Bool.false_and, Bool.and_false]
  exact if_neg Bool.false_ne_true

/-- A quote before escaped text opens the key only if the text is the key. -/
theorem occursAt_escaped {key content : Bytes} (hkey : IsName key) (hcontent : Escaped content)
    (rest : Bytes) :
    occursAt key (34 :: (content ++ 34 :: rest)) = if content = key then some rest else none := by
  unfold occursAt
  by_cases hsame : content = key
  · have hstarts : (34 :: (key ++ [34])).isPrefixOf (34 :: (content ++ 34 :: rest)) = true := by
      rw [List.isPrefixOf_iff_prefix, hsame]
      exact ⟨rest, by rw [List.cons_append, List.append_assoc]; rfl⟩
    have hdrop : (34 :: (content ++ 34 :: rest)).drop (key.length + 2) = rest := by
      have hsplit : 34 :: (content ++ 34 :: rest) = (34 :: (key ++ [34])) ++ rest := by
        rw [hsame, List.cons_append, List.append_assoc]
        rfl
      have hlength : (34 :: (key ++ [34])).length = key.length + 2 := by
        rw [List.length_cons, List.length_append]
        rfl
      rw [hsplit, ← hlength, List.drop_left]
    rw [if_pos hstarts, if_pos hsame, hdrop]
  · rw [if_neg hsame]
    refine if_neg fun hstarts => hsame ?_
    rw [List.isPrefixOf_iff_prefix] at hstarts
    exact eq_of_prefix_escaped hcontent hkey.bytes ((List.prefix_cons_inj 34).mp hstarts)

/-- Inside a literal the key is found only behind an escaped quote, at the end. -/
theorem searchKey_inside {key content : Bytes} (hkey : IsName key) (hcontent : Escaped content)
    (behind : Bytes → Option β) {b : UInt8} {rest : Bytes} (hb : isNameByte b = false) :
    searchKey key behind (content ++ 34 :: b :: rest) =
      match (if 34 :: key <:+ content then behind (b :: rest) else none) with
      | some value => some value
      | none => searchKey key behind (b :: rest) := by
  induction hcontent with
  | nil =>
    have hnot : ¬34 :: key <:+ ([] : Bytes) := fun h => by
      have hle := h.length_le
      rw [List.length_cons] at hle
      exact absurd hle (Nat.not_succ_le_zero _)
    rw [if_neg hnot]
    unfold searchKey
    rw [List.nil_append, firstMatch_cons_none]
    rw [occursAt_separator hkey hb]
    rfl
  | @plain c inner hquote hslash hinner ih =>
    have hsuffix : (34 :: key <:+ c :: inner) ↔ 34 :: key <:+ inner := by
      constructor
      · intro h
        rcases List.suffix_cons_iff.mp h with heq | h
        · exact absurd (List.cons.inj heq).1.symm hquote
        · exact h
      · exact fun h => h.trans (List.suffix_cons c inner)
    simp only [hsuffix]
    rw [← ih]
    unfold searchKey
    rw [List.cons_append, firstMatch_cons_none]
    rw [occursAt_of_ne hquote]
    rfl
  | @escape c inner _ _ hinner ih =>
    have hskip : searchKey key behind (92 :: c :: inner ++ 34 :: b :: rest) =
        searchKey key behind (c :: (inner ++ 34 :: b :: rest)) := by
      unfold searchKey
      rw [List.cons_append, firstMatch_cons_none]
      · rfl
      · rw [occursAt_of_ne (by decide)]
        rfl
    have hsuffix : (34 :: key <:+ 92 :: c :: inner) ↔
        34 :: key = c :: inner ∨ 34 :: key <:+ inner := by
      rw [List.suffix_cons_iff, List.suffix_cons_iff]
      constructor
      · rintro (heq | h)
        · exact absurd (List.cons.inj heq).1 (by decide)
        · exact h
      · exact Or.inr
    rw [hskip]
    simp only [hsuffix]
    by_cases hquote : c = 34
    · subst hquote
      have hoccurs := occursAt_escaped hkey hinner (b :: rest)
      by_cases hsame : inner = key
      · have hnot : ¬34 :: key <:+ inner := fun h => by
          have hle := h.length_le
          rw [hsame, List.length_cons] at hle
          exact absurd hle (Nat.not_succ_le_self _)
        rw [if_pos hsame] at hoccurs
        rw [if_neg hnot] at ih
        rw [if_pos (Or.inl (by rw [hsame]))]
        unfold searchKey at ih ⊢
        rw [firstMatch, hoccurs, ih]
        rfl
      · rw [if_neg hsame] at hoccurs
        have hiff : (34 :: key = 34 :: inner ∨ 34 :: key <:+ inner) ↔ 34 :: key <:+ inner := by
          constructor
          · rintro (heq | h)
            · exact absurd (List.cons.inj heq).2.symm hsame
            · exact h
          · exact Or.inr
        simp only [hiff]
        rw [← ih]
        unfold searchKey
        rw [firstMatch_cons_none]
        rw [hoccurs]
        rfl
    · have hiff : (34 :: key = c :: inner ∨ 34 :: key <:+ inner) ↔ 34 :: key <:+ inner := by
        constructor
        · rintro (heq | h)
          · exact absurd (List.cons.inj heq).1.symm hquote
          · exact h
        · exact Or.inr
      simp only [hiff]
      rw [← ih]
      unfold searchKey
      rw [firstMatch_cons_none]
      rw [occursAt_of_ne hquote]
      rfl

/-- The search at one quoted text: the key is found where the text is the key or
ends with it. -/
theorem searchKey_token {key content : Bytes} (hkey : IsName key) (hcontent : Escaped content)
    {b : UInt8} {rest : Bytes} (hb : isNameByte b = false) (hplain : 34 ∉ b :: rest)
    (behind : Bytes → Option β) (after : Bytes) :
    searchKey key behind (34 :: (content ++ 34 :: (b :: rest ++ after))) =
      match (if content = key ∨ 34 :: key <:+ content then behind (b :: rest ++ after)
        else none) with
      | some value => some value
      | none => searchKey key behind after := by
  have hinside : searchKey key behind (content ++ 34 :: b :: (rest ++ after)) =
      match (if 34 :: key <:+ content then behind (b :: (rest ++ after)) else none) with
      | some value => some value
      | none => searchKey key behind (b :: (rest ++ after)) :=
    searchKey_inside hkey hcontent behind hb
  have hskip : searchKey key behind (b :: (rest ++ after)) = searchKey key behind after :=
    searchKey_append hplain behind after
  rw [hskip] at hinside
  have hoccurs := occursAt_escaped hkey hcontent (b :: (rest ++ after))
  by_cases hsame : content = key
  · have hnot : ¬34 :: key <:+ content := fun h => by
      have hle := h.length_le
      rw [hsame, List.length_cons] at hle
      exact absurd hle (Nat.not_succ_le_self _)
    rw [if_pos hsame] at hoccurs
    rw [if_neg hnot] at hinside
    rw [if_pos (Or.inl hsame)]
    unfold searchKey at hinside ⊢
    rw [List.cons_append, firstMatch, hoccurs, hinside]
    rfl
  · have hiff : (content = key ∨ 34 :: key <:+ content) ↔ 34 :: key <:+ content :=
      ⟨fun h => h.resolve_left hsame, Or.inr⟩
    have hopen : searchKey key behind (34 :: (content ++ 34 :: b :: (rest ++ after))) =
        searchKey key behind (content ++ 34 :: b :: (rest ++ after)) := by
      rw [if_neg hsame] at hoccurs
      unfold searchKey
      rw [firstMatch_cons_none]
      rw [hoccurs]
      rfl
    simp only [hiff, List.cons_append]
    rw [hopen, hinside]

/-- The search at one literal: the key is found where the literal mentions it. -/
theorem searchKey_literal {key : Bytes} (hkey : IsName key) {l : Literal} (hl : l.WellFormed)
    (behind : Bytes → Option β) (after : Bytes) [Decidable (Mentions key l)] :
    searchKey key behind (l.text ++ after) =
      match (if Mentions key l then behind (l.tail ++ after) else none) with
      | some value => some value
      | none => searchKey key behind after := by
  obtain ⟨b, rest, htail, -, hb, -⟩ := hl.separated
  have htext : l.text ++ after = 34 :: (l.content ++ 34 :: (b :: rest ++ after)) := by
    unfold Literal.text
    rw [htail, List.cons_append, List.append_assoc]
    rfl
  rw [htext, htail, searchKey_token hkey hl.escaped hb (htail ▸ hl.plain)]
  by_cases hmentions : l.content = key ∨ 34 :: key <:+ l.content
  · rw [if_pos hmentions, if_pos (show Mentions key l from hmentions)]
  · rw [if_neg hmentions, if_neg (show ¬Mentions key l from hmentions)]

end Literals

end LayerInference.QuotedTexts
