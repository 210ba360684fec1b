import LayerInference.JsonPieces

/-!
# Flat JSON objects as request bodies

A request body is an object of members with blanks anywhere between its tokens. A
name or a string is given by its raw contents, as it stands between the quotes.
The search for a field takes the first member whose name is the key, or ends with
it behind an escaped quote, and whose value the pattern fits. String values are
never taken for names, since no colon stands behind them.
-/

namespace LayerInference.RequestBodies

open ByteStrings TextStreams QuotedTexts JsonFields NumberTexts JsonPieces

variable {β : Type}

section Bodies

/-- A value of a flat object. -/
inductive Scalar where
  | string (raw : Bytes)
  | number (literal : NumberLiteral)
  | flag (value : Bool)
  | null

def Scalar.text : Scalar → Bytes
  | .string raw => 34 :: (raw ++ [34])
  | .number literal => literal.text
  | .flag value => boolText value
  | .null => ascii "null"

/-- A member with the blanks around its tokens. -/
structure Member where
  beforeName : Bytes := []
  name : Bytes
  afterName : Bytes := []
  beforeValue : Bytes := []
  value : Scalar
  afterValue : Bytes := []

def Member.text (m : Member) : Bytes :=
  m.beforeName ++ 34 :: (m.name ++ 34 :: (m.afterName ++ 58 :: (m.beforeValue ++
    (m.value.text ++ m.afterValue))))

/-- An object with the blanks before it, before its end and behind it. -/
structure Body where
  before : Bytes := []
  members : List Member
  inner : Bytes := []
  behind : Bytes := []

def Body.text (body : Body) : Bytes :=
  body.before ++ 0x7b :: ([44].intercalate (body.members.map Member.text) ++
    (body.inner ++ 0x7d :: body.behind))

def Blank (text : Bytes) : Prop := ∀ b ∈ text, isSpace b = true

def Scalar.WellFormed : Scalar → Prop
  | .string raw => Escaped raw
  | .number literal => literal.WellFormed
  | .flag _ => True
  | .null => True

structure Member.WellFormed (m : Member) : Prop where
  name : Escaped m.name
  value : m.value.WellFormed
  blanks : Blank m.beforeName ∧ Blank m.afterName ∧ Blank m.beforeValue ∧ Blank m.afterValue

structure Body.WellFormed (body : Body) : Prop where
  members : ∀ m ∈ body.members, m.WellFormed
  blanks : Blank body.before ∧ Blank body.inner ∧ Blank body.behind

/-- A name that a search takes for the key. -/
def Names (key name : Bytes) : Prop := name = key ∨ 34 :: key <:+ name

instance (key name : Bytes) : Decidable (Names key name) := by
  unfold Names
  infer_instance

/-- The value of the first member that a search takes for the field. -/
def fieldOf (key : Bytes) (read : Scalar → Option β) (members : List Member) : Option β :=
  members.findSome? fun m => if Names key m.name then read m.value else none

end Bodies

section Patterns

/-- A byte that may stand behind a value. -/
def Follows (b : UInt8) : Prop := isSpace b = true ∨ b = 44 ∨ b = 0x7d

/-- A pattern that sees nothing behind the value. -/
def Reads (pattern : Bytes → Option β) (read : Scalar → Option β) : Prop :=
  ∀ (value : Scalar) (b : UInt8) (rest : Bytes), value.WellFormed → Follows b →
    pattern (value.text ++ b :: rest) = read value

theorem isSpace_cases {b : UInt8} (h : isSpace b = true) :
    b = 32 ∨ b = 9 ∨ b = 10 ∨ b = 11 ∨ b = 12 ∨ b = 13 := by
  have hall : ∀ n < 256, isSpace (UInt8.ofNat n) = true →
      UInt8.ofNat n = 32 ∨ UInt8.ofNat n = 9 ∨ UInt8.ofNat n = 10 ∨ UInt8.ofNat n = 11 ∨
        UInt8.ofNat n = 12 ∨ UInt8.ofNat n = 13 := by decide +kernel
  have hb := hall b.toNat b.toNat_lt
  rw [UInt8.ofNat_toNat] at hb
  exact hb h

theorem Follows.ends {b : UInt8} (h : Follows b) : Ends b := by
  rcases h with h | rfl | rfl
  · rcases isSpace_cases h with rfl | rfl | rfl | rfl | rfl | rfl <;>
      exact ⟨rfl, by decide, by decide⟩
  · exact ends_comma
  · exact ends_brace

/-- The integer part of a number. -/
def readInteger : Scalar → Option ℤ
  | .number literal => some literal.integer
  | _ => none

def readNumber : Scalar → Option ℚ
  | .number literal => some literal.value
  | _ => none

def readRaw : Scalar → Option Bytes
  | .string raw => some raw
  | _ => none

def readFlag : Scalar → Option Bool
  | .flag value => some value
  | _ => none

/-- The first byte of a number. -/
theorem number_head {l : NumberLiteral} (hl : l.WellFormed) (rest : Bytes) :
    ∃ c tail, l.text ++ rest = c :: tail ∧ (c = 45 ∨ isDigit c = true) := by
  obtain ⟨d, more, hcons⟩ := List.exists_cons_of_ne_nil hl.ne
  have hd := hl.whole d (hcons ▸ List.mem_cons_self)
  unfold NumberLiteral.text
  cases l.negative with
  | true => exact ⟨45, _, rfl, Or.inl rfl⟩
  | false =>
    rw [hcons]
    exact ⟨d, _, rfl, Or.inr hd⟩

theorem reads_integer : Reads scanInteger readInteger := by
  intro value b rest hvalue hb
  cases value with
  | string raw => rfl
  | number literal => exact scanInteger_text hvalue hb.ends rest
  | flag value => cases value <;> rfl
  | null => rfl

theorem reads_number : Reads requestNumber readNumber := by
  intro value b rest hvalue hb
  cases value with
  | string raw => rfl
  | number literal => exact scanNumber_text takesFraction_request hvalue hb.ends rest
  | flag value => cases value <;> rfl
  | null => rfl

theorem reads_raw : Reads rawString readRaw := by
  intro value b rest hvalue hb
  cases value with
  | string raw =>
    have htext : (Scalar.string raw).text ++ b :: rest = 34 :: (raw ++ 34 :: (b :: rest)) := by
      rw [Scalar.text, List.cons_append, List.append_assoc]
      rfl
    rw [htext]
    exact rawRest_escaped hvalue _
  | number literal =>
    obtain ⟨c, tail, htext, hc⟩ := number_head hvalue (b :: rest)
    show rawString (literal.text ++ b :: rest) = none
    rw [htext]
    unfold rawString
    split
    · next heq =>
      rw [(List.cons.inj heq).1] at hc
      rcases hc with hc | hc <;> cases hc
    · rfl
  | flag value => cases value <;> rfl
  | null => rfl

theorem reads_flag : Reads boolAt readFlag := by
  intro value b rest hvalue hb
  cases value with
  | string raw => rfl
  | number literal =>
    obtain ⟨c, tail, htext, hc⟩ := number_head hvalue (b :: rest)
    have hne : ∀ d : UInt8, isDigit d = false → d ≠ 45 → (d == c) = false := by
      intro d hd hminus
      rw [beq_eq_false_iff_ne]
      rintro rfl
      rcases hc with rfl | hc
      · exact hminus rfl
      · rw [hd] at hc
        cases hc
    have htrue : (ascii "true").isPrefixOf (c :: tail) = false := by
      show (116 == c && _) = false
      rw [hne 116 rfl (by decide), Bool.false_and]
    have hfalse : (ascii "false").isPrefixOf (c :: tail) = false := by
      show (102 == c && _) = false
      rw [hne 102 rfl (by decide), Bool.false_and]
    show boolAt (literal.text ++ b :: rest) = none
    rw [htext, boolAt, if_neg (by rw [htrue]; exact Bool.false_ne_true),
      if_neg (by rw [hfalse]; exact Bool.false_ne_true)]
  | flag value => cases value <;> rfl
  | null => rfl

end Patterns

section Searches

theorem quote_not_mem_blank {text : Bytes} (h : Blank text) : 34 ∉ text := fun hquote => by
  have hspace := h 34 hquote
  cases hspace

theorem skipSpaces_blank {text : Bytes} (h : Blank text) {c : UInt8} (hc : isSpace c = false)
    (rest : Bytes) : skipSpaces (text ++ c :: rest) = c :: rest := by
  unfold skipSpaces
  rw [List.dropWhile_append_of_pos h]
  exact skipSpaces_cons hc rest

/-- What may stand behind a member: blanks, and then a comma or the end. -/
def EndsMember (after : Bytes) : Prop :=
  ∃ blanks c rest, after = blanks ++ c :: rest ∧ Blank blanks ∧ (c = 44 ∨ c = 0x7d)

theorem EndsMember.follows {after : Bytes} (h : EndsMember after) {blanks : Bytes}
    (hblanks : Blank blanks) : ∃ b rest, blanks ++ after = b :: rest ∧ Follows b := by
  obtain ⟨inner, c, rest, rfl, hinner, hc⟩ := h
  cases blanks with
  | nil =>
    cases inner with
    | nil => exact ⟨c, rest, rfl, Or.inr hc⟩
    | cons b inner => exact ⟨b, inner ++ c :: rest, rfl, Or.inl (hinner b List.mem_cons_self)⟩
  | cons b blanks => exact ⟨b, _, rfl, Or.inl (hblanks b List.mem_cons_self)⟩

/-- The first byte of a value. -/
theorem Scalar.text_head {value : Scalar} (h : value.WellFormed) (rest : Bytes) :
    ∃ c tail, value.text ++ rest = c :: tail ∧ isSpace c = false := by
  cases value with
  | string raw => exact ⟨34, _, rfl, rfl⟩
  | number literal =>
    obtain ⟨c, tail, htext, hc⟩ := number_head h rest
    refine ⟨c, tail, htext, ?_⟩
    rcases hc with rfl | hc
    · rfl
    · exact not_isSpace_of_isDigit hc
  | flag value => cases value <;> exact ⟨_, _, rfl, rfl⟩
  | null => exact ⟨_, _, rfl, rfl⟩

/-- A value is passed over: a string has no colon behind it, and anything else
has no quote. -/
theorem searchField_value {key : Bytes} (hkey : IsName key) (pattern : Bytes → Option β)
    {value : Scalar} (hvalue : value.WellFormed) {blanks : Bytes} (hblanks : Blank blanks)
    {after : Bytes} (hafter : EndsMember after) :
    searchField key pattern (value.text ++ (blanks ++ after)) = searchField key pattern after := by
  have hplain {text : Bytes} (h : 34 ∉ text) :
      searchField key pattern (text ++ (blanks ++ after)) = searchField key pattern after := by
    unfold searchField
    rw [searchKey_append h, searchKey_append (quote_not_mem_blank hblanks)]
  cases value with
  | string raw =>
    obtain ⟨inner, c, rest, rfl, hinner, hc⟩ := hafter
    have hcplain : c ≠ 34 ∧ c ≠ 58 ∧ isSpace c = false ∧ isNameByte c = false := by
      rcases hc with rfl | rfl <;> exact ⟨by decide, by decide, rfl, rfl⟩
    have hall : Blank (blanks ++ inner) := fun b hb =>
      (List.mem_append.mp hb).elim (hblanks b) (hinner b)
    obtain ⟨b, tail, htail, hname⟩ : ∃ b tail, blanks ++ inner ++ [c] = b :: tail ∧
        isNameByte b = false := by
      cases hcons : blanks ++ inner with
      | nil => exact ⟨c, [], rfl, hcplain.2.2.2⟩
      | cons b more =>
        refine ⟨b, more ++ [c], rfl, ?_⟩
        rcases isSpace_cases (hall b (hcons ▸ List.mem_cons_self)) with
          rfl | rfl | rfl | rfl | rfl | rfl <;> rfl
    have hquote : 34 ∉ b :: tail := by
      rw [← htail, List.mem_append, List.mem_singleton, not_or]
      exact ⟨quote_not_mem_blank hall, hcplain.1.symm⟩
    have hsplit : blanks ++ (inner ++ c :: rest) = b :: tail ++ rest := by
      rw [← htail, List.append_assoc, List.append_assoc]
      rfl
    have hnone : afterColon pattern (b :: tail ++ rest) = none := by
      have hskip := skipSpaces_blank hall hcplain.2.2.1 rest
      rw [List.append_assoc, hsplit] at hskip
      unfold afterColon
      rw [hskip]
      split
      · next heq => exact absurd (List.cons.inj heq).1 hcplain.2.1
      · rfl
    have htoken := searchKey_token hkey hvalue hname hquote (afterColon pattern) rest
    rw [hnone, ite_self] at htoken
    have htext : (Scalar.string raw).text ++ (blanks ++ (inner ++ c :: rest)) =
        34 :: (raw ++ 34 :: (b :: tail ++ rest)) := by
      rw [hsplit, Scalar.text, List.cons_append, List.append_assoc]
      rfl
    have hrest : searchKey key (afterColon pattern) (inner ++ c :: rest) =
        searchKey key (afterColon pattern) rest := by
      have hfront : 34 ∉ inner ++ [c] := by
        rw [List.mem_append, List.mem_singleton, not_or]
        exact ⟨quote_not_mem_blank hinner, hcplain.1.symm⟩
      have happend := @searchKey_append _ key _ hfront (afterColon pattern) rest
      rwa [List.append_assoc] at happend
    unfold searchField
    rw [htext, hrest]
    exact htoken
  | number literal => exact hplain (quote_not_mem_literal hvalue)
  | flag value => exact hplain (by cases value <;> decide)
  | null => exact hplain (by decide)

/-- A member is the field, or it is passed over. -/
theorem searchField_member {key : Bytes} (hkey : IsName key) {pattern : Bytes → Option β}
    {read : Scalar → Option β} (hreads : Reads pattern read) {m : Member} (hm : m.WellFormed)
    {after : Bytes} (hafter : EndsMember after) :
    searchField key pattern (m.text ++ after) =
      match (if Names key m.name then read m.value else none) with
      | some found => some found
      | none => searchField key pattern after := by
  obtain ⟨hbefore, hname, hvalue, hbehind⟩ := hm.blanks
  generalize hsuffix : m.value.text ++ (m.afterValue ++ after) = suffix
  obtain ⟨b, tail, htail, hnameByte⟩ : ∃ b tail, m.afterName ++ 58 :: m.beforeValue = b :: tail ∧
      isNameByte b = false := by
    cases hcons : m.afterName with
    | nil => exact ⟨58, m.beforeValue, rfl, rfl⟩
    | cons b more =>
      refine ⟨b, more ++ 58 :: m.beforeValue, rfl, ?_⟩
      rcases isSpace_cases (hname b (hcons ▸ List.mem_cons_self)) with
        rfl | rfl | rfl | rfl | rfl | rfl <;> rfl
  have hquote : 34 ∉ b :: tail := by
    rw [← htail, List.mem_append, List.mem_cons, not_or, not_or]
    exact ⟨quote_not_mem_blank hname, by decide, quote_not_mem_blank hvalue⟩
  have htext : m.text ++ after = m.beforeName ++ (34 :: (m.name ++ 34 :: (b :: tail ++ suffix))) := by
    rw [← htail, ← hsuffix, Member.text]
    simp only [List.append_assoc, List.cons_append]
  have hfound : afterColon pattern (b :: tail ++ suffix) = read m.value := by
    obtain ⟨d, rest, hfollow, hd⟩ := hafter.follows hbehind
    obtain ⟨c, more, hhead, hc⟩ := Scalar.text_head hm.value (d :: rest)
    have hread := hreads m.value d rest hm.value hd
    have hcolon := skipSpaces_blank hname (c := 58) rfl (m.beforeValue ++ suffix)
    have hskip := skipSpaces_blank hvalue hc more
    rw [← hhead, ← hfollow, hsuffix] at hskip
    rw [← hfollow, hsuffix] at hread
    unfold afterColon
    rw [← htail, List.append_assoc, List.cons_append, hcolon]
    exact (congrArg pattern hskip).trans hread
  have htoken := searchKey_token hkey hm.name hnameByte hquote (afterColon pattern) suffix
  have hskip : searchKey key (afterColon pattern) suffix = searchField key pattern after :=
    hsuffix ▸ searchField_value hkey pattern hm.value hbehind hafter
  rw [hfound, hskip] at htoken
  rw [htext]
  unfold searchField
  rw [searchKey_append (quote_not_mem_blank hbefore), htoken]
  unfold Names
  by_cases hnames : m.name = key ∨ 34 :: key <:+ m.name
  · rw [if_pos hnames]
    rfl
  · rw [if_neg hnames]
    rfl

/-- The search in a body takes the first member that fits. -/
theorem searchField_body {key : Bytes} (hkey : IsName key) {pattern : Bytes → Option β}
    {read : Scalar → Option β} (hreads : Reads pattern read) {body : Body}
    (hbody : body.WellFormed) :
    searchField key pattern body.text = fieldOf key read body.members := by
  obtain ⟨hbefore, hinner, hbehind⟩ := hbody.blanks
  have hclose : EndsMember (body.inner ++ 0x7d :: body.behind) :=
    ⟨body.inner, 0x7d, body.behind, rfl, hinner, Or.inr rfl⟩
  have hend : searchField key pattern (body.inner ++ 0x7d :: body.behind) = none := by
    have hplain : 34 ∉ body.inner ++ 0x7d :: body.behind := by
      rw [List.mem_append, List.mem_cons, not_or, not_or]
      exact ⟨quote_not_mem_blank hinner, by decide, quote_not_mem_blank hbehind⟩
    have happend := @searchKey_append _ key _ hplain (afterColon pattern) []
    rw [List.append_nil] at happend
    exact happend
  have hmembers : ∀ members : List Member, (∀ m ∈ members, m.WellFormed) →
      searchField key pattern ([44].intercalate (members.map Member.text) ++
        (body.inner ++ 0x7d :: body.behind)) = fieldOf key read members := by
    intro members
    induction members with
    | nil => exact fun _ => hend
    | cons m members ih =>
      intro hall
      have hm := hall m List.mem_cons_self
      have hrest := ih fun other hother => hall other (List.mem_cons_of_mem m hother)
      have hfield : fieldOf key read (m :: members) =
          match (if Names key m.name then read m.value else none) with
          | some found => some found
          | none => fieldOf key read members := by
        unfold fieldOf
        rw [List.findSome?_cons]
        rfl
      cases members with
      | nil =>
        rw [List.map_singleton, List.intercalate_singleton, hfield,
          searchField_member hkey hreads hm hclose, hend]
        rfl
      | cons next members =>
        have hcomma : EndsMember (44 :: ([44].intercalate ((next :: members).map Member.text) ++
            (body.inner ++ 0x7d :: body.behind))) :=
          ⟨[], 44, _, rfl, fun b hb => absurd hb List.not_mem_nil, Or.inl rfl⟩
        have hskip : searchField key pattern (44 ::
            ([44].intercalate ((next :: members).map Member.text) ++
              (body.inner ++ 0x7d :: body.behind))) = fieldOf key read (next :: members) := by
          rw [← hrest]
          exact @searchKey_append _ key [44] (by decide) _ _
        rw [List.map_cons, List.map_cons, List.intercalate_cons_cons, List.append_assoc,
          List.append_assoc, hfield]
        rw [List.map_cons] at hcomma hskip
        exact (searchField_member hkey hreads hm hcomma).trans (by rw [hskip])
  have hopen : 34 ∉ body.before ++ [0x7b] := by
    rw [List.mem_append, List.mem_singleton, not_or]
    exact ⟨quote_not_mem_blank hbefore, by decide⟩
  have happend := @searchKey_append _ key _ hopen (afterColon pattern)
    ([44].intercalate (body.members.map Member.text) ++ (body.inner ++ 0x7d :: body.behind))
  rw [List.append_assoc] at happend
  exact happend.trans (hmembers body.members hbody.members)

end Searches

end LayerInference.RequestBodies
