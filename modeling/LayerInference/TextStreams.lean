import LayerInference.ByteStrings
import Mathlib.Data.Nat.Digits.Lemmas
import Mathlib.Tactic.IntervalCases

/-!
# Reading text from byte strings

Lines, words and decimal numbers as a byte stream of the C locale yields them,
and the first position of a pattern. Each reader comes with what it makes of
text that was put together from such parts. Nothing here belongs to one
format.
-/

namespace LayerInference.TextStreams

open ByteStrings

section Patterns

/-- A match lies inside the text. -/
theorem find_le {needle text : Bytes} {position : ℕ} (h : find needle text = some position) :
    position + needle.length ≤ text.length := by
  induction text generalizing position with
  | nil =>
    cases needle with
    | nil =>
      have hzero : position = 0 := (Option.some.inj h).symm
      rw [hzero]
      exact le_refl _
    | cons n needle => cases h
  | cons b text ih =>
    rw [find] at h
    split at h
    · next hstarts =>
      have hzero : position = 0 := (Option.some.inj h).symm
      rw [hzero, Nat.zero_add]
      exact (List.isPrefixOf_iff_prefix.mp hstarts).length_le
    · obtain ⟨before, hbefore, rfl⟩ := Option.map_eq_some_iff.mp h
      have hle := ih hbefore
      rw [List.length_cons]
      omega

theorem find_zero {needle text : Bytes} (h : find needle text = some 0) : needle <+: text := by
  cases text with
  | nil =>
    cases needle with
    | nil => exact List.prefix_refl _
    | cons n needle => cases h
  | cons b text =>
    rw [find] at h
    split at h
    · next hstarts => exact List.isPrefixOf_iff_prefix.mp hstarts
    · obtain ⟨before, -, hzero⟩ := Option.map_eq_some_iff.mp h
      exact absurd hzero (Nat.succ_ne_zero _)

/-- The first match stays the first when the text goes on. -/
theorem find_append_of_some {needle text : Bytes} {position : ℕ} (rest : Bytes)
    (h : find needle text = some position) : find needle (text ++ rest) = some position := by
  induction text generalizing position with
  | nil =>
    cases needle with
    | nil =>
      have hzero : position = 0 := (Option.some.inj h).symm
      rw [hzero]
      cases rest <;> rfl
    | cons n needle => cases h
  | cons b text ih =>
    rw [find] at h
    rw [List.cons_append, find]
    by_cases hstarts : needle.isPrefixOf (b :: text) = true
    · rw [if_pos hstarts] at h
      have hlong : needle.isPrefixOf (b :: (text ++ rest)) = true := by
        rw [List.isPrefixOf_iff_prefix] at hstarts ⊢
        exact hstarts.trans (List.prefix_append (b :: text) rest)
      rw [if_pos hlong]
      exact h
    · rw [if_neg hstarts] at h
      obtain ⟨before, hbefore, hposition⟩ := Option.map_eq_some_iff.mp h
      by_cases hlong : needle.isPrefixOf (b :: (text ++ rest)) = true
      · -- a match that needs bytes of the rest lies behind a match in the text
        have hle := find_le hbefore
        rw [List.isPrefixOf_iff_prefix] at hlong hstarts
        have hshort : needle.length ≤ (b :: text).length := by
          rw [List.length_cons]
          omega
        exact absurd (List.prefix_of_prefix_length_le hlong
          (List.prefix_append (b :: text) rest) hshort) hstarts
      · rw [if_neg hlong, ih hbefore]
        exact congrArg some hposition

/-- A first match that lies in the first part is the first match of this part. -/
theorem find_of_append {needle text rest : Bytes} {position : ℕ}
    (h : find needle (text ++ rest) = some position)
    (hle : position + needle.length ≤ text.length) : find needle text = some position := by
  induction text generalizing position with
  | nil =>
    have hneedle : needle = [] := List.eq_nil_of_length_eq_zero (by
      rw [List.length_nil] at hle
      omega)
    have hposition : position = 0 := by
      rw [List.length_nil] at hle
      omega
    rw [hneedle, hposition]
    rfl
  | cons b text ih =>
    rw [List.cons_append, find] at h
    rw [find]
    rw [List.length_cons] at hle
    by_cases hlong : needle.isPrefixOf (b :: (text ++ rest)) = true
    · have hstarts : needle.isPrefixOf (b :: text) = true := by
        rw [List.isPrefixOf_iff_prefix] at hlong ⊢
        refine List.prefix_of_prefix_length_le hlong (List.prefix_append (b :: text) rest) ?_
        rw [List.length_cons]
        omega
      rw [if_pos hlong] at h
      rw [if_pos hstarts]
      exact h
    · have hstarts : ¬needle.isPrefixOf (b :: text) = true := by
        rw [List.isPrefixOf_iff_prefix] at hlong ⊢
        exact fun hshort => hlong (hshort.trans (List.prefix_append (b :: text) rest))
      rw [if_neg hlong] at h
      obtain ⟨before, hbefore, rfl⟩ := Option.map_eq_some_iff.mp h
      rw [if_neg hstarts, ih hbefore (by omega)]
      rfl

/-- A start of the text holds the first match from its last byte on. -/
theorem find_take {needle text : Bytes} {position : ℕ} (h : find needle text = some position)
    {i : ℕ} (hi : i ≤ text.length) :
    find needle (text.take i) = if i < position + needle.length then none else some position := by
  have hlength : (text.take i).length = i := by
    rw [List.length_take]
    omega
  split
  · next hshort =>
    cases hfind : find needle (text.take i) with
    | none => rfl
    | some other =>
      have hlater := find_append_of_some (text.drop i) hfind
      rw [List.take_append_drop, h] at hlater
      have hle := find_le hfind
      have hsame := Option.some.inj hlater
      omega
  · next hlong =>
    rw [← List.take_append_drop i text] at h
    exact find_of_append h (by omega)

/-- Bytes in front of the first match may be dropped. -/
theorem find_drop {needle text : Bytes} {position k : ℕ} (h : find needle text = some position)
    (hk : k ≤ position) : find needle (text.drop k) = some (position - k) := by
  induction k generalizing text position with
  | zero => exact h
  | succ k ih =>
    cases text with
    | nil =>
      have hle := find_le h
      rw [List.length_nil] at hle
      omega
    | cons b text =>
      rw [find] at h
      split at h
      · have hzero := Option.some.inj h
        omega
      · obtain ⟨before, hbefore, rfl⟩ := Option.map_eq_some_iff.mp h
        have hrest := ih hbefore (by omega)
        rw [List.drop_succ_cons, hrest]
        exact congrArg some (by omega)

/-- A pattern is found exactly in the texts that hold it. -/
theorem find_isSome_iff {needle text : Bytes} :
    (find needle text).isSome = true ↔ needle <:+: text := by
  induction text with
  | nil => cases needle <;> simp [find]
  | cons b text ih =>
    rw [find, List.infix_cons_iff, ← ih, ← List.isPrefixOf_iff_prefix]
    by_cases hstarts : needle.isPrefixOf (b :: text) = true
    · rw [if_pos hstarts]
      exact iff_of_true rfl (.inl hstarts)
    · rw [if_neg hstarts, Option.isSome_map]
      exact (or_iff_right hstarts).symm

theorem find_infix_eq_none {needle text part : Bytes} (h : find needle text = none)
    (hpart : part <:+: text) : find needle part = none := by
  cases hfind : find needle part with
  | none => rfl
  | some position =>
    have hpattern : needle <:+: part := find_isSome_iff.mp (by rw [hfind]; rfl)
    have hsome := find_isSome_iff.mpr (hpattern.trans hpart)
    rw [h] at hsome
    cases hsome

/-- Bytes that do not start the pattern are passed over. -/
theorem find_append_of_not_mem {first : UInt8} {needle text : Bytes} (h : first ∉ text)
    (rest : Bytes) :
    find (first :: needle) (text ++ rest) =
      (find (first :: needle) rest).map (· + text.length) := by
  induction text with
  | nil => exact Option.map_id'.symm
  | cons b text ih =>
    have hne : first ≠ b := fun heq => h (heq ▸ List.mem_cons_self)
    have hnot : (first :: needle).isPrefixOf (b :: (text ++ rest)) = false := by
      rw [List.isPrefixOf, beq_eq_false_iff_ne.mpr hne, Bool.false_and]
    have hrest := ih fun hmem => h (List.mem_cons_of_mem b hmem)
    rw [List.cons_append, find, hnot, hrest, Option.map_map]
    rfl

/-- A text without the first byte of the pattern has no match. -/
theorem find_eq_none_of_not_mem {first : UInt8} {needle text : Bytes} (h : first ∉ text) :
    find (first :: needle) text = none := by
  have hrest : find (first :: needle) (text ++ []) =
      (find (first :: needle) []).map (· + text.length) := find_append_of_not_mem h []
  rw [List.append_nil] at hrest
  rw [hrest]
  rfl

end Patterns

section Numbers

def isDigit (b : UInt8) : Bool := 48 ≤ b && b ≤ 57

/-- The number that digits write. -/
def digitsValue (digits : Bytes) : ℕ :=
  digits.foldl (fun value b => 10 * value + (b.toNat - 48)) 0

/-- A sign, if there is one, and what follows. -/
def takeSign : Bytes → Bytes × Bytes
  | 43 :: rest => ([43], rest)
  | 45 :: rest => ([45], rest)
  | rest => ([], rest)

/-- `std::stoull`: the value and the number of bytes it was read from. A sign
wraps the value; a value above 64 bits is refused. -/
def stoull (text : Bytes) : Option (ℕ × ℕ) :=
  let blanks := text.takeWhile isSpace
  let signed := takeSign (text.dropWhile isSpace)
  let digits := signed.2.takeWhile isDigit
  let value := digitsValue digits
  if digits = [] then none
  else if 2 ^ 64 ≤ value then none
  else
    some (if signed.1 = [45] then (2 ^ 64 - value) % 2 ^ 64 else value,
      blanks.length + signed.1.length + digits.length)

/-- Extraction of an `int` from a stream: the value that is stored, and what
follows if the extraction did not fail. -/
def extractInt (text : Bytes) : ℤ × Option Bytes :=
  let signed := takeSign (text.dropWhile isSpace)
  let digits := signed.2.takeWhile isDigit
  let value : ℤ := if signed.1 = [45] then -(digitsValue digits : ℤ) else digitsValue digits
  if digits = [] then (0, none)
  else if value < -2 ^ 31 then (-2 ^ 31, none)
  else if 2 ^ 31 ≤ value then (2 ^ 31 - 1, none)
  else (value, some (signed.2.dropWhile isDigit))

/-- `std::stoi`, which does not mind what follows the number. -/
def stoi (text : Bytes) : Option ℤ :=
  match extractInt text with
  | (value, some _) => some value
  | (_, none) => none

theorem isDigit_ofNat {d : ℕ} (h : d < 10) : isDigit (UInt8.ofNat (48 + d)) = true := by
  interval_cases d <;> rfl

theorem toNat_ofNat_digit {d : ℕ} (h : d < 10) : (UInt8.ofNat (48 + d)).toNat - 48 = d := by
  interval_cases d <;> rfl

/-- A decimal number is written by digits. -/
theorem decimalNat_digits (n : ℕ) : ∀ b ∈ decimalNat n, isDigit b = true := by
  intro b hb
  unfold decimalNat at hb
  split at hb
  · have heq : b = 48 := List.mem_singleton.mp hb
    rw [heq]
    rfl
  · obtain ⟨d, hd, rfl⟩ := List.mem_map.mp hb
    exact isDigit_ofNat (Nat.digits_lt_base (by decide) (List.mem_reverse.mp hd))

theorem decimalNat_ne_nil (n : ℕ) : decimalNat n ≠ [] := by
  unfold decimalNat
  split
  · exact List.cons_ne_nil _ _
  · next hn =>
    intro hnil
    have hdigits := List.reverse_eq_nil_iff.mp (List.map_eq_nil_iff.mp hnil)
    exact hn (Nat.digits_eq_nil_iff_eq_zero.mp hdigits)

/-- Reading back a decimal number. -/
theorem digitsValue_decimalNat (n : ℕ) : digitsValue (decimalNat n) = n := by
  unfold decimalNat
  split
  · next hn =>
    rw [hn]
    rfl
  · have hfold : ∀ digits : List ℕ, (∀ d ∈ digits, d < 10) →
        digitsValue (digits.reverse.map fun d => UInt8.ofNat (48 + d)) =
          Nat.ofDigits 10 digits := by
      intro digits
      induction digits with
      | nil => exact fun _ => rfl
      | cons d digits ih =>
        intro hall
        have hd : d < 10 := hall d List.mem_cons_self
        have hrest := ih fun e he => hall e (List.mem_cons_of_mem d he)
        unfold digitsValue at hrest ⊢
        rw [List.reverse_cons, List.map_append, List.foldl_append, hrest, Nat.ofDigits_cons,
          List.map_singleton, List.foldl_cons, List.foldl_nil, toNat_ofNat_digit hd]
        exact Nat.add_comm _ _
    rw [hfold _ fun d hd => Nat.digits_lt_base (by decide) hd]
    exact Nat.ofDigits_digits 10 n

/-- The number of digits is bounded by the size of the number. -/
theorem decimalNat_length_le {n k : ℕ} (hk : 0 < k) (h : n < 10 ^ k) :
    (decimalNat n).length ≤ k := by
  unfold decimalNat
  split
  · exact hk
  · rw [List.length_map, List.length_reverse]
    exact (Nat.digits_length_le_iff (by decide) n).mpr h

theorem not_isSpace_of_isDigit {b : UInt8} (h : isDigit b = true) : isSpace b = false := by
  unfold isDigit at h
  unfold isSpace
  rw [Bool.and_eq_true, decide_eq_true_eq, decide_eq_true_eq, UInt8.le_iff_toNat_le,
    UInt8.le_iff_toNat_le] at h
  have hne : b ≠ 32 := by
    rintro rfl
    exact absurd h.1 (by decide)
  have hlow : ¬b ≤ 13 := by
    rw [UInt8.le_iff_toNat_le]
    have h48 : (48 : UInt8).toNat = 48 := rfl
    have h13 : (13 : UInt8).toNat = 13 := rfl
    omega
  rw [beq_eq_false_iff_ne.mpr hne, decide_eq_false hlow, Bool.and_false, Bool.or_false]

theorem takeSign_of_digit {b : UInt8} (h : isDigit b = true) (rest : Bytes) :
    takeSign (b :: rest) = ([], b :: rest) := by
  have hplus : b ≠ 43 := by
    rintro rfl
    cases h
  have hminus : b ≠ 45 := by
    rintro rfl
    cases h
  unfold takeSign
  split
  · next heq =>
    cases heq
    exact absurd rfl hplus
  · next heq =>
    cases heq
    exact absurd rfl hminus
  · rfl

/-- Digits in front of something else are read as a whole. -/
theorem takeWhile_isDigit_append {digits rest : Bytes} (h : ∀ b ∈ digits, isDigit b = true)
    (hrest : ∀ b ∈ rest.head?, isDigit b = false) :
    (digits ++ rest).takeWhile isDigit = digits ∧ (digits ++ rest).dropWhile isDigit = rest := by
  have hstop : rest.takeWhile isDigit = [] ∧ rest.dropWhile isDigit = rest := by
    cases rest with
    | nil => exact ⟨rfl, rfl⟩
    | cons b rest =>
      have hfalse := hrest b rfl
      constructor
      · rw [List.takeWhile_cons_of_neg (by rw [hfalse]; exact Bool.false_ne_true)]
      · rw [List.dropWhile_cons_of_neg (by rw [hfalse]; exact Bool.false_ne_true)]
  rw [List.takeWhile_append_of_pos h, List.dropWhile_append_of_pos h, hstop.1, hstop.2,
    List.append_nil]
  exact ⟨rfl, rfl⟩

/-- `std::stoull` reads a whole decimal number, unless it is too large. -/
theorem stoull_decimalNat_eq (n : ℕ) :
    stoull (decimalNat n) = if 2 ^ 64 ≤ n then none else some (n, (decimalNat n).length) := by
  obtain ⟨first, rest, hcons⟩ := List.exists_cons_of_ne_nil (decimalNat_ne_nil n)
  have hfirst : isDigit first = true :=
    decimalNat_digits n first (hcons ▸ List.mem_cons_self)
  have hspace := not_isSpace_of_isDigit hfirst
  have hblanks : (decimalNat n).takeWhile isSpace = [] := by
    rw [hcons, List.takeWhile_cons_of_neg (by rw [hspace]; exact Bool.false_ne_true)]
  have hskip : (decimalNat n).dropWhile isSpace = decimalNat n := by
    rw [hcons, List.dropWhile_cons_of_neg (by rw [hspace]; exact Bool.false_ne_true)]
  have hsign : takeSign (decimalNat n) = ([], decimalNat n) := by
    rw [hcons]
    exact takeSign_of_digit hfirst rest
  have hdigits : (decimalNat n).takeWhile isDigit = decimalNat n := by
    have hall : (decimalNat n ++ []).takeWhile isDigit = decimalNat n :=
      (takeWhile_isDigit_append (decimalNat_digits n) fun b hb => by cases hb).1
    rw [List.append_nil] at hall
    exact hall
  unfold stoull
  simp only [hblanks, hskip, hsign, hdigits, digitsValue_decimalNat]
  rw [if_neg (decimalNat_ne_nil n), if_neg (List.cons_ne_nil _ _).symm]
  simp only [List.length_nil, Nat.zero_add]

theorem stoull_decimalNat {n : ℕ} (h : n < 2 ^ 64) :
    stoull (decimalNat n) = some (n, (decimalNat n).length) := by
  rw [stoull_decimalNat_eq, if_neg (Nat.not_le.mpr h)]

/-- A stream yields a whole decimal number behind a blank. -/
theorem extractInt_decimalNat {n : ℕ} (h : n < 2 ^ 31) {rest : Bytes}
    (hrest : ∀ b ∈ rest.head?, isDigit b = false) :
    extractInt (32 :: (decimalNat n ++ rest)) = ((n : ℤ), some rest) := by
  obtain ⟨first, tail, hcons⟩ := List.exists_cons_of_ne_nil (decimalNat_ne_nil n)
  have hfirst : isDigit first = true :=
    decimalNat_digits n first (hcons ▸ List.mem_cons_self)
  have hspace := not_isSpace_of_isDigit hfirst
  have hskip : (32 :: (decimalNat n ++ rest)).dropWhile isSpace = decimalNat n ++ rest := by
    rw [List.dropWhile_cons_of_pos rfl, hcons, List.cons_append,
      List.dropWhile_cons_of_neg (by rw [hspace]; exact Bool.false_ne_true)]
  have hsign : takeSign (decimalNat n ++ rest) = ([], decimalNat n ++ rest) := by
    rw [hcons]
    exact takeSign_of_digit hfirst (tail ++ rest)
  obtain ⟨htake, hdrop⟩ := takeWhile_isDigit_append (decimalNat_digits n) hrest
  have hlow : ¬(n : ℤ) < -2 ^ 31 := by omega
  have hhigh : ¬2 ^ 31 ≤ (n : ℤ) := by omega
  unfold extractInt
  simp only [hskip, hsign, htake, hdrop, digitsValue_decimalNat]
  rw [if_neg (decimalNat_ne_nil n), if_neg (List.cons_ne_nil _ _).symm, if_neg hlow,
    if_neg hhigh]

/-- A number as `std::stoi` finds it: white space, a sign, digits, and more. -/
structure IntegerText (text blanks sign digits more : Bytes) : Prop where
  parts : text = blanks ++ (sign ++ (digits ++ more))
  blank : ∀ b ∈ blanks, isSpace b = true
  signed : sign = [] ∨ sign = [43] ∨ sign = [45]
  nonempty : digits ≠ []
  digit : ∀ b ∈ digits, isDigit b = true
  ends : ∀ b ∈ more.head?, isDigit b = false

/-- The number that a sign and digits write. -/
def signedValue (sign digits : Bytes) : ℤ :=
  if sign = [45] then -(digitsValue digits : ℤ) else digitsValue digits

theorem takeSign_split (text : Bytes) : text = (takeSign text).1 ++ (takeSign text).2 ∧
    ((takeSign text).1 = [] ∨ (takeSign text).1 = [43] ∨ (takeSign text).1 = [45]) := by
  unfold takeSign
  split
  · exact ⟨rfl, Or.inr (Or.inl rfl)⟩
  · exact ⟨rfl, Or.inr (Or.inr rfl)⟩
  · exact ⟨rfl, Or.inl rfl⟩

/-- A sign in front of a number is taken off, and nothing else. -/
theorem IntegerText.takeSign_eq {text blanks sign digits more : Bytes}
    (h : IntegerText text blanks sign digits more) :
    takeSign (sign ++ (digits ++ more)) = (sign, digits ++ more) := by
  obtain ⟨first, rest, hcons⟩ := List.exists_cons_of_ne_nil h.nonempty
  cases h.signed with
  | inl hnone =>
    rw [hnone, hcons]
    exact takeSign_of_digit (h.digit first (hcons ▸ List.mem_cons_self)) (rest ++ more)
  | inr hsome =>
    cases hsome with
    | inl hplus => rw [hplus]; rfl
    | inr hminus => rw [hminus]; rfl

theorem IntegerText.dropWhile_isSpace {text blanks sign digits more : Bytes}
    (h : IntegerText text blanks sign digits more) :
    text.dropWhile isSpace = sign ++ (digits ++ more) := by
  obtain ⟨first, rest, hcons⟩ := List.exists_cons_of_ne_nil h.nonempty
  have hfirst := not_isSpace_of_isDigit (h.digit first (hcons ▸ List.mem_cons_self))
  have hstop : (sign ++ (digits ++ more)).dropWhile isSpace = sign ++ (digits ++ more) := by
    cases h.signed with
    | inl hnone =>
      rw [hnone, hcons, List.nil_append, List.cons_append,
        List.dropWhile_cons_of_neg (by rw [hfirst]; exact Bool.false_ne_true)]
    | inr hsome =>
      cases hsome with
      | inl hplus => rw [hplus]; rfl
      | inr hminus => rw [hminus]; rfl
  rw [h.parts, List.dropWhile_append_of_pos h.blank, hstop]

/-- Every text with a digit where `std::stoi` looks for one has these parts. -/
theorem exists_integerText {text : Bytes}
    (h : (takeSign (text.dropWhile isSpace)).2.takeWhile isDigit ≠ []) :
    IntegerText text (text.takeWhile isSpace) (takeSign (text.dropWhile isSpace)).1
      ((takeSign (text.dropWhile isSpace)).2.takeWhile isDigit)
      ((takeSign (text.dropWhile isSpace)).2.dropWhile isDigit) := by
  obtain ⟨hsplit, hsign⟩ := takeSign_split (text.dropWhile isSpace)
  constructor
  · rw [List.takeWhile_append_dropWhile, ← hsplit, List.takeWhile_append_dropWhile]
  · exact fun b hb => List.mem_takeWhile_imp hb
  · exact hsign
  · exact h
  · exact fun b hb => List.mem_takeWhile_imp hb
  · intro b hb
    have hnot := List.head?_dropWhile_not isDigit (takeSign (text.dropWhile isSpace)).2
    rw [Option.mem_def.mp hb] at hnot
    exact hnot

/-- `std::stoi` reads the number, unless it does not fit an `int`. -/
theorem IntegerText.stoi_eq {text blanks sign digits more : Bytes}
    (h : IntegerText text blanks sign digits more) :
    stoi text = if -2 ^ 31 ≤ signedValue sign digits ∧ signedValue sign digits < 2 ^ 31 then
      some (signedValue sign digits) else none := by
  obtain ⟨htake, hdrop⟩ := takeWhile_isDigit_append h.digit h.ends
  have hsigned : (if sign = [45] then -(digitsValue digits : ℤ) else digitsValue digits) =
      signedValue sign digits := rfl
  unfold stoi extractInt
  simp only [h.dropWhile_isSpace, h.takeSign_eq, htake, hdrop, hsigned]
  rw [if_neg h.nonempty]
  by_cases hlow : signedValue sign digits < -2 ^ 31
  · rw [if_pos hlow, if_neg fun hrange => Int.not_lt.mpr hrange.1 hlow]
  · by_cases hhigh : 2 ^ 31 ≤ signedValue sign digits
    · rw [if_neg hlow, if_pos hhigh, if_neg fun hrange => Int.not_lt.mpr hhigh hrange.2]
    · rw [if_neg hlow, if_neg hhigh, if_pos ⟨Int.not_lt.mp hlow, Int.not_le.mp hhigh⟩]

/-- `std::stoi` succeeds on the numbers of an `int`, whatever stands around them. -/
theorem stoi_eq_some_iff {text : Bytes} {value : ℤ} :
    stoi text = some value ↔ ∃ blanks sign digits more,
      IntegerText text blanks sign digits more ∧ signedValue sign digits = value ∧
        -2 ^ 31 ≤ value ∧ value < 2 ^ 31 := by
  constructor
  · intro h
    by_cases hdigits : (takeSign (text.dropWhile isSpace)).2.takeWhile isDigit = []
    · rw [stoi, extractInt, if_pos hdigits] at h
      cases h
    · have hparts := exists_integerText hdigits
      rw [hparts.stoi_eq] at h
      split at h
      · next hrange =>
        have hvalue := Option.some.inj h
        exact ⟨_, _, _, _, hparts, hvalue, hvalue ▸ hrange⟩
      · cases h
  · rintro ⟨blanks, sign, digits, more, hparts, rfl, hrange⟩
    rw [hparts.stoi_eq, if_pos hrange]

end Numbers

section Words

/-- The next word of a stream, empty if there is none, and the rest. -/
def extractWord (text : Bytes) : Bytes × Bytes :=
  let rest := text.dropWhile isSpace
  (rest.takeWhile fun b => !isSpace b, rest.dropWhile fun b => !isSpace b)

def lowerByte (b : UInt8) : UInt8 := if 65 ≤ b ∧ b ≤ 90 then b + 32 else b

def lowerCopy (text : Bytes) : Bytes := text.map lowerByte

/-- Text without white space and control characters. -/
def Visible (text : Bytes) : Prop := ∀ b ∈ text, 32 < b ∧ b ≠ 127

theorem visible_of_all {text : Bytes}
    (h : (text.all fun b => decide (32 < b ∧ b ≠ 127)) = true) : Visible text := fun b hb =>
  of_decide_eq_true (List.all_eq_true.mp h b hb)

theorem not_isSpace_of_all {text : Bytes} (h : (text.all fun b => !isSpace b) = true) :
    ∀ b ∈ text, isSpace b = false := fun b hb => by
  have hnot := List.all_eq_true.mp h b hb
  rwa [Bool.not_eq_true'] at hnot

theorem Visible.not_isSpace {text : Bytes} (h : Visible text) {b : UInt8} (hb : b ∈ text) :
    isSpace b = false := by
  obtain ⟨hlow, -⟩ := h b hb
  unfold isSpace
  rw [UInt8.lt_iff_toNat_lt] at hlow
  have h32 : (32 : UInt8).toNat = 32 := rfl
  have hne : b ≠ 32 := by
    rintro rfl
    exact absurd hlow (Nat.lt_irrefl _)
  have hhigh : ¬b ≤ 13 := by
    rw [UInt8.le_iff_toNat_le]
    have h13 : (13 : UInt8).toNat = 13 := rfl
    omega
  rw [beq_eq_false_iff_ne.mpr hne, decide_eq_false hhigh, Bool.and_false, Bool.or_false]

/-- A word is read up to the blank behind it. -/
theorem extractWord_visible {word rest : Bytes} (h : Visible word)
    (hrest : ∀ b ∈ rest.head?, isSpace b = true) (blanks : Bytes)
    (hblanks : ∀ b ∈ blanks, isSpace b = true) (hne : word ≠ []) :
    extractWord (blanks ++ (word ++ rest)) = (word, rest) := by
  have hword : ∀ b ∈ word, (!isSpace b) = true := by
    intro b hb
    rw [h.not_isSpace hb]
    rfl
  have hskip : (blanks ++ (word ++ rest)).dropWhile isSpace = word ++ rest := by
    rw [List.dropWhile_append_of_pos hblanks]
    obtain ⟨first, tail, rfl⟩ := List.exists_cons_of_ne_nil hne
    have hfirst := h.not_isSpace List.mem_cons_self
    rw [List.cons_append, List.dropWhile_cons_of_neg (by rw [hfirst]; exact Bool.false_ne_true)]
  have hstop : (rest.takeWhile fun b => !isSpace b) = [] ∧
      (rest.dropWhile fun b => !isSpace b) = rest := by
    cases rest with
    | nil => exact ⟨rfl, rfl⟩
    | cons b rest =>
      have hspace : ¬(!isSpace b) = true := by
        rw [hrest b rfl]
        exact Bool.false_ne_true
      exact ⟨List.takeWhile_cons_of_neg hspace, List.dropWhile_cons_of_neg hspace⟩
  unfold extractWord
  simp only [hskip]
  rw [List.takeWhile_append_of_pos hword, List.dropWhile_append_of_pos hword, hstop.1, hstop.2,
    List.append_nil]

/-- White space at the ends, taken away by trimming. -/
theorem trimCopy_split (value : Bytes) : ∃ front back, value = front ++ (trimCopy value ++ back) ∧
    (∀ b ∈ front, isSpace b = true) ∧ ∀ b ∈ back, isSpace b = true := by
  refine ⟨value.takeWhile isSpace, (value.dropWhile isSpace).rtakeWhile isSpace, ?_,
    fun b hb => List.mem_takeWhile_imp hb, fun b hb => List.mem_rtakeWhile_imp hb⟩
  rw [trimCopy, List.rdropWhile_append_rtakeWhile, List.takeWhile_append_dropWhile]

/-- A trimmed text has no white space at its ends. -/
theorem trimCopy_ends (value : Bytes) : (∀ b ∈ (trimCopy value).head?, isSpace b = false) ∧
    ∀ b ∈ (trimCopy value).getLast?, isSpace b = false := by
  constructor
  · intro b hb
    obtain ⟨rest, hrest⟩ : trimCopy value <+: value.dropWhile isSpace := List.rdropWhile_prefix _ _
    cases htrim : trimCopy value with
    | nil =>
      rw [htrim] at hb
      cases hb
    | cons c text =>
      rw [htrim] at hb hrest
      have hhead := List.head?_dropWhile_not isSpace value
      rw [← hrest, List.cons_append, List.head?_cons] at hhead
      rw [← Option.some.inj hb]
      exact hhead
  · intro b hb
    have hne : trimCopy value ≠ [] := by
      intro hnil
      rw [hnil] at hb
      cases hb
    have hlast := List.rdropWhile_last_not isSpace (value.dropWhile isSpace) hne
    rw [List.getLast?_eq_some_getLast hne] at hb
    rw [← Option.some.inj hb]
    exact Bool.not_eq_true _ ▸ hlast

/-- A text without white space at its ends is trimmed already. -/
theorem trimCopy_of_ends {text : Bytes} (hfirst : ∀ b ∈ text.head?, isSpace b = false)
    (hlast : ∀ b ∈ text.getLast?, isSpace b = false) : trimCopy text = text := by
  have hdrop : text.dropWhile isSpace = text := by
    cases text with
    | nil => rfl
    | cons b text =>
      rw [List.dropWhile_cons_of_neg (by rw [hfirst b rfl]; exact Bool.false_ne_true)]
  unfold trimCopy
  rw [hdrop, List.rdropWhile_eq_self_iff]
  intro hne hspace
  rw [hlast _ (List.getLast?_eq_some_getLast hne)] at hspace
  cases hspace

/-- Trimming a blank in front of text that has none at its ends. -/
theorem trimCopy_blank {text : Bytes} (hfirst : ∀ b ∈ text.head?, isSpace b = false)
    (hlast : ∀ b ∈ text.getLast?, isSpace b = false) : trimCopy (32 :: text) = text := by
  have hskip : trimCopy (32 :: text) = trimCopy text := by
    unfold trimCopy
    rw [List.dropWhile_cons_of_pos rfl]
  rw [hskip, trimCopy_of_ends hfirst hlast]

end Words

section Lines

/-- The lines that a stream yields one after the other. -/
def getLines : Bytes → List Bytes
  | [] => []
  | b :: rest =>
    if b = 10 then [] :: getLines rest
    else
      match getLines rest with
      | [] => [[b]]
      | line :: lines => (b :: line) :: lines

/-- A line without the carriage return at its end. -/
def dropCr (line : Bytes) : Bytes := if line.getLast? = some 13 then line.dropLast else line

theorem getLines_newline {line : Bytes} (h : 10 ∉ line) (rest : Bytes) :
    getLines (line ++ 10 :: rest) = line :: getLines rest := by
  induction line with
  | nil => exact if_pos rfl
  | cons b line ih =>
    have hne : b ≠ 10 := fun heq => h (heq ▸ List.mem_cons_self)
    have hrest := ih fun hmem => h (List.mem_cons_of_mem b hmem)
    rw [List.cons_append, getLines, if_neg hne, hrest]

theorem getLines_single {line : Bytes} (h : 10 ∉ line) (hne : line ≠ []) :
    getLines line = [line] := by
  induction line with
  | nil => exact absurd rfl hne
  | cons b line ih =>
    have hb : b ≠ 10 := fun heq => h (heq ▸ List.mem_cons_self)
    cases line with
    | nil =>
      rw [getLines, if_neg hb]
      rfl
    | cons c line =>
      have hrest := ih (fun hmem => h (List.mem_cons_of_mem b hmem)) (List.cons_ne_nil c line)
      rw [getLines, if_neg hb, hrest]

/-- Lines, each with its line break. -/
def unlines (lines : List Bytes) : Bytes := lines.flatMap (· ++ [10])

theorem unlines_append (lines lines' : List Bytes) :
    unlines (lines ++ lines') = unlines lines ++ unlines lines' := List.flatMap_append

/-- Written lines are read back. -/
theorem getLines_unlines {lines : List Bytes} (h : ∀ line ∈ lines, 10 ∉ line) :
    getLines (unlines lines) = lines := by
  induction lines with
  | nil => rfl
  | cons line lines ih =>
    have hline : 10 ∉ line := h line List.mem_cons_self
    have hrest := ih fun line' hmem => h line' (List.mem_cons_of_mem line hmem)
    have hsplit : unlines (line :: lines) = line ++ 10 :: unlines lines := by
      rw [unlines, List.flatMap_cons, List.append_assoc]
      rfl
    rw [hsplit, getLines_newline hline, hrest]

theorem dropCr_concat (line : Bytes) : dropCr (line ++ [13]) = line := by
  unfold dropCr
  rw [List.getLast?_concat, if_pos rfl, List.dropLast_concat]

theorem dropCr_of_not_mem {line : Bytes} (h : 13 ∉ line) : dropCr line = line := by
  unfold dropCr
  rw [if_neg fun hlast => h (List.mem_of_getLast? hlast)]

end Lines

end LayerInference.TextStreams
