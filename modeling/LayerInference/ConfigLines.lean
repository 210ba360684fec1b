import LayerInference.TextStreams

/-!
# Lines of a configuration file

Gateway and stage read a stage map line by line with the same small functions: a
line is trimmed, recognised by the key it starts with, and its value is what
follows the first colon, without quotes and with `null` as nothing. The indent
counts the blanks in front. Written keys and plain values are read back.
-/

namespace LayerInference.ConfigLines

open ByteStrings TextStreams

section Functions

/-- A blank or a tab. -/
def isBlank (b : UInt8) : Bool := b == 32 || b == 9

/-- Remove blanks at both ends, and carriage returns at the end. -/
def trimCopy (value : Bytes) : Bytes :=
  (value.dropWhile isBlank).rdropWhile fun b => isBlank b || b == 13

def startsWith (value start : Bytes) : Bool := start.isPrefixOf value

/-- The text between two quotes. -/
def unquote (quote : UInt8) (value : Bytes) : Bytes :=
  if 2 ≤ value.length ∧ value.head? = some quote ∧ value.getLast? = some quote then
    (value.drop 1).dropLast
  else value

def valueAfterColon (line : Bytes) : Bytes :=
  if 58 ∉ line then []
  else
    let value := trimCopy ((line.dropWhile (· != 58)).drop 1)
    if value = ascii "null" then [] else unquote 39 (unquote 34 value)

def indentWidth (line : Bytes) : ℕ := (line.takeWhile (· == 32)).length

def parseBoolValue (value : Bytes) : Bool :=
  value == ascii "true" || value == ascii "True" || value == ascii "yes" || value == ascii "1"

def isStageListItem (trimmed : Bytes) : Bool := startsWith trimmed (ascii "- stage_id:")

/-- `std::stoi`, which throws what it does not read. -/
def stoiOrThrow (text : Bytes) : Except Bytes ℤ :=
  match stoi text with
  | some value => .ok value
  | none => .error (ascii "stoi")

def parseStageIdFromListItem (trimmed : Bytes) : Except Bytes ℤ :=
  let value := valueAfterColon trimmed
  if value.isEmpty then .error (ascii "stage list item missing stage_id value")
  else stoiOrThrow value

end Functions

section Written

/-- Bytes that are neither blank nor a line break nor a quote. -/
def Plain (text : Bytes) : Prop := ∀ b ∈ text, 32 < b ∧ b ≠ 34 ∧ b ≠ 39

/-- A value as the readers return it. -/
def readBack (value : Bytes) : Bytes := if value = ascii "null" then [] else value

/-- A line with a key and a value; a value that is empty leaves no blank. -/
def keyed (key value : Bytes) : Bytes := key ++ 58 :: (if value = [] then [] else 32 :: value)

theorem plain_nil : Plain [] := fun _ hb => nomatch hb

theorem plain_append {text rest : Bytes} (htext : Plain text) (hrest : Plain rest) :
    Plain (text ++ rest) := by
  intro b hb
  rcases List.mem_append.mp hb with h | h
  · exact htext b h
  · exact hrest b h

theorem plain_of_all {text : Bytes}
    (h : (text.all fun b => decide (32 < b) && b != 34 && b != 39) = true) : Plain text := by
  intro b hb
  have hb' := List.all_eq_true.mp h b hb
  simpa [and_assoc] using hb'

theorem plain_decimalNat (n : ℕ) : Plain (decimalNat n) := by
  intro b hb
  have hdigit := decimalNat_digits n b hb
  unfold isDigit at hdigit
  rw [Bool.and_eq_true, decide_eq_true_eq, decide_eq_true_eq] at hdigit
  refine ⟨UInt8.lt_of_lt_of_le (by decide : (32 : UInt8) < 48) hdigit.1, ?_, ?_⟩
  · rintro rfl
    exact absurd hdigit.1 (by decide)
  · rintro rfl
    exact absurd hdigit.1 (by decide)

theorem not_isBlank_of_lt {b : UInt8} (h : 32 < b) : isBlank b = false := by
  unfold isBlank
  rw [Bool.or_eq_false_iff, beq_eq_false_iff_ne, beq_eq_false_iff_ne]
  constructor
  · rintro rfl
    exact absurd h (by decide)
  · rintro rfl
    exact absurd h (by decide)

theorem not_return_of_lt {b : UInt8} (h : 32 < b) : (b == 13) = false := by
  rw [beq_eq_false_iff_ne]
  rintro rfl
  exact absurd h (by decide)

/-- Text whose first and last bytes are visible is not trimmed. -/
theorem trimCopy_of_ends {text : Bytes} (hfirst : ∀ b ∈ text.head?, 32 < b)
    (hlast : ∀ b ∈ text.getLast?, 32 < b) : trimCopy text = text := by
  have hleft : text.dropWhile isBlank = text := by
    cases text with
    | nil => rfl
    | cons b text =>
      rw [List.dropWhile_cons_of_neg]
      rw [not_isBlank_of_lt (hfirst b rfl)]
      exact Bool.false_ne_true
  rw [trimCopy, hleft, List.rdropWhile_eq_self_iff]
  intro hne hblank
  have hlt := hlast _ (List.getLast?_eq_some_getLast hne)
  rw [not_isBlank_of_lt hlt, not_return_of_lt hlt] at hblank
  cases hblank

/-- Blanks in front are trimmed. -/
theorem trimCopy_replicate (indent : ℕ) (text : Bytes) :
    trimCopy (List.replicate indent 32 ++ text) = trimCopy text := by
  rw [trimCopy, trimCopy]
  congr 1
  induction indent with
  | zero => rfl
  | succ indent ih =>
    rw [List.replicate_succ, List.cons_append, List.dropWhile_cons_of_pos rfl, ih]

/-- A blank at the end is trimmed. -/
theorem trimCopy_concat (text : Bytes) (hfirst : ∀ b ∈ text.head?, 32 < b) :
    trimCopy (text ++ [32]) = trimCopy text := by
  have hleft : (text ++ [32]).dropWhile isBlank =
      if text = [] then [] else text.dropWhile isBlank ++ [32] := by
    cases text with
    | nil => rfl
    | cons b text =>
      have hb : ¬isBlank b = true := by
        rw [not_isBlank_of_lt (hfirst b rfl)]
        exact Bool.false_ne_true
      rw [List.cons_append, List.dropWhile_cons_of_neg hb, List.dropWhile_cons_of_neg hb,
        if_neg (List.cons_ne_nil _ _), List.cons_append]
  rw [trimCopy, trimCopy, hleft]
  split
  · next hnil => rw [hnil]; rfl
  · rw [List.rdropWhile_concat_pos _ _ _ rfl]

theorem trimCopy_plain {text : Bytes} (h : Plain text) : trimCopy text = text :=
  trimCopy_of_ends (fun b hb => (h b (List.mem_of_mem_head? hb)).1)
    fun b hb => (h b (List.mem_of_getLast? hb)).1

/-- A written key with its value, behind its indent. -/
theorem trimCopy_keyed (indent : ℕ) {key value : Bytes} (hkey : ∀ b ∈ key.head?, 32 < b)
    (hne : key ≠ []) (hvalue : Plain value) :
    trimCopy (List.replicate indent 32 ++ (key ++ ascii ": " ++ value)) = keyed key value := by
  rw [trimCopy_replicate]
  obtain ⟨first, rest, rfl⟩ := List.exists_cons_of_ne_nil hne
  have hfirst : 32 < first := hkey first rfl
  by_cases hnil : value = []
  · subst hnil
    rw [List.append_nil, keyed, if_pos rfl]
    change trimCopy (first :: rest ++ [58, 32]) = _
    have hsplit : first :: rest ++ [58, 32] = (first :: rest ++ [58]) ++ [32] := by
      rw [List.append_assoc]
      rfl
    rw [hsplit, trimCopy_concat _ (by rintro b ⟨⟩; exact hfirst)]
    refine trimCopy_of_ends (by rintro b ⟨⟩; exact hfirst) fun b hb => ?_
    rw [List.getLast?_concat] at hb
    cases hb
    decide
  · rw [keyed, if_neg hnil]
    have hsplit : first :: rest ++ ascii ": " ++ value = first :: rest ++ 58 :: 32 :: value := by
      rw [List.append_assoc]
      rfl
    rw [hsplit]
    refine trimCopy_of_ends (by rintro b ⟨⟩; exact hfirst) fun b hb => ?_
    have hlast : (first :: rest ++ 58 :: 32 :: value).getLast? = value.getLast? := by
      rw [show first :: rest ++ 58 :: 32 :: value = (first :: rest ++ [58, 32]) ++ value by
        rw [List.append_assoc]; rfl, List.getLast?_append_of_ne_nil _ hnil]
    rw [hlast] at hb
    exact (hvalue b (List.mem_of_getLast? hb)).1

theorem unquote_plain {quote : UInt8} {value : Bytes} (h : ∀ b ∈ value, b ≠ quote) :
    unquote quote value = value := by
  refine if_neg fun hquoted => ?_
  exact h quote (List.mem_of_mem_head? hquoted.2.1) rfl

/-- A written value is read back. -/
theorem valueAfterColon_keyed {key value : Bytes} (hkey : 58 ∉ key) (hvalue : Plain value) :
    valueAfterColon (keyed key value) = readBack value := by
  have hcolon : 58 ∈ keyed key value := List.mem_append_right _ List.mem_cons_self
  have hskip (rest : Bytes) : ((key ++ 58 :: rest).dropWhile (· != 58)).drop 1 = rest := by
    induction key with
    | nil => rfl
    | cons b key ih =>
      have hb : (b != 58) = true := bne_iff_ne.mpr fun heq => hkey (heq ▸ List.mem_cons_self)
      rw [List.cons_append, List.dropWhile_cons_of_pos (p := (· != 58)) hb]
      exact ih (fun hmem => hkey (List.mem_cons_of_mem b hmem))
        (List.mem_append_right _ List.mem_cons_self)
  have htrim : trimCopy (if value = [] then [] else 32 :: value) = value := by
    split
    · next hnil => rw [hnil]; rfl
    · have hblank : trimCopy (32 :: value) = trimCopy value := trimCopy_replicate 1 value
      rw [hblank, trimCopy_plain hvalue]
  rw [valueAfterColon, if_neg (not_not.mpr hcolon), keyed, hskip, htrim, readBack]
  dsimp only
  split
  · rfl
  · rw [unquote_plain fun b hb => (hvalue b hb).2.1, unquote_plain fun b hb => (hvalue b hb).2.2]

theorem indentWidth_replicate (indent : ℕ) {text : Bytes} (h : ∀ b ∈ text.head?, b ≠ 32) :
    indentWidth (List.replicate indent 32 ++ text) = indent := by
  induction indent with
  | zero =>
    cases text with
    | nil => rfl
    | cons b text =>
      have hb : ¬(b == 32) = true := by simpa using h b rfl
      rw [indentWidth, List.replicate_zero, List.nil_append,
        List.takeWhile_cons_of_neg (p := (· == 32)) hb]
      rfl
  | succ indent ih =>
    rw [indentWidth, List.replicate_succ, List.cons_append, List.takeWhile_cons_of_pos rfl,
      List.length_cons]
    exact congrArg (· + 1) ih

/-- A written decimal number is read back. -/
theorem stoiOrThrow_decimalNat {n : ℕ} (h : n < 2 ^ 31) :
    stoiOrThrow (decimalNat n) = .ok (n : ℤ) := by
  have hread : extractInt (32 :: (decimalNat n ++ [])) = ((n : ℤ), some []) :=
    extractInt_decimalNat h fun b hb => nomatch hb
  rw [List.append_nil] at hread
  have hblank : extractInt (decimalNat n) = extractInt (32 :: decimalNat n) := by
    simp only [extractInt, List.dropWhile_cons_of_pos (show isSpace 32 = true from rfl)]
  rw [stoiOrThrow, stoi, hblank, hread]

end Written

end LayerInference.ConfigLines
