import LayerInference.ByteStrings

/-!
# Files of records, one a line

A text file holds one record a line; lines that are no record are skipped. A
text that ends with a line break can be continued: its records are followed by
those of what is appended. A store keeps the last records up to a bound.
-/

namespace LayerInference.LineRecords

open ByteStrings

variable {ρ : Type}

/-- The line break. -/
def newline : UInt8 := 10

/-- The pieces between the line breaks. -/
def splitLines : Bytes → List Bytes
  | [] => [[]]
  | b :: rest =>
    if b = newline then [] :: splitLines rest else (splitLines rest).modifyHead (b :: ·)

/-- How a record is written on a line and read from it. -/
structure LineCodec (ρ : Type) where
  stringify : ρ → Bytes
  parseLine : Bytes → Option ρ
  parse_stringify : ∀ r, parseLine (stringify r) = some r
  parse_nil : parseLine [] = none
  newline_not_mem : ∀ r, newline ∉ stringify r

/-- A text that is empty or ends with a line break. -/
def Terminated (text : Bytes) : Prop := text = [] ∨ ∃ start, text = start ++ [newline]

theorem splitLines_newline (rest : Bytes) :
    splitLines (newline :: rest) = [] :: splitLines rest := if_pos rfl

theorem splitLines_other {b : UInt8} (h : b ≠ newline) (rest : Bytes) :
    splitLines (b :: rest) = (splitLines rest).modifyHead (b :: ·) := if_neg h

theorem splitLines_ne_nil (text : Bytes) : splitLines text ≠ [] := by
  induction text with
  | nil => exact List.cons_ne_nil _ _
  | cons b rest ih =>
    by_cases hb : b = newline
    · rw [hb, splitLines_newline]
      exact List.cons_ne_nil _ _
    · rw [splitLines_other hb]
      cases hlines : splitLines rest with
      | nil => exact absurd hlines ih
      | cons line lines => exact List.cons_ne_nil _ _

/-- A line break separates the lines before it from those behind it. -/
theorem splitLines_append (start rest : Bytes) :
    splitLines (start ++ newline :: rest) = splitLines start ++ splitLines rest := by
  induction start with
  | nil => exact splitLines_newline rest
  | cons b start ih =>
    rw [List.cons_append]
    by_cases hb : b = newline
    · rw [hb, splitLines_newline, splitLines_newline, ih, List.cons_append]
    · rw [splitLines_other hb, splitLines_other hb, ih]
      cases hlines : splitLines start with
      | nil => exact absurd hlines (splitLines_ne_nil start)
      | cons line lines => rfl

/-- A text without a line break is one line. -/
theorem splitLines_single {text : Bytes} (h : newline ∉ text) : splitLines text = [text] := by
  induction text with
  | nil => rfl
  | cons b rest ih =>
    have hb : b ≠ newline := fun heq => h (heq ▸ List.mem_cons_self)
    rw [splitLines_other hb, ih fun hrest => h (List.mem_cons_of_mem b hrest)]
    rfl

namespace LineCodec

variable (codec : LineCodec ρ)

/-- The records of a text. -/
def records (text : Bytes) : List ρ := (splitLines text).filterMap codec.parseLine

/-- Records written one a line. -/
def lines (records : List ρ) : Bytes := records.flatMap fun r => codec.stringify r ++ [newline]

theorem records_nil : codec.records [] = [] := by
  rw [records, splitLines, List.filterMap_cons, codec.parse_nil, List.filterMap_nil]

/-- What is appended behind a line break adds its own records. -/
theorem records_append {text : Bytes} (h : Terminated text) (more : Bytes) :
    codec.records (text ++ more) = codec.records text ++ codec.records more := by
  rcases h with rfl | ⟨start, rfl⟩
  · rw [records_nil, List.nil_append, List.nil_append]
  · have hstart : codec.records (start ++ [newline]) = codec.records start := by
      rw [records, splitLines_append, List.filterMap_append]
      change codec.records start ++ codec.records [] = _
      rw [records_nil, List.append_nil]
    rw [hstart, List.append_assoc, List.singleton_append, records, splitLines_append,
      List.filterMap_append]
    rfl

/-- Records are read as they were written. -/
theorem records_lines (rs : List ρ) : codec.records (codec.lines rs) = rs := by
  induction rs with
  | nil => exact codec.records_nil
  | cons r rs ih =>
    have hline : codec.records (codec.stringify r) = [r] := by
      rw [records, splitLines_single (codec.newline_not_mem r), List.filterMap_cons,
        codec.parse_stringify, List.filterMap_nil]
    rw [lines, List.flatMap_cons, List.append_assoc, List.singleton_append, records,
      splitLines_append, List.filterMap_append]
    change codec.records (codec.stringify r) ++ codec.records (codec.lines rs) = _
    rw [hline, ih]
    rfl

theorem lines_ne_nil {rs : List ρ} (h : rs ≠ []) : codec.lines rs ≠ [] := by
  cases rs with
  | nil => exact absurd rfl h
  | cons r rs =>
    rw [lines, List.flatMap_cons]
    simp

theorem terminated_lines (rs : List ρ) : Terminated (codec.lines rs) := by
  induction rs using List.reverseRecOn with
  | nil => exact .inl rfl
  | append_singleton rs r ih =>
    refine .inr ⟨codec.lines rs ++ codec.stringify r, ?_⟩
    rw [lines, List.flatMap_append, List.flatMap_singleton, List.append_assoc]
    rfl

/-- Joining the lines and closing the last one. -/
theorem intercalate_lines {rs : List ρ} (h : rs ≠ []) :
    [newline].intercalate (rs.map codec.stringify) ++ [newline] = codec.lines rs := by
  induction rs with
  | nil => exact absurd rfl h
  | cons r rs ih =>
    cases rs with
    | nil => simp [lines]
    | cons r' rs =>
      have hrest := ih (List.cons_ne_nil r' rs)
      rw [lines, List.flatMap_cons]
      change _ = _ ++ codec.lines (r' :: rs)
      rw [← hrest]
      simp [List.intercalate]

end LineCodec

theorem Terminated.append {text more : Bytes} (htext : Terminated text) (hmore : Terminated more) :
    Terminated (text ++ more) := by
  rcases hmore with rfl | ⟨start, rfl⟩
  · rwa [List.append_nil]
  · exact .inr ⟨text ++ start, by rw [List.append_assoc]⟩

section Bounded

variable {α : Type} {n : ℕ}

/-- The last `n` elements. -/
def lastN (n : ℕ) (xs : List α) : List α := xs.drop (xs.length - n)

theorem lastN_of_le {xs : List α} (h : xs.length ≤ n) : lastN n xs = xs := by
  rw [lastN, Nat.sub_eq_zero_of_le h, List.drop_zero]

theorem lastN_length_le (n : ℕ) (xs : List α) : (lastN n xs).length ≤ n := by
  rw [lastN, List.length_drop]
  omega

theorem lastN_suffix (n : ℕ) (xs : List α) : lastN n xs <:+ xs := List.drop_suffix _ xs

/-- The bound may be applied before and after more is appended. -/
theorem lastN_lastN_append (n : ℕ) (xs ys : List α) :
    lastN n (lastN n xs ++ ys) = lastN n (xs ++ ys) := by
  rw [lastN, lastN, lastN, List.length_append, List.length_append, List.length_drop]
  rw [← List.drop_append_of_le_length (Nat.sub_le xs.length n), List.drop_drop]
  congr 1
  omega

end Bounded

end LayerInference.LineRecords
