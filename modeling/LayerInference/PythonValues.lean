import LayerInference.ByteStrings

/-!
# Python values

The values that JSON texts denote, and byte strings beside them. A dictionary
is the list of its entries in insertion order; that its keys are distinct is
part of being serialisable. Floats are left abstract.
-/

namespace LayerInference.PythonValues

open ByteStrings

variable {φ : Type}

inductive Value (φ : Type) where
  | none
  | bool (b : Bool)
  | int (n : ℤ)
  | float (x : φ)
  | str (text : String)
  | bytes (raw : Bytes)
  | list (items : List (Value φ))
  | dict (entries : List (String × Value φ))

/-- The entries of a dictionary. -/
abbrev Dict (φ : Type) := List (String × Value φ)

namespace Dict

/-- `d.get(key)`, where a missing key gives `None`. -/
def get (d : Dict φ) (key : String) : Value φ := (d.lookup key).getD .none

/-- `d.get(key, default)`. -/
def getD (d : Dict φ) (key : String) (default : Value φ) : Value φ := (d.lookup key).getD default

/-- `d[key] = value`. -/
def set (d : Dict φ) (key : String) (value : Value φ) : Dict φ :=
  if (d.lookup key).isSome then
    d.map fun entry => if entry.1 = key then (key, value) else entry
  else d ++ [(key, value)]

/-- `d.setdefault(key, value)`. -/
def setDefault (d : Dict φ) (key : String) (value : Value φ) : Dict φ :=
  if (d.lookup key).isSome then d else d ++ [(key, value)]

/-- `d.update(other)`. -/
def update (d other : Dict φ) : Dict φ := other.foldl (fun d entry => d.set entry.1 entry.2) d

end Dict

mutual
/-- Values that `json.dumps` accepts: no byte strings, and distinct keys. -/
def Value.IsJson : Value φ → Prop
  | .bytes _ => False
  | .list items => allJson items
  | .dict entries => (entries.map Prod.fst).Nodup ∧ entriesJson entries
  | _ => True

def allJson : List (Value φ) → Prop
  | [] => True
  | item :: items => item.IsJson ∧ allJson items

def entriesJson : List (String × Value φ) → Prop
  | [] => True
  | (_, value) :: entries => value.IsJson ∧ entriesJson entries
end

/-- Numbers are serialisable. -/
theorem allJson_ints (shape : List ℤ) : allJson (shape.map fun n => (.int n : Value φ)) := by
  induction shape with
  | nil => trivial
  | cons n shape ih => exact ⟨trivial, ih⟩

section Same

variable [DecidableEq φ]

mutual
/-- Whether two values are the same, with their entries in the same order. -/
def same : Value φ → Value φ → Bool
  | .none, .none => true
  | .bool b, .bool b' => b == b'
  | .int n, .int n' => n == n'
  | .float x, .float x' => x == x'
  | .str text, .str text' => text == text'
  | .bytes raw, .bytes raw' => raw == raw'
  | .list items, .list items' => sameItems items items'
  | .dict entries, .dict entries' => sameEntries entries entries'
  | _, _ => false

def sameItems : List (Value φ) → List (Value φ) → Bool
  | [], [] => true
  | item :: items, item' :: items' => same item item' && sameItems items items'
  | _, _ => false

def sameEntries : List (String × Value φ) → List (String × Value φ) → Bool
  | [], [] => true
  | (key, value) :: entries, (key', value') :: entries' =>
    key == key' && same value value' && sameEntries entries entries'
  | _, _ => false
end

mutual
theorem eq_of_same (value value' : Value φ) (h : same value value' = true) : value = value' := by
  cases value <;> cases value' <;> simp only [same, Bool.false_eq_true, beq_iff_eq] at h <;>
    first
    | rfl
    | rw [h]
    | rw [eq_of_sameItems _ _ h]
    | rw [eq_of_sameEntries _ _ h]

theorem eq_of_sameItems (items items' : List (Value φ)) (h : sameItems items items' = true) :
    items = items' := by
  cases items with
  | nil =>
    cases items' with
    | nil => rfl
    | cons item' items' => simp only [sameItems, Bool.false_eq_true] at h
  | cons item items =>
    cases items' with
    | nil => simp only [sameItems, Bool.false_eq_true] at h
    | cons item' items' =>
      rw [sameItems, Bool.and_eq_true_iff] at h
      rw [eq_of_same item item' h.1, eq_of_sameItems items items' h.2]

theorem eq_of_sameEntries (entries entries' : List (String × Value φ))
    (h : sameEntries entries entries' = true) : entries = entries' := by
  cases entries with
  | nil =>
    cases entries' with
    | nil => rfl
    | cons entry' entries' => simp only [sameEntries, Bool.false_eq_true] at h
  | cons entry entries =>
    cases entries' with
    | nil => simp only [sameEntries, Bool.false_eq_true] at h
    | cons entry' entries' =>
      obtain ⟨key, value⟩ := entry
      obtain ⟨key', value'⟩ := entry'
      rw [sameEntries, Bool.and_eq_true_iff, Bool.and_eq_true_iff, beq_iff_eq] at h
      rw [h.1.1, eq_of_same value value' h.1.2, eq_of_sameEntries entries entries' h.2]
end

end Same

/-- Python's operations on floats. -/
structure PythonFloats (φ : Type) where
  zero : φ
  one : φ
  /-- The quotient of two integers. -/
  ratio : ℕ → ℕ → φ
  nonzero : φ → Bool
  equalsInt : φ → ℤ → Bool

section Operators

variable (floats : PythonFloats φ)

/-- `bool(value)`. -/
def truthy : Value φ → Bool
  | .none => false
  | .bool b => b
  | .int n => n != 0
  | .float x => floats.nonzero x
  | .str text => text != ""
  | .bytes raw => !raw.isEmpty
  | .list items => !items.isEmpty
  | .dict entries => !entries.isEmpty

/-- `value or default`. -/
def orElse (value default : Value φ) : Value φ := if truthy floats value then value else default

/-- `value == n` for an integer. -/
def equalsInt (value : Value φ) (n : ℤ) : Bool :=
  match value with
  | .int m => m == n
  | .bool b => (if b then 1 else 0) == n
  | .float x => floats.equalsInt x n
  | _ => false

/-- `value == text` for a string. -/
def equalsStr (value : Value φ) (text : String) : Bool :=
  match value with
  | .str text' => text' == text
  | _ => false

end Operators

/-- The exceptions a function raises, with the texts of its own. -/
inductive PyError where
  | typeError (message : String)
  | valueError (message : String)
  /-- An attribute of a value that is no dictionary. -/
  | attributeError
  /-- Raised by a function of a library. -/
  | raised (function : String)

/-- The methods of a dictionary, called on any value. -/
def asDict : Value φ → Except PyError (Dict φ)
  | .dict entries => .ok entries
  | _ => .error .attributeError

/-- A library function that returns nothing has raised. -/
def called {α : Type} (function : String) : Option α → Except PyError α
  | some result => .ok result
  | .none => .error (.raised function)

/-- `text.encode("utf-8")`. -/
def encodeUtf8 (text : String) : Bytes := text.toByteArray.data.toList

/-- `raw.decode("utf-8")`. -/
def decodeUtf8 (raw : Bytes) : Option String := String.fromUTF8? ⟨raw.toArray⟩

theorem decodeUtf8_encodeUtf8 (text : String) : decodeUtf8 (encodeUtf8 text) = some text := by
  have hbytes : (⟨(encodeUtf8 text).toArray⟩ : ByteArray) = text.toByteArray := by
    rw [encodeUtf8, Array.toArray_toList]
  rw [decodeUtf8, hbytes, String.fromUTF8?, dif_pos text.isValidUTF8]
  rfl

end LayerInference.PythonValues
