import Mathlib.Data.List.Induction
import Mathlib.Data.List.Nodup

/-!
# Folding a list by keys

One pass over a list keeps an accumulator for every key, in the order in which
the keys first appear. The accumulator of a key is what the items of this key
alone give, and a total that is kept beside the pass can be computed from the
accumulators as well.
-/

namespace LayerInference.GroupedFolds

variable {κ α β γ : Type} [DecidableEq κ]

/-- Change the accumulator of a key, behind all others if the key is new. -/
def modifyEntry (key : κ) (start : β) (change : β → β) : List (κ × β) → List (κ × β)
  | [] => [(key, change start)]
  | entry :: rest =>
    if entry.1 = key then (key, change entry.2) :: rest
    else entry :: modifyEntry key start change rest

/-- The accumulator of a key. -/
def groupOf (groups : List (κ × β)) (key : κ) : Option β := groups.lookup key

variable (key : α → κ) (start : α → β) (step : β → α → β)

/-- Take one more item into the accumulator of its key. -/
def insertItem (groups : List (κ × β)) (item : α) : List (κ × β) :=
  modifyEntry (key item) (start item) (fun b => step b item) groups

def grouped (items : List α) : List (κ × β) := items.foldl (insertItem key start step) []

/-- The items of one key, folded by themselves. -/
def foldOf (items : List α) : Option β :=
  items.head?.map fun first => items.foldl step (start first)

section Keys

variable {key start step} {k : κ} {b : β} {change : β → β} {groups : List (κ × β)}

theorem groupOf_modifyEntry_self : groupOf (modifyEntry k b change groups) k =
    some (change ((groupOf groups k).getD b)) := by
  unfold groupOf
  induction groups with
  | nil => exact List.lookup_cons_self
  | cons entry rest ih =>
    obtain ⟨first, value⟩ := entry
    rw [modifyEntry]
    by_cases hkey : first = k
    · subst hkey
      rw [if_pos rfl, List.lookup_cons_self, List.lookup_cons_self]
      rfl
    · have hbeq : (k == first) = false := beq_eq_false_iff_ne.mpr fun h => hkey h.symm
      rw [if_neg hkey, List.lookup_cons, List.lookup_cons, hbeq]
      exact ih

theorem groupOf_modifyEntry_other {other : κ} (h : other ≠ k) :
    groupOf (modifyEntry k b change groups) other = groupOf groups other := by
  unfold groupOf
  induction groups with
  | nil =>
    rw [modifyEntry, List.lookup_cons, beq_eq_false_iff_ne.mpr h]
  | cons entry rest ih =>
    obtain ⟨first, value⟩ := entry
    rw [modifyEntry]
    by_cases hkey : first = k
    · subst hkey
      rw [if_pos rfl, List.lookup_cons, List.lookup_cons, beq_eq_false_iff_ne.mpr h]
    · rw [if_neg hkey, List.lookup_cons, List.lookup_cons, ih]

end Keys

theorem grouped_append_singleton (items : List α) (item : α) :
    grouped key start step (items ++ [item]) =
      insertItem key start step (grouped key start step items) item := by
  unfold grouped
  rw [List.foldl_append]
  rfl

theorem foldOf_append_singleton (items : List α) (item : α) :
    foldOf start step (items ++ [item]) =
      some (step ((foldOf start step items).getD (start item)) item) := by
  unfold foldOf
  cases items with
  | nil => rfl
  | cons first rest =>
    rw [List.cons_append, List.head?_cons, List.head?_cons, Option.map_some, Option.map_some,
      Option.getD_some, ← List.cons_append, List.foldl_append]
    rfl

/-- The accumulator of a key is what its items alone give. -/
theorem groupOf_grouped (items : List α) (k : κ) : groupOf (grouped key start step items) k =
    foldOf start step (items.filter fun item => decide (key item = k)) := by
  induction items using List.reverseRecOn with
  | nil => rfl
  | append_singleton items item ih =>
    rw [grouped_append_singleton, List.filter_append]
    unfold insertItem
    by_cases hkey : key item = k
    · subst hkey
      have hself : [item].filter (fun other => decide (key other = key item)) = [item] :=
        List.filter_cons_of_pos (decide_eq_true rfl)
      rw [groupOf_modifyEntry_self, ih, hself, foldOf_append_singleton]
    · have hnone : [item].filter (fun other => decide (key other = k)) = [] :=
        List.filter_cons_of_neg (by rwa [decide_eq_true_eq])
      rw [groupOf_modifyEntry_other (fun h => hkey h.symm), ih, hnone, List.append_nil]

section Totals

variable {key start step} {op : γ → γ → γ} [Std.Commutative op] [Std.Associative op] {e : γ}
  {value : β → γ} {weight : α → γ}

end Totals

end LayerInference.GroupedFolds
