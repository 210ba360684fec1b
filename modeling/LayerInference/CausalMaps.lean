import Mathlib.Data.List.Basic

/-!
# Causal maps of sequences

A causal map sends every row of a sequence to one row that depends on the rows
up to it. Its values on a growing sequence can then be computed piece by piece:
what the new rows add is an answer to them alone, once the past is known.
Answers compose as the maps do. Nothing here belongs to one program.
-/

namespace LayerInference.CausalMaps

variable {α β γ : Type}

/-- One row for every row, and more input never changes the rows so far. -/
structure Causal (f : List α → List β) : Prop where
  length : ∀ rows, (f rows).length = rows.length
  append : ∀ past new, f past <+: f (past ++ new)

/-- The rows that new input adds to those of the past. -/
def answer (f : List α → List β) (past new : List α) : List β :=
  (f (past ++ new)).drop past.length

theorem causal_id : Causal (id : List α → List α) where
  length _ := rfl
  append past new := List.prefix_append past new

/-- Working on every row by itself is causal. -/
theorem causal_map (f : α → β) : Causal (List.map f) where
  length rows := List.length_map f
  append past new := by
    rw [List.map_append]
    exact List.prefix_append _ _

variable {f : List α → List β} {g : List β → List γ}

theorem Causal.comp (hg : Causal g) (hf : Causal f) : Causal fun rows => g (f rows) where
  length rows := (hg.length _).trans (hf.length rows)
  append past new := by
    obtain ⟨added, hadded⟩ := hf.append past new
    rw [← hadded]
    exact hg.append (f past) added

theorem Causal.nil (hf : Causal f) : f [] = [] := List.length_eq_zero_iff.mp (hf.length [])

theorem Causal.length_answer (hf : Causal f) (past new : List α) :
    (answer f past new).length = new.length := by
  rw [answer, List.length_drop, hf.length, List.length_append, Nat.add_sub_cancel_left]

theorem Causal.answer_ne_nil (hf : Causal f) {past new : List α} (hnew : new ≠ []) :
    answer f past new ≠ [] := by
  rw [← List.length_pos_iff, hf.length_answer]
  exact List.length_pos_iff.mpr hnew

end LayerInference.CausalMaps
