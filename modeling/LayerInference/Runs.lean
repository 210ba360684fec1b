import Mathlib.Data.List.Induction

/-!
# Runs of a labelled step relation

A run is a sequence of steps from a start state, recorded by its labels. An
invariant is proved for one step and holds after every run. The relation may
carry side conditions on its steps, so that a statement about the runs which
respect a condition is a statement about the runs of a smaller relation.
-/

namespace LayerInference.Runs

variable {σ ℓ : Type}

/-- The states reached from `start` by the steps with these labels. -/
inductive Run (step : σ → ℓ → σ → Prop) (start : σ) : List ℓ → σ → Prop where
  | start : Run step start [] start
  | next {labels : List ℓ} {s s' : σ} {label : ℓ} : Run step start labels s → step s label s' →
      Run step start (labels ++ [label]) s'

variable {step : σ → ℓ → σ → Prop} {start s : σ} {labels : List ℓ}

/-- What holds at the start and is kept by every step holds after every run. -/
theorem Run.invariant {I : σ → Prop} (hstart : I start)
    (hstep : ∀ s label s', I s → step s label s' → I s') (h : Run step start labels s) : I s := by
  induction h with
  | start => exact hstart
  | next _ hs ih => exact hstep _ _ _ ih hs

/-- A run of a relation is a run of every larger one. -/
theorem Run.mono {step' : σ → ℓ → σ → Prop} (h : Run step start labels s)
    (hstep : ∀ s label s', step s label s' → step' s label s') : Run step' start labels s := by
  induction h with
  | start => exact .start
  | next _ hs ih => exact ih.next (hstep _ _ _ hs)

/-- A run whose labels all have a property is a run of the steps that have it. -/
theorem Run.restrict {Q : ℓ → Prop} (h : Run step start labels s) (hlabels : ∀ l ∈ labels, Q l) :
    Run (fun s l s' => step s l s' ∧ Q l) start labels s := by
  induction h with
  | start => exact .start
  | next _ hs ih =>
    exact (ih fun l hl => hlabels l (List.mem_append_left _ hl)).next
      ⟨hs, hlabels _ (List.mem_append_right _ (List.mem_singleton_self _))⟩

/-- Labels that lead to a state one after the other are a run to it. -/
theorem Run.of_foldlM {next : σ → ℓ → Option σ} (h : labels.foldlM next start = some s) :
    Run (fun s label s' => next s label = some s') start labels s := by
  induction labels using List.reverseRecOn generalizing s with
  | nil =>
    cases h
    exact .start
  | append_singleton labels label ih =>
    rw [List.foldlM_append] at h
    obtain ⟨middle, hfront, hlast⟩ := Option.bind_eq_some_iff.mp h
    rw [List.foldlM_cons] at hlast
    obtain ⟨last, hnext, hsame⟩ := Option.bind_eq_some_iff.mp hlast
    rw [List.foldlM_nil] at hsame
    cases hsame
    exact (ih hfront).next hnext

end LayerInference.Runs
