import LayerInference.FallibleRuns

/-!
# Runs that succeed only as another run does

A run over unreliable parts may fail where the run that it imitates succeeds.
What it returns is then still what the other run returns, in a related state.
This is one half of a simulation, with the same rules. Nothing here belongs to
one program.
-/

namespace LayerInference.OneSidedRuns

open FallibleRuns

variable {ε σ σ' τ τ' α β γ δ : Type}

/-- From states related by `R`, when the first run returns, the second one does,
with values related by `V` in states related by `S`. -/
def Follows (R : σ → τ → Prop) (x : EStateM ε σ α) (y : EStateM ε τ β) (V : α → β → Prop)
    (S : σ → τ → Prop) : Prop :=
  ∀ s t a s', R s t → x s = .ok a s' → ∃ b t', y t = .ok b t' ∧ V a b ∧ S s' t'

variable {R S : σ → τ → Prop} {V : α → β → Prop} {W : γ → δ → Prop}

theorem follows_pure {a : α} {b : β} (hV : V a b) (hS : ∀ s t, R s t → S s t) :
    Follows R (pure a : EStateM ε σ α) (pure b) V S := by
  intro s t a' s' hst hrun
  cases hrun
  exact ⟨b, t, rfl, hV, hS _ _ hst⟩

/-- A calculation without state that succeeds only as another one does. -/
theorem follows_stateless {r : Except ε α} {r' : Except ε β}
    (h : ∀ a, r = .ok a → ∃ b, r' = .ok b ∧ V a b) :
    Follows R (stateless r) (stateless r') V R := by
  intro s t a s' hst hrun
  cases r with
  | error e => cases hrun
  | ok a' =>
    cases hrun
    obtain ⟨b, rfl, hV⟩ := h a rfl
    exact ⟨b, t, rfl, hV, hst⟩

/-- Sequencing: the second runs start from related values and states. -/
theorem follows_bind {Q : σ → τ → Prop} {x : EStateM ε σ α} {y : EStateM ε τ β}
    {f : α → EStateM ε σ γ} {g : β → EStateM ε τ δ} (hxy : Follows R x y V Q)
    (hfg : ∀ a b, V a b → Follows Q (f a) (g b) W S) : Follows R (x >>= f) (y >>= g) W S := by
  intro s t c s' hst hrun
  rw [bind_apply] at hrun
  cases hx : x s with
  | error e s₁ =>
    rw [hx] at hrun
    cases hrun
  | ok a s₁ =>
    rw [hx] at hrun
    obtain ⟨b, t₁, hy, hV, hQ⟩ := hxy s t a s₁ hst hx
    obtain ⟨d, t', hg, hW, hS⟩ := hfg a b hV s₁ t₁ c s' hQ hrun
    exact ⟨d, t', by rw [bind_apply, hy]; exact hg, hW, hS⟩

/-- Sequencing after one stateless calculation on both sides. -/
theorem follows_stateless_bind {r : Except ε α} {f : α → EStateM ε σ γ} {g : α → EStateM ε τ δ}
    (hfg : ∀ a, r = .ok a → Follows R (f a) (g a) W S) :
    Follows R (stateless r >>= f) (stateless r >>= g) W S := by
  cases r with
  | ok a => exact hfg a rfl
  | error e =>
    intro s t c s' _ hrun
    cases hrun

theorem follows_weaken {R' S' : σ → τ → Prop} {V' : α → β → Prop} {x : EStateM ε σ α}
    {y : EStateM ε τ β} (h : Follows R x y V S) (hR : ∀ s t, R' s t → R s t)
    (hV : ∀ a b, V a b → V' a b) (hS : ∀ s t, S s t → S' s t) : Follows R' x y V' S' := by
  intro s t a s' hst hrun
  obtain ⟨b, t', hy, hVab, hSst⟩ := h s t a s' (hR s t hst) hrun
  exact ⟨b, t', hy, hV a b hVab, hS s' t' hSst⟩

/-- Runs on parts of two larger states. -/
theorem follows_onPart {get : σ → σ'} {set : σ → σ' → σ} {get' : τ → τ'} {set' : τ → τ' → τ}
    {R' S' : σ' → τ' → Prop} {x : EStateM ε σ' α} {y : EStateM ε τ' β}
    (hxy : Follows R' x y V S') (hR : ∀ s t, R s t → R' (get s) (get' t))
    (hS : ∀ s t u v, R s t → S' u v → S (set s u) (set' t v)) :
    Follows R (onPart get set x) (onPart get' set' y) V S := by
  intro s t a s' hst hrun
  rw [onPart_apply] at hrun
  cases hx : x (get s) with
  | error e u =>
    rw [hx] at hrun
    cases hrun
  | ok a' u =>
    rw [hx] at hrun
    cases hrun
    obtain ⟨b, v, hy, hV, huv⟩ := hxy (get s) (get' t) a u (hR s t hst) hx
    exact ⟨b, set' t v, by rw [onPart_apply, hy]; rfl, hV, hS s t u v hst huv⟩

end LayerInference.OneSidedRuns
