import LayerInference.FallibleRuns

/-!
# Simulation of fallible runs

Two runs over different states simulate each other when they exit the same
way: both return related values in related states, or both fail, with errors
that need not be equal, in states related more weakly. Sequencing and runs on
a part of the state have a rule each. Nothing here belongs to one program.
-/

namespace LayerInference.RunSimulation

open FallibleRuns

variable {ε σ σ' τ τ' α β γ δ : Type}

/-- What the two results of a simulation have in common. -/
def Agree (V : α → β → Prop) (S E : σ → τ → Prop) :
    EStateM.Result ε σ α → EStateM.Result ε τ β → Prop
  | .ok a s, .ok b t => V a b ∧ S s t
  | .error _ s, .error _ t => E s t
  | _, _ => False

/-- From states related by `R` both runs return, with values related by `V` in
states related by `S`, or both fail, in states related by `E`. -/
def Simulates (R : σ → τ → Prop) (x : EStateM ε σ α) (y : EStateM ε τ β) (V : α → β → Prop)
    (S E : σ → τ → Prop) : Prop :=
  ∀ s t, R s t → Agree V S E (x s) (y t)

variable {R S E : σ → τ → Prop} {V : α → β → Prop} {W : γ → δ → Prop}

theorem agree_weaken {V' : α → β → Prop} {S' E' : σ → τ → Prop} {r : EStateM.Result ε σ α}
    {r' : EStateM.Result ε τ β} (h : Agree V S E r r') (hV : ∀ a b, V a b → V' a b)
    (hS : ∀ s t, S s t → S' s t) (hE : ∀ s t, E s t → E' s t) : Agree V' S' E' r r' := by
  cases r with
  | ok a s =>
    cases r' with
    | ok b t => exact ⟨hV a b h.1, hS s t h.2⟩
    | error e t => exact h
  | error e s =>
    cases r' with
    | ok b t => exact h
    | error e' t => exact hE s t h

theorem simulates_pure {a : α} {b : β} (hV : V a b) (hS : ∀ s t, R s t → S s t) :
    Simulates R (pure a : EStateM ε σ α) (pure b) V S E := fun s t hst => ⟨hV, hS s t hst⟩

/-- Two calculations without state that succeed together. -/
theorem simulates_stateless {r : Except ε α} {r' : Except ε β}
    (h : (∃ a b, r = .ok a ∧ r' = .ok b ∧ V a b) ∨ ∃ e e', r = .error e ∧ r' = .error e')
    (hE : ∀ s t, R s t → E s t) : Simulates R (stateless r) (stateless r') V R E := by
  intro s t hst
  rcases h with ⟨a, b, rfl, rfl, hV⟩ | ⟨e, e', rfl, rfl⟩
  · exact ⟨hV, hst⟩
  · exact hE s t hst

/-- Sequencing: the second runs start from related values and states. -/
theorem simulates_bind {Q : σ → τ → Prop} {x : EStateM ε σ α} {y : EStateM ε τ β}
    {f : α → EStateM ε σ γ} {g : β → EStateM ε τ δ} (hxy : Simulates R x y V Q E)
    (hfg : ∀ a b, V a b → Simulates Q (f a) (g b) W S E) :
    Simulates R (x >>= f) (y >>= g) W S E := by
  intro s t hst
  have h := hxy s t hst
  rw [bind_apply, bind_apply]
  cases hx : x s with
  | ok a s' =>
    cases hy : y t with
    | ok b t' =>
      rw [hx, hy] at h
      exact hfg a b h.1 s' t' h.2
    | error e t' =>
      rw [hx, hy] at h
      exact h.elim
  | error e s' =>
    cases hy : y t with
    | ok b t' =>
      rw [hx, hy] at h
      exact h.elim
    | error e' t' =>
      rw [hx, hy] at h
      exact h

/-- A calculation behind the first run only. -/
theorem simulates_map_left {f : α → γ} {x : EStateM ε σ α} {y : EStateM ε τ β}
    (h : Simulates R x y V S E) :
    Simulates R (x >>= fun a => pure (f a)) y (fun c b => ∃ a, c = f a ∧ V a b) S E := by
  intro s t hst
  have hxy := h s t hst
  rw [bind_apply]
  cases hx : x s with
  | ok a s' =>
    cases hy : y t with
    | ok b t' =>
      rw [hx, hy] at hxy
      exact ⟨⟨a, rfl, hxy.1⟩, hxy.2⟩
    | error e t' =>
      rw [hx, hy] at hxy
      exact hxy
  | error e s' =>
    cases hy : y t with
    | ok b t' =>
      rw [hx, hy] at hxy
      exact hxy
    | error e' t' =>
      rw [hx, hy] at hxy
      exact hxy

/-- Sequencing after one stateless calculation on both sides. -/
theorem simulates_stateless_bind {r : Except ε α} {f : α → EStateM ε σ γ} {g : α → EStateM ε τ δ}
    (hE : ∀ s t, R s t → E s t) (hfg : ∀ a, r = .ok a → Simulates R (f a) (g a) W S E) :
    Simulates R (stateless r >>= f) (stateless r >>= g) W S E := by
  cases r with
  | ok a => exact hfg a rfl
  | error e => exact fun s t hst => hE s t hst

theorem simulates_weaken {R' S' E' : σ → τ → Prop} {V' : α → β → Prop} {x : EStateM ε σ α}
    {y : EStateM ε τ β} (h : Simulates R x y V S E) (hR : ∀ s t, R' s t → R s t)
    (hV : ∀ a b, V a b → V' a b) (hS : ∀ s t, S s t → S' s t) (hE : ∀ s t, E s t → E' s t) :
    Simulates R' x y V' S' E' := fun s t hst => agree_weaken (h s t (hR s t hst)) hV hS hE

/-- Runs on parts of two larger states. -/
theorem simulates_onPart {get : σ → σ'} {set : σ → σ' → σ} {get' : τ → τ'} {set' : τ → τ' → τ}
    {R' S' E' : σ' → τ' → Prop} {x : EStateM ε σ' α} {y : EStateM ε τ' β}
    (hxy : Simulates R' x y V S' E') (hR : ∀ s t, R s t → R' (get s) (get' t))
    (hS : ∀ s t u v, R s t → S' u v → S (set s u) (set' t v))
    (hE : ∀ s t u v, R s t → E' u v → E (set s u) (set' t v)) :
    Simulates R (onPart get set x) (onPart get' set' y) V S E := by
  intro s t hst
  have h := hxy (get s) (get' t) (hR s t hst)
  rw [onPart_apply, onPart_apply]
  cases hx : x (get s) with
  | ok a u =>
    cases hy : y (get' t) with
    | ok b v =>
      rw [hx, hy] at h
      exact ⟨h.1, hS s t u v hst h.2⟩
    | error e v =>
      rw [hx, hy] at h
      exact h.elim
  | error e u =>
    cases hy : y (get' t) with
    | ok b v =>
      rw [hx, hy] at h
      exact h.elim
    | error e' v =>
      rw [hx, hy] at h
      exact hE s t u v hst h

/-- Simulations compose. -/
theorem simulates_trans {υ ι : Type} {R' S' E' : τ → υ → Prop} {V' : β → ι → Prop}
    {x : EStateM ε σ α} {y : EStateM ε τ β} {z : EStateM ε υ ι} (hxy : Simulates R x y V S E)
    (hyz : Simulates R' y z V' S' E') :
    Simulates (fun s u => ∃ t, R s t ∧ R' t u) x z (fun a c => ∃ b, V a b ∧ V' b c)
      (fun s u => ∃ t, S s t ∧ S' t u) fun s u => ∃ t, E s t ∧ E' t u := by
  rintro s u ⟨t, hst, htu⟩
  have h := hxy s t hst
  have h' := hyz t u htu
  cases hx : x s with
  | ok a s' =>
    cases hy : y t with
    | ok b t' =>
      cases hz : z u with
      | ok c u' =>
        rw [hx, hy] at h
        rw [hy, hz] at h'
        exact ⟨⟨b, h.1, h'.1⟩, t', h.2, h'.2⟩
      | error e u' =>
        rw [hy, hz] at h'
        exact h'.elim
    | error e t' =>
      rw [hx, hy] at h
      exact h.elim
  | error e s' =>
    cases hy : y t with
    | ok b t' =>
      rw [hx, hy] at h
      exact h.elim
    | error e' t' =>
      cases hz : z u with
      | ok c u' =>
        rw [hy, hz] at h'
        exact h'.elim
      | error e'' u' =>
        rw [hx, hy] at h
        rw [hy, hz] at h'
        exact ⟨t', h, h'⟩

/-- Lockstep is the simulation with equal values. -/
theorem simulates_of_lockstep {x : EStateM ε σ α} {y : EStateM ε τ α} (h : Lockstep R x y S) :
    Simulates R x y Eq S S := by
  intro s t hst
  obtain ⟨hout, hfinal⟩ := h s t hst
  cases hx : x s with
  | ok a s' =>
    cases hy : y t with
    | ok b t' =>
      rw [hx, hy] at hout hfinal
      exact ⟨Except.ok.inj hout, hfinal⟩
    | error e t' =>
      rw [hx, hy] at hout
      cases hout
  | error e s' =>
    cases hy : y t with
    | ok b t' =>
      rw [hx, hy] at hout
      cases hout
    | error e' t' =>
      rw [hx, hy] at hfinal
      exact hfinal

/-- A triple for the first run alone strengthens what is known after it. -/
theorem simulates_and {P : σ → Prop} {Q : α → Prop} {x : EStateM ε σ α} {y : EStateM ε τ β}
    (h : Simulates R x y V S E) (hP : ∀ s t, R s t → P s)
    (hx : Satisfies P x (fun a _ => Q a) fun _ _ => True) :
    Simulates R x y (fun a b => V a b ∧ Q a) S E := by
  intro s t hst
  have h1 := h s t hst
  have h2 := hx s (hP s t hst)
  cases hxs : x s with
  | ok a s' =>
    rw [hxs] at h1 h2
    cases hyt : y t with
    | ok b t' =>
      rw [hyt] at h1
      exact ⟨⟨h1.1, h2⟩, h1.2⟩
    | error e t' =>
      rw [hyt] at h1
      exact h1
  | error e s' =>
    rw [hxs] at h1
    cases hyt : y t with
    | ok b t' =>
      rw [hyt] at h1
      exact h1
    | error e' t' =>
      rw [hyt] at h1
      exact h1

end LayerInference.RunSimulation
