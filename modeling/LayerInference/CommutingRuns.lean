import LayerInference.FallibleRuns

/-!
# Runs that may be done in either order

The successful runs of a stateful computation form a partial function on
states. Two computations commute when it does not matter for these which one
is done first. Computations on separate parts of the state commute, and so
does whatever is composed of commuting steps. Nothing here belongs to one
program.
-/

namespace LayerInference.CommutingRuns

open FallibleRuns

variable {ε σ τ υ α β γ : Type}

/-- The successful runs of a computation. -/
def successes (x : EStateM ε σ α) : StateT σ Option α := fun s =>
  match x s with
  | .ok a s' => some (a, s')
  | .error _ _ => none

theorem successes_pure (a : α) : successes (pure a : EStateM ε σ α) = pure a := rfl

theorem successes_bind (x : EStateM ε σ α) (f : α → EStateM ε σ β) :
    successes (x >>= f) = successes x >>= fun a => successes (f a) := by
  funext s
  change (match (x >>= f) s with
    | .ok a s' => some (a, s')
    | .error _ _ => none) = (successes x s).bind fun p => successes (f p.1) p.2
  rw [bind_apply]
  unfold successes
  cases x s <;> rfl

/-- Equal successes are equal successful runs. -/
theorem successes_eq_iff {x y : EStateM ε σ α} :
    successes x = successes y ↔ ∀ s a s', x s = .ok a s' ↔ y s = .ok a s' := by
  have hrun (z : EStateM ε σ α) (s : σ) (a : α) (s' : σ) :
      successes z s = some (a, s') ↔ z s = .ok a s' := by
    unfold successes
    cases z s with
    | ok b t =>
      constructor
      · intro h
        cases h
        rfl
      · intro h
        cases h
        rfl
    | error e t =>
      constructor
      · intro h
        cases h
      · intro h
        cases h
  constructor
  · intro h s a s'
    rw [← hrun x, ← hrun y, h]
  · intro h
    funext s
    refine Option.ext fun p => ?_
    exact (hrun x s p.1 p.2).trans ((h s p.1 p.2).trans (hrun y s p.1 p.2).symm)

/-- What follows a computation matters for its results only. -/
theorem successes_bind_congr {x : EStateM ε σ α} {f g : α → StateT σ Option β}
    (h : ∀ s a s', x s = .ok a s' → f a = g a) : successes x >>= f = successes x >>= g := by
  funext s
  change (successes x s).bind (fun p => f p.1 p.2) = (successes x s).bind fun p => g p.1 p.2
  cases hx : x s with
  | ok a s' =>
    have hs : successes x s = some (a, s') := by rw [successes, hx]
    rw [hs, Option.bind_some, Option.bind_some, h s a s' hx]
  | error e s' =>
    have hs : successes x s = none := by rw [successes, hx]
    rw [hs, Option.bind_none, Option.bind_none]

/-- Two computations that may be done in either order. -/
def Commutes (x : StateT σ Option α) (y : StateT σ Option β) : Prop :=
  (do let a ← x; let b ← y; pure (a, b)) = (do let b ← y; let a ← x; pure (a, b))

/-- Doing the second computation first. -/
theorem Commutes.swap {x : StateT σ Option α} {y : StateT σ Option β} (h : Commutes x y)
    (f : α → β → StateT σ Option γ) :
    (do let a ← x; let b ← y; f a b) = (do let b ← y; let a ← x; f a b) := by
  have hpairs := congrArg (fun z : StateT σ Option (α × β) => z >>= fun p => f p.1 p.2) h
  simpa only [bind_assoc, pure_bind] using hpairs

theorem Commutes.symm {x : StateT σ Option α} {y : StateT σ Option β} (h : Commutes x y) :
    Commutes y x :=
  (h.swap fun a b => pure (b, a)).symm

theorem commutes_pure (a : α) (y : StateT σ Option β) : Commutes (pure a) y := by
  simp only [Commutes, pure_bind]

/-- A composition commutes when both of its parts do. -/
theorem Commutes.bind {x : StateT σ Option α} {f : α → StateT σ Option β} {y : StateT σ Option γ}
    (hx : Commutes x y) (hf : ∀ a, Commutes (f a) y) : Commutes (x >>= f) y := by
  unfold Commutes
  calc (do let b ← x >>= f; let c ← y; pure (b, c))
      = (do let a ← x; let b ← f a; let c ← y; pure (b, c)) := by simp only [bind_assoc]
    _ = (do let a ← x; let c ← y; let b ← f a; pure (b, c)) := by
      simp only [(hf _).swap fun b c => (pure (b, c) : StateT σ Option (β × γ))]
    _ = (do let c ← y; let a ← x; let b ← f a; pure (b, c)) := hx.swap _
    _ = (do let c ← y; let b ← x >>= f; pure (b, c)) := by simp only [bind_assoc]

/-- A loop commutes when its passes do. -/
theorem commutes_foldlM {body : β → γ → StateT σ Option β} {y : StateT σ Option α} {xs : List γ}
    (h : ∀ b, ∀ x ∈ xs, Commutes (body b x) y) (b : β) : Commutes (xs.foldlM body b) y := by
  induction xs generalizing b with
  | nil => exact commutes_pure b y
  | cons x xs ih =>
    rw [List.foldlM_cons]
    exact (h b x List.mem_cons_self).bind
      fun b' => ih (fun b x hx => h b x (List.mem_cons_of_mem _ hx)) b'

theorem successes_foldlM {body : β → γ → EStateM ε σ β} (xs : List γ) (b : β) :
    successes (xs.foldlM body b) = xs.foldlM (fun b x => successes (body b x)) b := by
  induction xs generalizing b with
  | nil => rfl
  | cons x xs ih =>
    rw [List.foldlM_cons, List.foldlM_cons, successes_bind]
    exact congrArg _ (funext ih)

theorem successes_forM {f : γ → EStateM ε σ Unit} (xs : List γ) :
    successes (xs.forM f) = xs.forM fun x => successes (f x) := by
  induction xs with
  | nil => rfl
  | cons x xs ih =>
    change successes (f x >>= fun _ => xs.forM f) = successes (f x) >>= fun _ => xs.forM _
    rw [successes_bind, ih]

/-- Steps that commute with each other may be done in any order. -/
theorem forM_perm {f : γ → StateT σ Option Unit} {xs ys : List γ} (hperm : xs.Perm ys)
    (hcommute : xs.Pairwise fun x y => Commutes (f x) (f y)) : xs.forM f = ys.forM f := by
  induction hperm with
  | nil => rfl
  | cons x _ ih =>
    change (f x >>= fun _ => _) = f x >>= fun _ => _
    rw [ih (List.pairwise_cons.mp hcommute).2]
  | swap x y xs =>
    have hboth := (List.pairwise_cons.mp hcommute).1 x List.mem_cons_self
    exact hboth.swap fun _ _ => xs.forM f
  | trans hfirst _ ih ih' =>
    have hnext := (hfirst.pairwise_iff fun {x y} h => Commutes.symm h).mp hcommute
    exact (ih hcommute).trans (ih' hnext)

/-- A calculation without state commutes with everything. -/
theorem commutes_stateless (r : Except ε α) (y : StateT σ Option β) :
    Commutes (successes (stateless r : EStateM ε σ α)) y := by
  cases r with
  | ok a => exact commutes_pure a y
  | error e =>
    funext s
    change none = (y s).bind fun _ => none
    cases y s <;> rfl

/-- Runs on two separate parts of the state commute. -/
theorem commutes_onPart {get : σ → τ} {set : σ → τ → σ} {get' : σ → υ} {set' : σ → υ → σ}
    (hget : ∀ s u, get (set' s u) = get s) (hget' : ∀ s t, get' (set s t) = get' s)
    (hset : ∀ s t u, set' (set s t) u = set (set' s u) t) (x : EStateM ε τ α)
    (y : EStateM ε υ β) :
    Commutes (successes (onPart get set x)) (successes (onPart get' set' y)) := by
  funext s
  have hrun {ρ δ : Type} (get : σ → ρ) (set : σ → ρ → σ) (z : EStateM ε ρ δ) (s : σ) :
      successes (onPart get set z) s = (successes z (get s)).map fun p => (p.1, set s p.2) := by
    unfold successes
    rw [onPart_apply]
    cases z (get s) <;> rfl
  change (successes (onPart get set x) s).bind
      (fun p => (successes (onPart get' set' y) p.2).bind fun q => some ((p.1, q.1), q.2)) =
    (successes (onPart get' set' y) s).bind
      (fun q => (successes (onPart get set x) q.2).bind fun p => some ((p.1, q.1), p.2))
  simp only [hrun]
  cases hx : successes x (get s) with
  | none =>
    cases successes y (get' s) with
    | none => rfl
    | some q =>
      simp only [Option.map_none, Option.bind_none, Option.map_some, Option.bind_some, hget, hx]
  | some p =>
    simp only [Option.map_some, Option.bind_some, hget']
    cases successes y (get' s) with
    | none => rfl
    | some q => simp only [Option.map_some, Option.bind_some, hget, hx, hset]

end LayerInference.CommutingRuns
