import Mathlib.Data.List.Range

/-!
# Stateful computations that keep their state when they fail

An exception does not undo the writes made before it was thrown, so a run
ends in a state on both exits. Two judgments are provided for such runs: a
triple with one postcondition for each exit, and the lockstep of two runs that
must exit the same way. Sequencing, loops and runs on a part of the state have
one rule for each judgment. Nothing here belongs to one program.
-/

namespace LayerInference.FallibleRuns

variable {ε σ τ υ α β γ δ : Type}

/-- Both parts of a calculation that gave a value. -/
theorem ok_of_bind {first : Except ε α} {next : α → Except ε β} {b : β}
    (h : first >>= next = .ok b) : ∃ a, first = .ok a ∧ next a = .ok b := by
  cases first with
  | error e => cases h
  | ok a => exact ⟨a, rfl, h⟩

/-- Checks that were all passed. -/
theorem ok_of_forM {l : List γ} {check : γ → Except ε Unit} {result : Unit}
    (h : l.forM check = .ok result) : ∀ i ∈ l, check i = .ok () := by
  induction l with
  | nil => exact fun i hi => absurd hi List.not_mem_nil
  | cons first l ih =>
    obtain ⟨a, hfirst, hrest⟩ := ok_of_bind h
    intro i hi
    rcases List.mem_cons.mp hi with rfl | hi
    · exact hfirst
    · exact ih hrest i hi

/-- Calculating a list of values that are all known. -/
theorem mapM_ok {l : List γ} {f : γ → Except ε α} {g : γ → α} (h : ∀ i ∈ l, f i = .ok (g i)) :
    l.mapM f = .ok (l.map g) := by
  induction l with
  | nil => rfl
  | cons i l ih =>
    rw [List.mapM_cons, h i List.mem_cons_self, ih fun j hj => h j (List.mem_cons_of_mem i hj)]
    rfl

/-- Calculating a list of values that all exist. -/
theorem mapM_exists {l : List γ} {f : γ → Except ε α} (h : ∀ i ∈ l, ∃ y, f i = .ok y) :
    ∃ ys, l.mapM f = .ok ys ∧ ys.length = l.length := by
  induction l with
  | nil => exact ⟨[], rfl, rfl⟩
  | cons i l ih =>
    obtain ⟨y, hy⟩ := h i List.mem_cons_self
    obtain ⟨ys, hys, hlength⟩ := ih fun j hj => h j (List.mem_cons_of_mem i hj)
    exact ⟨y :: ys, by rw [List.mapM_cons, hy, hys]; rfl, congrArg (· + 1) hlength⟩

/-- A calculated list has one value for each entry. -/
theorem length_of_mapM {l : List γ} {f : γ → Except ε α} {xs : List α} (h : l.mapM f = .ok xs) :
    xs.length = l.length := by
  induction l generalizing xs with
  | nil =>
    cases h
    rfl
  | cons i l ih =>
    rw [List.mapM_cons] at h
    cases hf : f i with
    | error message =>
      rw [hf] at h
      cases h
    | ok y =>
      cases hrest : l.mapM f with
      | error message =>
        rw [hf, hrest] at h
        cases h
      | ok rest =>
        rw [hf, hrest] at h
        cases h
        rw [List.length_cons, List.length_cons, ih hrest]

/-- Entries and calculated values belong to each other. -/
theorem mem_of_mapM {l : List γ} {f : γ → Except ε α} {xs : List α} (h : l.mapM f = .ok xs) :
    (∀ i ∈ l, ∃ y ∈ xs, f i = .ok y) ∧ ∀ y ∈ xs, ∃ i ∈ l, f i = .ok y := by
  induction l generalizing xs with
  | nil =>
    cases h
    exact ⟨fun i hi => absurd hi List.not_mem_nil, fun y hy => absurd hy List.not_mem_nil⟩
  | cons first l ih =>
    rw [List.mapM_cons] at h
    obtain ⟨value, hvalue, h⟩ := ok_of_bind h
    obtain ⟨rest, hrest, h⟩ := ok_of_bind h
    cases h
    obtain ⟨hentries, hvalues⟩ := ih hrest
    constructor
    · intro i hi
      rcases List.mem_cons.mp hi with rfl | hi
      · exact ⟨value, List.mem_cons_self, hvalue⟩
      · obtain ⟨y, hy, hf⟩ := hentries i hi
        exact ⟨y, List.mem_cons_of_mem value hy, hf⟩
    · intro y hy
      rcases List.mem_cons.mp hy with rfl | hy
      · exact ⟨first, List.mem_cons_self, hvalue⟩
      · obtain ⟨i, hi, hf⟩ := hvalues y hy
        exact ⟨i, List.mem_cons_of_mem first hi, hf⟩

/-- What every pass of a finished loop kept, holds at its end. -/
theorem foldlM_keeps {S : β → Prop} {body : β → γ → Except ε β} {xs : List γ} {b out : β}
    (hrun : xs.foldlM body b = .ok out) (hb : S b)
    (h : ∀ b, S b → ∀ x ∈ xs, ∀ b', body b x = .ok b' → S b') : S out := by
  induction xs generalizing b with
  | nil =>
    cases hrun
    exact hb
  | cons x xs ih =>
    rw [List.foldlM_cons] at hrun
    cases hbody : body b x with
    | error message =>
      rw [hbody] at hrun
      cases hrun
    | ok b' =>
      rw [hbody] at hrun
      exact ih hrun (h b hb x List.mem_cons_self b' hbody)
        fun b hb y hy => h b hb y (List.mem_cons_of_mem x hy)

/-- A loop without state that keeps a property of its accumulator. -/
theorem foldlM_exists {S : β → Prop} {body : β → γ → Except ε β} {xs : List γ} {b : β} (hb : S b)
    (h : ∀ b, S b → ∀ x ∈ xs, ∃ b', body b x = .ok b' ∧ S b') :
    ∃ b', xs.foldlM body b = .ok b' ∧ S b' := by
  induction xs generalizing b with
  | nil => exact ⟨b, rfl, hb⟩
  | cons x xs ih =>
    obtain ⟨b', hb', hS⟩ := h b hb x List.mem_cons_self
    rw [List.foldlM_cons, hb']
    exact ih hS fun b hb y hy => h b hb y (List.mem_cons_of_mem x hy)

/-- The state in which a run ends, on either exit. -/
def finalState : EStateM.Result ε σ α → σ
  | .ok _ s => s
  | .error _ s => s

/-- What a run answers, without its state. -/
def outcome : EStateM.Result ε σ α → Except ε α
  | .ok a _ => .ok a
  | .error e _ => .error e

/-- A check or a calculation that touches no state. -/
def stateless : Except ε α → EStateM ε σ α
  | .ok a => fun s => .ok a s
  | .error e => fun s => .error e s

/-- A run on one part of a larger state. -/
def onPart (get : σ → τ) (set : σ → τ → σ) (x : EStateM ε τ α) : EStateM ε σ α := fun s =>
  match x (get s) with
  | .ok a t => .ok a (set s t)
  | .error e t => .error e (set s t)

/-- The same exit with another view of the state. -/
def mapState (f : σ → τ) : EStateM.Result ε σ α → EStateM.Result ε τ α
  | .ok a s => .ok a (f s)
  | .error e s => .error e (f s)

theorem bind_apply (x : EStateM ε σ α) (f : α → EStateM ε σ β) (s : σ) :
    (x >>= f) s = match x s with
      | .ok a s' => f a s'
      | .error e s' => .error e s' := rfl

theorem get_apply (s : σ) : (get : EStateM ε σ σ) s = .ok s s := rfl

@[simp] theorem pure_apply (a : α) (s : σ) : (pure a : EStateM ε σ α) s = .ok a s := rfl

@[simp] theorem stateless_ok (a : α) (s : σ) :
    (stateless (.ok a) : EStateM ε σ α) s = .ok a s := rfl

@[simp] theorem stateless_error (e : ε) (s : σ) :
    (stateless (.error e) : EStateM ε σ α) s = .error e s := rfl

theorem stateless_ok_bind (a : α) (f : α → EStateM ε σ β) : (stateless (.ok a) >>= f) = f a := rfl

@[simp] theorem finalState_mapState (f : σ → τ) (r : EStateM.Result ε σ α) :
    finalState (mapState f r) = f (finalState r) := by
  cases r <;> rfl

@[simp] theorem outcome_mapState (f : σ → τ) (r : EStateM.Result ε σ α) :
    outcome (mapState f r) = outcome r := by
  cases r <;> rfl

theorem onPart_apply (get : σ → τ) (set : σ → τ → σ) (x : EStateM ε τ α) (s : σ) :
    onPart get set x s = mapState (set s) (x (get s)) := by
  unfold onPart
  cases x (get s) <;> rfl

/-- A run on a part of the state changes this part only. -/
theorem onPart_state {get : σ → τ} {set : σ → τ → σ} {x : EStateM ε τ α} {s s' : σ} {a : α}
    (h : onPart get set x s = .ok a s') : ∃ t, set s t = s' := by
  rw [onPart_apply] at h
  cases hx : x (get s) with
  | ok b t =>
    rw [hx] at h
    cases h
    exact ⟨t, rfl⟩
  | error e t =>
    rw [hx] at h
    cases h

/-- Sequencing commutes with a view that both steps respect. -/
theorem mapState_bind {f : σ → τ} {x : EStateM ε σ α} {y : EStateM ε τ α}
    {g : α → EStateM ε σ β} {h : α → EStateM ε τ β} {s : σ} (hxy : mapState f (x s) = y (f s))
    (hgh : ∀ a s', mapState f (g a s') = h a (f s')) :
    mapState f ((x >>= g) s) = (y >>= h) (f s) := by
  rw [bind_apply, bind_apply, ← hxy]
  cases x s with
  | ok a s' => exact hgh a s'
  | error e s' => rfl

/-- A run from any state satisfying `P` returns with `Q` or fails with `E`. -/
def Satisfies (P : σ → Prop) (x : EStateM ε σ α) (Q : α → σ → Prop) (E : ε → σ → Prop) : Prop :=
  ∀ s, P s → match x s with
    | .ok a s' => Q a s'
    | .error e s' => E e s'

/-- Two runs from states related by `R` exit the same way with the same
value or error, in states related by `S`. -/
def Lockstep (R : σ → τ → Prop) (x : EStateM ε σ α) (y : EStateM ε τ α) (S : σ → τ → Prop) : Prop :=
  ∀ s t, R s t → outcome (x s) = outcome (y t) ∧ S (finalState (x s)) (finalState (y t))

/-- A run returns from every state, with a value satisfying `Q`. -/
def Returns (x : EStateM ε σ α) (Q : α → Prop) : Prop := ∀ s, ∃ a s', x s = .ok a s' ∧ Q a

section Totality

variable {Q : α → Prop} {S : β → Prop}

theorem returns_pure {a : α} (h : Q a) : Returns (pure a : EStateM ε σ α) Q :=
  fun s => ⟨a, s, rfl, h⟩

theorem returns_bind {x : EStateM ε σ α} {f : α → EStateM ε σ β} (hx : Returns x Q)
    (hf : ∀ a, Q a → Returns (f a) S) : Returns (x >>= f) S := by
  intro s
  obtain ⟨a, s', hrun, ha⟩ := hx s
  obtain ⟨b, s'', hrun', hb⟩ := hf a ha s'
  exact ⟨b, s'', by rw [bind_apply, hrun]; exact hrun', hb⟩

/-- Sequencing after a stateless calculation with a known result. -/
theorem returns_stateless_bind {r : Except ε α} {f : α → EStateM ε σ β} {a : α} (hr : r = .ok a)
    (hf : Returns (f a) S) : Returns (stateless r >>= f) S := by
  rw [hr]
  exact hf

theorem returns_weaken {Q' : α → Prop} {x : EStateM ε σ α} (hx : Returns x Q)
    (h : ∀ a, Q a → Q' a) : Returns x Q' := by
  intro s
  obtain ⟨a, s', hrun, ha⟩ := hx s
  exact ⟨a, s', hrun, h a ha⟩

/-- A loop returns when every pass returns and keeps a property of the
accumulator. -/
theorem returns_foldlM {body : β → γ → EStateM ε σ β} {xs : List γ} {b : β} (hb : S b)
    (h : ∀ b, S b → ∀ x ∈ xs, Returns (body b x) S) : Returns (xs.foldlM body b) S := by
  induction xs generalizing b with
  | nil => exact returns_pure hb
  | cons x xs ih =>
    rw [List.foldlM_cons]
    exact returns_bind (h b hb x List.mem_cons_self)
      fun b' hb' => ih hb' fun b hb y hy => h b hb y (List.mem_cons_of_mem x hy)

theorem returns_onPart {get : σ → τ} {set : σ → τ → σ} {x : EStateM ε τ α} (hx : Returns x Q) :
    Returns (onPart get set x) Q := by
  intro s
  obtain ⟨a, t, hrun, ha⟩ := hx (get s)
  exact ⟨a, set s t, by rw [onPart_apply, hrun]; rfl, ha⟩

end Totality

section Triples

variable {P : σ → Prop} {Q : α → σ → Prop} {E : ε → σ → Prop}

theorem satisfies_pure {a : α} (h : ∀ s, P s → Q a s) : Satisfies P (pure a) Q E := h

theorem satisfies_stateless {r : Except ε α} (hok : ∀ a s, r = .ok a → P s → Q a s)
    (herr : ∀ e s, r = .error e → P s → E e s) : Satisfies P (stateless r) Q E := by
  intro s hs
  cases r with
  | ok a => exact hok a s rfl hs
  | error e => exact herr e s rfl hs

/-- A stateless calculation keeps every property of the state. -/
theorem satisfies_stateless_keep {r : Except ε α} :
    Satisfies P (stateless r) (fun _ => P) fun _ => P :=
  satisfies_stateless (fun _ _ _ hs => hs) fun _ _ _ hs => hs

/-- Sequencing: the second run starts from what the first returned. -/
theorem satisfies_bind {x : EStateM ε σ α} {f : α → EStateM ε σ β} {S : β → σ → Prop}
    (hx : Satisfies P x Q E) (hf : ∀ a, Satisfies (Q a) (f a) S E) :
    Satisfies P (x >>= f) S E := by
  intro s hs
  have h := hx s hs
  rw [bind_apply]
  cases hxs : x s with
  | ok a s' =>
    rw [hxs] at h
    exact hf a s' h
  | error e s' =>
    rw [hxs] at h
    exact h

/-- Sequencing after a stateless calculation, whose result is then known. -/
theorem satisfies_stateless_bind {r : Except ε α} {f : α → EStateM ε σ β} {S : β → σ → Prop}
    (herr : ∀ e s, r = .error e → P s → E e s) (hok : ∀ a, r = .ok a → Satisfies P (f a) S E) :
    Satisfies P (stateless r >>= f) S E := by
  intro s hs
  cases r with
  | ok a => exact hok a rfl s hs
  | error e => exact herr e s rfl hs

theorem satisfies_weaken {P' : σ → Prop} {Q' : α → σ → Prop} {E' : ε → σ → Prop}
    {x : EStateM ε σ α} (h : Satisfies P x Q E) (hP : ∀ s, P' s → P s)
    (hQ : ∀ a s, Q a s → Q' a s) (hE : ∀ e s, E e s → E' e s) : Satisfies P' x Q' E' := by
  intro s hs
  have hrun := h s (hP s hs)
  cases hxs : x s with
  | ok a s' =>
    rw [hxs] at hrun
    exact hQ a s' hrun
  | error e s' =>
    rw [hxs] at hrun
    exact hE e s' hrun

/-- A loop over a list keeps an invariant of accumulator and state. -/
theorem satisfies_foldlM {body : β → γ → EStateM ε σ β} {I : β → σ → Prop} {xs : List γ}
    (h : ∀ b, ∀ x ∈ xs, Satisfies (I b) (body b x) I E) (b : β) :
    Satisfies (I b) (xs.foldlM body b) I E := by
  induction xs generalizing b with
  | nil => exact satisfies_pure fun _ hs => hs
  | cons x xs ih =>
    rw [List.foldlM_cons]
    exact satisfies_bind (h b x List.mem_cons_self)
      fun b' => ih (fun b y hy => h b y (List.mem_cons_of_mem x hy)) b'

/-- A counted loop: the invariant may speak of the number of finished passes. -/
theorem satisfies_range {body : β → ℕ → EStateM ε σ β} {I : ℕ → β → σ → Prop} {n : ℕ}
    (h : ∀ i b, i < n → Satisfies (I i b) (body b i) (I (i + 1)) E) (b : β) :
    Satisfies (I 0 b) ((List.range n).foldlM body b) (I n) E := by
  induction n with
  | zero => exact satisfies_pure fun _ hs => hs
  | succ n ih =>
    rw [List.range_succ, List.foldlM_append]
    refine satisfies_bind (ih fun i b hi => h i b (by omega)) fun b' => ?_
    rw [List.foldlM_cons]
    exact satisfies_bind (h n b' (by omega)) fun b'' => satisfies_pure fun _ hs => hs

end Triples

section LockstepRules

variable {R S : σ → τ → Prop}

theorem lockstep_pure {a : α} (h : ∀ s t, R s t → S s t) :
    Lockstep R (pure a : EStateM ε σ α) (pure a) S := fun s t hst => ⟨rfl, h s t hst⟩

/-- The same stateless calculation on both sides. -/
theorem lockstep_stateless {r : Except ε α} : Lockstep R (stateless r) (stateless r) R := by
  intro s t hst
  cases r with
  | ok a => exact ⟨rfl, hst⟩
  | error e => exact ⟨rfl, hst⟩

theorem lockstep_weaken {R' S' : σ → τ → Prop} {x : EStateM ε σ α} {y : EStateM ε τ α}
    (h : Lockstep R x y S) (hR : ∀ s t, R' s t → R s t) (hS : ∀ s t, S s t → S' s t) :
    Lockstep R' x y S' := fun s t hst =>
  ⟨(h s t (hR s t hst)).1, hS _ _ (h s t (hR s t hst)).2⟩

/-- Sequencing: the second runs start from one value and related states. -/
theorem lockstep_bind {x : EStateM ε σ α} {y : EStateM ε τ α} {f : α → EStateM ε σ β}
    {g : α → EStateM ε τ β} (hxy : Lockstep R x y S) (hfg : ∀ a, Lockstep S (f a) (g a) S) :
    Lockstep R (x >>= f) (y >>= g) S := by
  intro s t hst
  have h := hxy s t hst
  rw [bind_apply, bind_apply]
  cases hx : x s with
  | ok a s' =>
    cases hy : y t with
    | ok b t' =>
      rw [hx, hy] at h
      obtain ⟨hab, hs⟩ := h
      cases hab
      exact hfg a s' t' hs
    | error e t' =>
      rw [hx, hy] at h
      cases h.1
  | error e s' =>
    cases hy : y t with
    | ok b t' =>
      rw [hx, hy] at h
      cases h.1
    | error e' t' =>
      rw [hx, hy] at h
      obtain ⟨he, hs⟩ := h
      cases he
      exact ⟨rfl, hs⟩

/-- Two loops over one list with one accumulator. -/
theorem lockstep_foldlM {body : β → γ → EStateM ε σ β} {body' : β → γ → EStateM ε τ β} {xs : List γ}
    (h : ∀ b, ∀ x ∈ xs, Lockstep R (body b x) (body' b x) R) (b : β) :
    Lockstep R (xs.foldlM body b) (xs.foldlM body' b) R := by
  induction xs generalizing b with
  | nil => exact lockstep_pure fun _ _ hst => hst
  | cons x xs ih =>
    rw [List.foldlM_cons, List.foldlM_cons]
    exact lockstep_bind (h b x List.mem_cons_self)
      fun b' => ih (fun b y hy => h b y (List.mem_cons_of_mem x hy)) b'

/-- Runs on parts of two states, when equal parts come back equal. -/
theorem lockstep_onPart {get : σ → υ} {set : σ → υ → σ} {get' : τ → υ} {set' : τ → υ → τ}
    {x : EStateM ε υ α} (hget : ∀ s t, R s t → get s = get' t)
    (hset : ∀ s t u, R s t → R (set s u) (set' t u)) :
    Lockstep R (onPart get set x) (onPart get' set' x) R := by
  intro s t hst
  rw [onPart_apply, onPart_apply, hget s t hst]
  simp only [outcome_mapState, finalState_mapState]
  exact ⟨trivial, hset s t _ hst⟩

end LockstepRules

end LayerInference.FallibleRuns
