import LayerInference.Runs
import Mathlib.Data.Finset.Basic
import Mathlib.Data.Finset.Option
import Mathlib.Data.List.Basic

/-!
# Guards by key and their accounts

Any number of handlers share a set of keys and two counters. A handler that is
let in is counted, may take a key that is free, and is settled when it closes;
one that finds its key taken is counted and settled at once. A handler can also
be lost: it leaves without being settled, and with or without its key. The keys
are those of the handlers that have one, each of one handler only, and the
counters differ by the handlers that are not settled.
-/

namespace LayerInference.KeyedGuards

open Runs

variable {κ : Type} [DecidableEq κ]

section Model

/-- Where a handler stands. -/
inductive Point (κ : Type) where
  | idle
  /-- Counted and at work, with the key it took. -/
  | working (key : Option κ)
  | closed
  /-- Gone without being settled, with the key it did not give back. -/
  | lost (key : Option κ)

def Point.holds (k : κ) : Point κ → Bool
  | working key => key = some k
  | lost key => key = some k
  | _ => false

def Point.unsettled : Point κ → Bool
  | working _ => true
  | lost _ => true
  | _ => false

def Point.isLost : Point κ → Bool
  | lost _ => true
  | _ => false

/-- What the handlers share. -/
structure Ledger (κ : Type) where
  total : ℕ
  settled : ℕ
  keys : Finset κ

/-- What one handler does in a step. -/
inductive Change (l : Ledger κ) : Point κ → Ledger κ → Point κ → Prop where
  | stay (p : Point κ) : Change l p l p
  | refuse : Change l .idle l .closed
  | enter (key : Option κ) (free : ∀ k ∈ key, k ∉ l.keys) :
      Change l .idle { l with total := l.total + 1, keys := l.keys ∪ key.toFinset } (.working key)
  | drop : Change l .idle { l with total := l.total + 1, settled := l.settled + 1 } .closed
  | close (key : Option κ) :
      Change l (.working key) { l with settled := l.settled + 1, keys := l.keys \ key.toFinset }
        .closed
  | lose (key : Option κ) :
      Change l (.working key) { l with keys := l.keys \ key.toFinset } (.lost none)
  | leak (key : Option κ) (free : ∀ k ∈ key, k ∉ l.keys) :
      Change l .idle { l with total := l.total + 1, keys := l.keys ∪ key.toFinset } (.lost key)

/-- The ledger and the points of all handlers so far. -/
structure Guard (κ : Type) where
  ledger : Ledger κ
  points : List (Point κ)

/-- A handler arrives, or one of them makes its change. -/
inductive Step : Guard κ → Guard κ → Prop where
  | arrive (s : Guard κ) {p : Point κ} (outside : p.unsettled = false) :
      Step s { s with points := s.points ++ [p] }
  | change (s : Guard κ) {i : ℕ} {p p' : Point κ} {l' : Ledger κ} (at_i : s.points[i]? = some p)
      (hchange : Change s.ledger p l' p') : Step s ⟨l', s.points.set i p'⟩

end Model

section Counting

variable {α : Type}

/-- One entry of a list is replaced. -/
theorem countP_set_add (p : α → Bool) {l : List α} {i : ℕ} {b : α} (h : l[i]? = some b) (a : α) :
    (l.set i a).countP p + (if p b then 1 else 0) = l.countP p + (if p a then 1 else 0) := by
  induction l generalizing i with
  | nil => cases h
  | cons x l ih =>
    cases i with
    | zero =>
      cases h
      rw [List.set_cons_zero, List.countP_cons, List.countP_cons]
      omega
    | succ i =>
      have hrest := ih h
      rw [List.set_cons_succ, List.countP_cons, List.countP_cons]
      omega

/-- What is counted once stands at one place. -/
theorem eq_of_countP_le_one {p : α → Bool} {l : List α} (h : l.countP p ≤ 1) {i j : ℕ} {a b : α}
    (hi : l[i]? = some a) (hj : l[j]? = some b) (ha : p a = true) (hb : p b = true) : i = j := by
  induction l generalizing i j with
  | nil => cases hi
  | cons x l ih =>
    rw [List.countP_cons] at h
    cases i with
    | zero =>
      cases j with
      | zero => rfl
      | succ j =>
        cases hi
        have hpos : 0 < l.countP p := List.countP_pos_iff.mpr ⟨b, List.mem_of_getElem? hj, hb⟩
        rw [if_pos ha] at h
        omega
    | succ i =>
      have hpos : 0 < l.countP p := List.countP_pos_iff.mpr ⟨a, List.mem_of_getElem? hi, ha⟩
      cases j with
      | zero =>
        cases hj
        rw [if_pos hb] at h
        omega
      | succ j => rw [ih (by omega) hi hj]

end Counting

section Invariant

/-- The keys are those that some handler has, and the counters differ by the
handlers that are not settled. -/
structure Balanced (s : Guard κ) : Prop where
  locks : ∀ k, s.points.countP (Point.holds k) = if k ∈ s.ledger.keys then 1 else 0
  totals : s.ledger.total = s.ledger.settled + s.points.countP Point.unsettled

theorem Balanced.mem_keys {s : Guard κ} (h : Balanced s) {p : Point κ} (hp : p ∈ s.points) {k : κ}
    (hk : p.holds k = true) : k ∈ s.ledger.keys := by
  have hpos : 0 < s.points.countP (Point.holds k) := List.countP_pos_iff.mpr ⟨p, hp, hk⟩
  by_contra hnot
  rw [h.locks k, if_neg hnot] at hpos
  exact Nat.lt_irrefl 0 hpos

theorem mem_take {keys : Finset κ} {key : Option κ} {k : κ} :
    k ∈ keys ∪ key.toFinset ↔ k ∈ keys ∨ key = some k := by
  rw [Finset.mem_union, Option.mem_toFinset, Option.mem_def]

theorem mem_giveBack {keys : Finset κ} {key : Option κ} {k : κ} :
    k ∈ keys \ key.toFinset ↔ k ∈ keys ∧ key ≠ some k := by
  rw [Finset.mem_sdiff, Option.mem_toFinset, Option.mem_def]

/-- A handler that takes a key takes one that is free. -/
theorem take_count {keys : Finset κ} {key : Option κ} (free : ∀ k ∈ key, k ∉ keys) (k : κ) :
    (if key = some k then 1 else 0) + (if k ∈ keys then 1 else 0) =
      0 + if k ∈ keys ∪ key.toFinset then 1 else 0 := by
  simp only [mem_take]
  by_cases hkey : key = some k
  · have hfree : k ∉ keys := free k hkey
    rw [if_pos hkey, if_neg hfree, if_pos (Or.inr hkey)]
  · by_cases hmem : k ∈ keys
    · rw [if_neg hkey, if_pos hmem, if_pos (Or.inl hmem)]
    · have hnone : ¬(k ∈ keys ∨ key = some k) := fun h => h.elim hmem hkey
      rw [if_neg hkey, if_neg hmem, if_neg hnone]

/-- A handler that gives its key back leaves the other keys. -/
theorem giveBack_count {keys : Finset κ} {key : Option κ} {k : κ} (hmem : key = some k → k ∈ keys) :
    0 + (if k ∈ keys then 1 else 0) =
      (if key = some k then 1 else 0) + if k ∈ keys \ key.toFinset then 1 else 0 := by
  simp only [mem_giveBack]
  by_cases hkey : key = some k
  · rw [if_pos hkey, if_pos (hmem hkey), if_neg fun h => h.2 hkey]
  · by_cases hin : k ∈ keys
    · rw [if_neg hkey, if_pos hin, if_pos ⟨hin, hkey⟩]
    · rw [if_neg hkey, if_neg hin, if_neg fun h => hin h.1]

/-- A change moves a key between the ledger and the handler. -/
theorem Change.locks {l l' : Ledger κ} {p p' : Point κ} (h : Change l p l' p') {k : κ}
    (hmem : p.holds k = true → k ∈ l.keys) :
    (if p'.holds k then 1 else 0) + (if k ∈ l.keys then 1 else 0) =
      (if p.holds k then 1 else 0) + (if k ∈ l'.keys then 1 else 0) := by
  cases h with
  | stay => rfl
  | refuse => rfl
  | enter key free => simpa only [Point.holds, decide_eq_true_eq, Bool.false_eq_true, reduceCtorEq, if_false] using take_count free k
  | drop => rfl
  | close key =>
    have hkey : key = some k → k ∈ l.keys := fun heq => hmem (decide_eq_true heq)
    simpa only [Point.holds, decide_eq_true_eq, Bool.false_eq_true, reduceCtorEq, if_false] using giveBack_count hkey
  | lose key =>
    have hkey : key = some k → k ∈ l.keys := fun heq => hmem (decide_eq_true heq)
    simpa only [Point.holds, decide_eq_true_eq, Bool.false_eq_true, reduceCtorEq, if_false] using giveBack_count hkey
  | leak key free => simpa only [Point.holds, decide_eq_true_eq, Bool.false_eq_true, reduceCtorEq, if_false] using take_count free k

/-- A change counts a handler with its arrival and settles it with its end. -/
theorem Change.totals {l l' : Ledger κ} {p p' : Point κ} (h : Change l p l' p') :
    l'.total + l.settled + (if p.unsettled then 1 else 0) =
      l.total + l'.settled + (if p'.unsettled then 1 else 0) := by
  cases h with
  | stay => rfl
  | refuse => rfl
  | enter key => simp only [Point.unsettled, Bool.false_eq_true, if_true, if_false]; omega
  | drop => simp only [Point.unsettled, Bool.false_eq_true, if_false]; omega
  | close key => simp only [Point.unsettled, Bool.false_eq_true, if_true, if_false]; omega
  | lose key => simp only [Point.unsettled]
  | leak key => simp only [Point.unsettled, Bool.false_eq_true, if_true, if_false]; omega

theorem Step.balanced {s s' : Guard κ} (hs : Step s s') (h : Balanced s) : Balanced s' := by
  cases hs with
  | @arrive p outside =>
    have hfree : ∀ k, p.holds k = false := by
      intro k
      cases p with
      | idle => rfl
      | closed => rfl
      | working => cases outside
      | lost => cases outside
    constructor
    · intro k
      rw [List.countP_append, List.countP_singleton, hfree, if_neg Bool.false_ne_true]
      exact h.locks k
    · rw [List.countP_append, List.countP_singleton, outside, if_neg Bool.false_ne_true]
      exact h.totals
  | @change i p p' l' at_i hchange =>
    have hin := List.mem_of_getElem? at_i
    constructor
    · intro k
      have hcount := countP_set_add (Point.holds k) at_i p'
      have hmem : p.holds k = true → k ∈ s.ledger.keys := h.mem_keys hin
      have hlocks := hchange.locks hmem
      have hbefore := h.locks k
      change (s.points.set i p').countP (Point.holds k) = if k ∈ l'.keys then 1 else 0
      omega
    · have hcount := countP_set_add Point.unsettled at_i p'
      have htotals := hchange.totals
      have hbefore := h.totals
      change l'.total = l'.settled + (s.points.set i p').countP Point.unsettled
      omega

end Invariant

section Consequences

variable {s : Guard κ}

/-- A key is with one handler at most. -/
theorem Balanced.exclusive (h : Balanced s) {i j : ℕ} {p q : Point κ} (hi : s.points[i]? = some p)
    (hj : s.points[j]? = some q) {k : κ} (hp : p.holds k = true) (hq : q.holds k = true) :
    i = j := by
  have hle : s.points.countP (Point.holds k) ≤ 1 := by
    rw [h.locks k]
    split
    · exact Nat.le_refl 1
    · exact Nat.zero_le 1
  exact eq_of_countP_le_one hle hi hj hp hq

/-- Where nobody is at work, the accounts are even and no key is taken exactly
if no handler was lost. -/
theorem Balanced.even_iff (h : Balanced s)
    (hrest : ∀ p ∈ s.points, p.unsettled = true → p.isLost = true) :
    s.ledger.keys = ∅ ∧ s.ledger.total = s.ledger.settled ↔ s.points.countP Point.isLost = 0 := by
  have hsame : s.points.countP Point.unsettled = s.points.countP Point.isLost := by
    refine List.countP_congr fun p hp => ⟨hrest p hp, fun hlost => ?_⟩
    cases p with
    | lost => rfl
    | _ => exact absurd hlost Bool.false_ne_true
  have htotals := h.totals
  constructor
  · rintro ⟨-, heven⟩
    omega
  · intro hzero
    refine ⟨?_, by omega⟩
    rw [Finset.eq_empty_iff_forall_notMem]
    intro k hk
    have hcount := h.locks k
    rw [if_pos hk] at hcount
    have hone : 0 < s.points.countP (Point.holds k) := by omega
    obtain ⟨p, hp, hholds⟩ := List.countP_pos_iff.mp hone
    have hunsettled : p.unsettled = true := by
      cases p with
      | working => rfl
      | lost => rfl
      | _ => exact absurd hholds Bool.false_ne_true
    have hpos : 0 < s.points.countP Point.unsettled :=
      List.countP_pos_iff.mpr ⟨p, hp, hunsettled⟩
    omega

end Consequences

end LayerInference.KeyedGuards
