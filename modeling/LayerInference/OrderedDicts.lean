import Mathlib.Data.List.Nodup

/-!
# Ordered dictionaries

A dictionary that remembers the order of its keys, with the operations that a
cache with a limit needs: assignment moves a key to the end, and the entries
at the front are dropped while there are too many. A lookup of a key that was
not touched can only lose its value.
-/

namespace LayerInference.OrderedDicts

/-- Entries from the front to the end, each key once. -/
structure OrderedDict (κ α : Type) where
  entries : List (κ × α)
  distinct : (entries.map Prod.fst).Nodup

namespace OrderedDict

variable {κ α : Type} [DecidableEq κ]

def empty : OrderedDict κ α := ⟨[], List.nodup_nil⟩

def get? (d : OrderedDict κ α) (key : κ) : Option α := d.entries.lookup key

/-- Remove a key, if it is there. -/
def pop (d : OrderedDict κ α) (key : κ) : OrderedDict κ α where
  entries := d.entries.filter (·.1 ≠ key)
  distinct := d.distinct.sublist (List.filter_sublist.map _)

/-- A key is not among those that are left without it. -/
theorem key_not_mem_pop (d : OrderedDict κ α) (key : κ) :
    key ∉ (d.pop key).entries.map Prod.fst := by
  intro hmem
  obtain ⟨entry, hentry, hkey⟩ := List.mem_map.mp hmem
  have hne := (List.mem_filter.mp hentry).2
  rw [decide_eq_true_eq] at hne
  exact hne hkey

/-- Assign a value to a key and move the key to the end. -/
def putLast (d : OrderedDict κ α) (key : κ) (value : α) : OrderedDict κ α where
  entries := (d.pop key).entries ++ [(key, value)]
  distinct := by
    rw [List.map_append, List.nodup_append]
    refine ⟨(d.pop key).distinct, List.nodup_singleton _, ?_⟩
    intro other hother last hlast heq
    rw [List.map_singleton, List.mem_singleton] at hlast
    rw [heq, hlast] at hother
    exact key_not_mem_pop d key hother

/-- Move a key to the end, if it is there. -/
def moveToEnd (d : OrderedDict κ α) (key : κ) : OrderedDict κ α :=
  match d.get? key with
  | some value => d.putLast key value
  | none => d

/-- Drop entries from the front until at most `limit` are left. -/
def trimEntries (limit : ℕ) : List (κ × α) → List (κ × α)
  | [] => []
  | entry :: rest =>
    if limit < (entry :: rest).length then trimEntries limit rest else entry :: rest

omit [DecidableEq κ] in
theorem trimEntries_suffix (limit : ℕ) (entries : List (κ × α)) :
    trimEntries limit entries <:+ entries := by
  induction entries with
  | nil => exact List.suffix_rfl
  | cons entry rest ih =>
    unfold trimEntries
    split
    · exact ih.trans (List.suffix_cons entry rest)
    · exact List.suffix_rfl

def trim (limit : ℕ) (d : OrderedDict κ α) : OrderedDict κ α where
  entries := trimEntries limit d.entries
  distinct := d.distinct.sublist ((trimEntries_suffix limit d.entries).sublist.map _)

def size (d : OrderedDict κ α) : ℕ := d.entries.length

@[simp] theorem get?_empty (key : κ) : (empty : OrderedDict κ α).get? key = none := rfl

/-- A filter that keeps a key keeps its value. -/
theorem lookup_filter (entries : List (κ × α)) {keep : κ × α → Bool} {key : κ}
    (hkeep : ∀ value, keep (key, value) = true) :
    (entries.filter keep).lookup key = entries.lookup key := by
  induction entries with
  | nil => rfl
  | cons entry rest ih =>
    obtain ⟨first, value⟩ := entry
    by_cases hkey : key = first
    · subst hkey
      rw [List.filter_cons_of_pos (hkeep value), List.lookup_cons_self, List.lookup_cons_self]
    · have hbeq : (key == first) = false := beq_eq_false_iff_ne.mpr hkey
      rw [List.filter_cons, List.lookup_cons, hbeq]
      split
      · rw [List.lookup_cons, hbeq]
        exact ih
      · exact ih

theorem lookup_eq_none {entries : List (κ × α)} {key : κ} (h : key ∉ entries.map Prod.fst) :
    entries.lookup key = none := by
  rw [List.lookup_eq_none_iff]
  intro entry hentry
  have hne : key ≠ entry.1 := fun heq => h (List.mem_map.mpr ⟨entry, hentry, heq.symm⟩)
  exact bne_iff_ne.mpr hne

theorem mem_of_get? {d : OrderedDict κ α} {key : κ} {value : α} (h : d.get? key = some value) :
    (key, value) ∈ d.entries := by
  obtain ⟨before, after, hentries, -⟩ := List.lookup_eq_some_iff.mp h
  rw [hentries]
  exact List.mem_append_right _ List.mem_cons_self

theorem get?_of_mem {d : OrderedDict κ α} {key : κ} {value : α} (h : (key, value) ∈ d.entries) :
    d.get? key = some value := by
  obtain ⟨before, after, hentries⟩ := List.append_of_mem h
  have hdistinct := d.distinct
  rw [hentries, List.map_append, List.nodup_append] at hdistinct
  refine List.lookup_eq_some_iff.mpr ⟨before, after, hentries, fun entry hentry => ?_⟩
  rw [bne_iff_ne]
  exact (hdistinct.2.2 entry.1 (List.mem_map_of_mem hentry) key List.mem_cons_self).symm

@[simp] theorem get?_pop_self (d : OrderedDict κ α) (key : κ) : (d.pop key).get? key = none :=
  lookup_eq_none (key_not_mem_pop d key)

theorem get?_pop_other (d : OrderedDict κ α) {key other : κ} (h : other ≠ key) :
    (d.pop key).get? other = d.get? other :=
  lookup_filter d.entries fun _ => decide_eq_true h

@[simp] theorem get?_putLast_self (d : OrderedDict κ α) (key : κ) (value : α) :
    (d.putLast key value).get? key = some value := by
  have hnone : (d.pop key).entries.lookup key = none := get?_pop_self d key
  unfold get? putLast
  rw [List.lookup_append, hnone, List.lookup_cons_self]
  rfl

theorem get?_putLast_other (d : OrderedDict κ α) {key other : κ} (value : α) (h : other ≠ key) :
    (d.putLast key value).get? other = d.get? other := by
  have hpop : (d.pop key).entries.lookup other = d.get? other := get?_pop_other d h
  have hbeq : (other == key) = false := beq_eq_false_iff_ne.mpr h
  unfold get? putLast
  rw [List.lookup_append, hpop, List.lookup_cons, hbeq]
  exact Option.or_none

@[simp] theorem get?_moveToEnd (d : OrderedDict κ α) (key other : κ) :
    (d.moveToEnd key).get? other = d.get? other := by
  unfold moveToEnd
  cases hget : d.get? key with
  | none => rfl
  | some value =>
    by_cases heq : other = key
    · rw [heq, hget]
      exact get?_putLast_self d key value
    · exact get?_putLast_other d value heq

/-- Dropping entries from the front loses a key or keeps its value. -/
theorem get?_trim (limit : ℕ) (d : OrderedDict κ α) (key : κ) :
    (d.trim limit).get? key = none ∨ (d.trim limit).get? key = d.get? key := by
  obtain ⟨front, hfront⟩ := trimEntries_suffix limit d.entries
  by_cases hmem : key ∈ (trimEntries limit d.entries).map Prod.fst
  · right
    have hdistinct := d.distinct
    rw [← hfront, List.map_append, List.nodup_append] at hdistinct
    have hnone : front.lookup key = none :=
      lookup_eq_none fun hin => hdistinct.2.2 key hin key hmem rfl
    have hlookup : d.entries.lookup key = (trimEntries limit d.entries).lookup key := by
      conv_lhs => rw [← hfront, List.lookup_append, hnone]
      rfl
    exact hlookup.symm
  · exact Or.inl (lookup_eq_none hmem)

/-- What is left was there before. -/
theorem get?_of_trim {limit : ℕ} {d : OrderedDict κ α} {key : κ} {value : α}
    (h : (d.trim limit).get? key = some value) : d.get? key = some value := by
  rcases get?_trim limit d key with hnone | hsame
  · rw [hnone] at h
    cases h
  · rw [← hsame, h]

/-- The last entry stays as long as one is allowed. -/
theorem get?_trim_putLast {limit : ℕ} (hlimit : 0 < limit) (d : OrderedDict κ α) (key : κ)
    (value : α) : ((d.putLast key value).trim limit).get? key = some value := by
  have hmem : ∀ entries : List (κ × α),
      key ∈ (trimEntries limit (entries ++ [(key, value)])).map Prod.fst := by
    intro entries
    induction entries with
    | nil =>
      have hlen : ¬limit < [(key, value)].length := Nat.not_lt.mpr hlimit
      rw [List.nil_append, trimEntries, if_neg hlen]
      exact List.mem_singleton_self key
    | cons entry rest ih =>
      rw [List.cons_append, trimEntries]
      split
      · exact ih
      · rw [List.map_cons, List.map_append]
        exact List.mem_cons_of_mem _ (List.mem_append_right _ (List.mem_singleton_self key))
  rcases get?_trim limit (d.putLast key value) key with hnone | hsame
  · have hin : key ∈ ((d.putLast key value).trim limit).entries.map Prod.fst := hmem _
    obtain ⟨entry, hentry, hkey⟩ := List.mem_map.mp hin
    have hne := List.lookup_eq_none_iff.mp hnone entry hentry
    rw [hkey] at hne
    exact absurd rfl (bne_iff_ne.mp hne)
  · rw [hsame, get?_putLast_self]

end OrderedDict

end LayerInference.OrderedDicts
