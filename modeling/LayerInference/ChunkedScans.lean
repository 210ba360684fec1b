import Mathlib.Data.List.Basic

/-!
# Scanning a stream in chunks

A scanner sees a stream at the ends of its chunks only and stops at the first
end where what it has seen decides something. Where the stream decides from
one length on, a scan stops less than one chunk behind this length, and it may
stop anywhere there.
-/

namespace LayerInference.ChunkedScans

variable {β γ : Type*}

/-- A way of cutting a stream into chunks of at most `limit` elements. -/
structure Cut (limit : ℕ) (stream : List β) (chunks : List (List β)) : Prop where
  whole : chunks.flatten = stream
  sized : ∀ chunk ∈ chunks, chunk ≠ [] ∧ chunk.length ≤ limit

/-- The first verdict at the end of a chunk, with the chunks behind it. -/
def scan (verdict : List β → Option γ) (seen : List β) :
    List (List β) → Option (γ × List (List β))
  | [] => none
  | chunk :: chunks =>
    match verdict (seen ++ chunk) with
    | none => scan verdict (seen ++ chunk) chunks
    | some result => some (result, chunks)

section Cuts

variable {limit : ℕ} {stream : List β}

theorem Cut.cons {chunk : List β} {chunks : List (List β)} (hne : chunk ≠ [])
    (hle : chunk.length ≤ limit) (h : Cut limit stream chunks) :
    Cut limit (chunk ++ stream) (chunk :: chunks) where
  whole := by rw [List.flatten_cons, h.whole]
  sized := by
    intro other hother
    cases hother with
    | head => exact ⟨hne, hle⟩
    | tail _ hmem => exact h.sized other hmem

theorem Cut.nonempty {chunks : List (List β)} (h : Cut limit stream chunks) :
    ∀ chunk ∈ chunks, chunk ≠ [] :=
  fun chunk hmem => (h.sized chunk hmem).1

theorem Cut.append {rest : List β} {chunks others : List (List β)}
    (h : Cut limit stream chunks) (hrest : Cut limit rest others) :
    Cut limit (stream ++ rest) (chunks ++ others) where
  whole := by rw [List.flatten_append, h.whole, hrest.whole]
  sized := by
    intro chunk hmem
    cases List.mem_append.mp hmem with
    | inl hleft => exact h.sized chunk hleft
    | inr hright => exact hrest.sized chunk hright

/-- Chunks of one element each. -/
def singles (stream : List β) : List (List β) := stream.map fun element => [element]

theorem cut_singles (hlimit : 0 < limit) (stream : List β) :
    Cut limit stream (singles stream) where
  whole := by
    unfold singles
    induction stream with
    | nil => rfl
    | cons element stream ih => rw [List.map_cons, List.flatten_cons, ih]; rfl
  sized := by
    intro chunk hmem
    obtain ⟨element, -, rfl⟩ := List.mem_map.mp hmem
    exact ⟨List.cons_ne_nil _ _, hlimit⟩

theorem exists_cut (hlimit : 0 < limit) (stream : List β) : ∃ chunks, Cut limit stream chunks :=
  ⟨singles stream, cut_singles hlimit stream⟩

end Cuts

section Scans

variable {verdict : List β → Option γ} {limit : ℕ} {stream : List β}

theorem scan_cons_of_none {seen chunk : List β} (h : verdict (seen ++ chunk) = none)
    (chunks : List (List β)) :
    scan verdict seen (chunk :: chunks) = scan verdict (seen ++ chunk) chunks := by
  rw [scan, h]

theorem scan_cons_of_some {seen chunk : List β} {result : γ}
    (h : verdict (seen ++ chunk) = some result) (chunks : List (List β)) :
    scan verdict seen (chunk :: chunks) = some (result, chunks) := by
  rw [scan, h]

/-- What a scan returns is the verdict on a longer start of the stream. -/
theorem scan_some {seen : List β} {chunks rest : List (List β)} {result : γ}
    (h : scan verdict seen chunks = some (result, rest)) :
    ∃ more, more <+: chunks.flatten ∧ verdict (seen ++ more) = some result := by
  induction chunks generalizing seen with
  | nil => cases h
  | cons chunk chunks ih =>
    rw [List.flatten_cons]
    cases hverdict : verdict (seen ++ chunk) with
    | none =>
      rw [scan_cons_of_none hverdict] at h
      obtain ⟨more, hstart, hmore⟩ := ih h
      rw [List.append_assoc] at hmore
      exact ⟨chunk ++ more, (List.prefix_append_right_inj chunk).mpr hstart, hmore⟩
    | some other =>
      rw [scan_cons_of_some hverdict] at h
      cases h
      exact ⟨chunk, List.prefix_append _ _, hverdict⟩

/-- A scan passes over single elements that decide nothing. -/
theorem scan_singles {seen start : List β}
    (hopen : ∀ i, 0 < i → i ≤ start.length → verdict (seen ++ start.take i) = none)
    (chunks : List (List β)) :
    scan verdict seen (singles start ++ chunks) = scan verdict (seen ++ start) chunks := by
  induction start generalizing seen with
  | nil => rw [List.append_nil]; rfl
  | cons element start ih =>
    have hfirst : verdict (seen ++ [element]) = none :=
      hopen 1 Nat.one_pos (Nat.succ_le_succ (Nat.zero_le _))
    have hnext : ∀ i, 0 < i → i ≤ start.length →
        verdict (seen ++ [element] ++ start.take i) = none := by
      intro i _ hle
      have hlater := hopen (i + 1) (Nat.succ_pos i) (Nat.succ_le_succ hle)
      rw [List.append_assoc]
      exact hlater
    have hrest := ih hnext
    rw [List.append_assoc] at hrest
    exact (scan_cons_of_none hfirst _).trans hrest

/-- A stream that decides nothing is scanned to its end. -/
theorem scan_open (hopen : ∀ i, 0 < i → i ≤ stream.length → verdict (stream.take i) = none)
    {chunks : List (List β)} (hcut : Cut limit stream chunks) : scan verdict [] chunks = none := by
  have hscan (seen : List β) (hall : seen ++ chunks.flatten = stream)
      (hsized : ∀ chunk ∈ chunks, chunk ≠ []) : scan verdict seen chunks = none := by
    clear hcut
    induction chunks generalizing seen with
    | nil => rfl
    | cons chunk chunks ih =>
      rw [List.flatten_cons, ← List.append_assoc] at hall
      have hpos := List.length_pos_iff.mpr (hsized chunk List.mem_cons_self)
      have htake : stream.take (seen ++ chunk).length = seen ++ chunk := by
        rw [← hall]
        exact List.take_left
      have hnone := hopen (seen ++ chunk).length (by rw [List.length_append]; omega)
        (by rw [← hall]; exact (List.prefix_append _ _).length_le)
      rw [htake] at hnone
      rw [scan_cons_of_none hnone]
      exact ih (seen ++ chunk) hall fun other hmem => hsized other (List.mem_cons_of_mem _ hmem)
  exact hscan [] hcut.whole hcut.nonempty

/-- From `start` elements on, for one chunk, the stream has this result. -/
def DecidesAt (verdict : List β → Option γ) (limit : ℕ) (stream : List β) (start : ℕ)
    (result : γ) : Prop :=
  ∀ i, 0 < i → i ≤ stream.length → i < start + limit →
    verdict (stream.take i) = if i < start then none else some result

variable {start : ℕ} {result : γ}

/-- A scan stops less than one chunk behind the deciding element. -/
theorem scan_decides (hdecides : DecidesAt verdict limit stream start result) (hstart : 0 < start)
    (hle : start ≤ stream.length) {chunks : List (List β)} (hcut : Cut limit stream chunks) :
    ∃ k rest, k < limit ∧ Cut limit (stream.drop (start + k)) rest ∧
      scan verdict [] chunks = some (result, rest) := by
  have hscan (seen : List β) (hall : seen ++ chunks.flatten = stream)
      (hseen : seen.length < start)
      (hsized : ∀ chunk ∈ chunks, chunk ≠ [] ∧ chunk.length ≤ limit) :
      ∃ k rest, k < limit ∧ Cut limit (stream.drop (start + k)) rest ∧
        scan verdict seen chunks = some (result, rest) := by
    clear hcut
    induction chunks generalizing seen with
    | nil =>
      rw [List.flatten_nil, List.append_nil] at hall
      rw [hall] at hseen
      exact absurd hle (Nat.not_le.mpr hseen)
    | cons chunk chunks ih =>
      rw [List.flatten_cons, ← List.append_assoc] at hall
      obtain ⟨hne, hlimit⟩ := hsized chunk List.mem_cons_self
      have hpos := List.length_pos_iff.mpr hne
      have hlength : (seen ++ chunk).length = seen.length + chunk.length := List.length_append
      have htotal : (seen ++ chunk).length ≤ stream.length := by
        rw [← hall]
        exact (List.prefix_append _ _).length_le
      have htake : stream.take (seen ++ chunk).length = seen ++ chunk := by
        rw [← hall]
        exact List.take_left
      have hverdict := hdecides (seen ++ chunk).length (by omega) htotal (by omega)
      have hrest : ∀ other ∈ chunks, other ≠ [] ∧ other.length ≤ limit :=
        fun other hmem => hsized other (List.mem_cons_of_mem _ hmem)
      rw [htake] at hverdict
      by_cases hbefore : (seen ++ chunk).length < start
      · rw [if_pos hbefore] at hverdict
        rw [scan_cons_of_none hverdict]
        exact ih (seen ++ chunk) hall hbefore hrest
      · rw [if_neg hbefore] at hverdict
        refine ⟨(seen ++ chunk).length - start, chunks, by omega, ⟨?_, hrest⟩,
          scan_cons_of_some hverdict chunks⟩
        have hposition : start + ((seen ++ chunk).length - start) = (seen ++ chunk).length := by
          omega
        rw [hposition, ← hall, List.drop_left]
  exact hscan [] hcut.whole hstart hcut.sized

/-- A scan may pass over `before` elements that decide nothing and take the
next ones in one chunk. -/
theorem scan_jump {before size : ℕ} (hlimit : 0 < limit) (hpos : 0 < size) (hsize : size ≤ limit)
    (hle : before + size ≤ stream.length)
    (hopen : ∀ i, 0 < i → i ≤ before → verdict (stream.take i) = none)
    {rest : List (List β)} (hrest : Cut limit (stream.drop (before + size)) rest) :
    ∃ chunks, Cut limit stream chunks ∧
      scan verdict [] chunks =
        scan verdict (stream.take before) ((stream.drop before).take size :: rest) := by
  have hlength : ((stream.drop before).take size).length = size := by
    rw [List.length_take, List.length_drop]
    omega
  have hne : (stream.drop before).take size ≠ [] := by
    rw [← List.length_pos_iff, hlength]
    exact hpos
  have hcut := (cut_singles hlimit (stream.take before)).append
    (Cut.cons hne (Nat.le_trans (Nat.le_of_eq hlength) hsize) hrest)
  have hstream : stream.take before ++
      ((stream.drop before).take size ++ stream.drop (before + size)) = stream := by
    rw [← List.drop_drop, List.take_append_drop, List.take_append_drop]
  rw [hstream] at hcut
  refine ⟨_, hcut, ?_⟩
  refine scan_singles ?_ _
  intro i hi hbefore
  rw [List.length_take] at hbefore
  rw [List.nil_append, List.take_take, Nat.min_eq_left (by omega)]
  exact hopen i hi (by omega)

/-- A scan may stop anywhere less than one chunk behind the deciding element. -/
theorem exists_scan_decides (hdecides : DecidesAt verdict limit stream start result)
    (hstart : 0 < start) {k : ℕ} (hk : k < limit) (hle : start + k ≤ stream.length)
    {rest : List (List β)} (hrest : Cut limit (stream.drop (start + k)) rest) :
    ∃ chunks, Cut limit stream chunks ∧ scan verdict [] chunks = some (result, rest) := by
  have hend : start - 1 + (k + 1) = start + k := by omega
  have hopen : ∀ i, 0 < i → i ≤ start - 1 → verdict (stream.take i) = none := by
    intro i hi hbefore
    rw [hdecides i hi (by omega) (by omega), if_pos (by omega)]
  rw [← hend] at hle hrest
  obtain ⟨chunks, hcut, hscan⟩ :=
    scan_jump (by omega) (Nat.succ_pos k) hk hle hopen hrest
  have hseen : stream.take (start - 1) ++ (stream.drop (start - 1)).take (k + 1) =
      stream.take (start + k) := by
    rw [← hend]
    exact List.take_add.symm
  have hverdict := hdecides (start + k) (by omega) (by omega) (by omega)
  rw [if_neg (by omega), ← hseen] at hverdict
  exact ⟨chunks, hcut, hscan.trans (scan_cons_of_some hverdict rest)⟩

end Scans

end LayerInference.ChunkedScans
