import LayerInference.CacheGrowth

/-!
# The transposed copy of the values

On the kernel path a cache keeps its values a second time, with the positions
of one component side by side and room for positions to come. The copy is
refilled when its room runs out and otherwise gets one column for each row.
It agrees with the values at every counted position, whatever the order of
the positions, because the room behind them stays zero like the gaps that a
jump leaves in the values.
-/

namespace LayerInference.TransposedCache

open FallibleRuns FlatVectors FloatArithmetic CpuExecutor CacheGrowth

variable {F : Type} [FloatArith F]

/-- Where the copy holds a component of a position. -/
def slot (hp : LlamaExecutorHyperparams F) (cap pos kvh d : ℕ) : ℕ :=
  pos + cap * d + cap * hp.headDim * kvh

/-- Where the values hold a component of a position. -/
def cell (hp : LlamaExecutorHyperparams F) (pos kvh d : ℕ) : ℕ :=
  pos * (hp.nHeadKv * hp.headDim) + kvh * hp.headDim + d

/-- The copy agrees with the values, and its room behind them is zero. -/
structure Transposed (hp : LlamaExecutorHyperparams F) (cache : LayerKvCache F) : Prop where
  filled : Filled (hp.nHeadKv * hp.headDim) cache
  capacity : cache.seqLen ≤ cache.vTCapacity
  length : cache.vT.length = cache.vTCapacity * (hp.nHeadKv * hp.headDim)
  layout : ∀ pos < cache.seqLen, ∀ kvh < hp.nHeadKv, ∀ d < hp.headDim,
    cache.vT.getD (slot hp cache.vTCapacity pos kvh d) 0 = cache.v.getD (cell hp pos kvh d) 0
  blank : ∀ pos, cache.seqLen ≤ pos → pos < cache.vTCapacity → ∀ kvh < hp.nHeadKv,
    ∀ d < hp.headDim, cache.vT.getD (slot hp cache.vTCapacity pos kvh d) 0 = 0

variable {hp : LlamaExecutorHyperparams F}

/-- A new cache has nothing to copy. -/
theorem transposed_empty (hp : LlamaExecutorHyperparams F) :
    Transposed hp ({} : LayerKvCache F) := by
  refine ⟨⟨?_, ?_⟩, Nat.le_refl 0, ?_, ?_, ?_⟩
  · simp only [List.length_nil, Nat.zero_mul]
  · simp only [List.length_nil, Nat.zero_mul]
  · simp only [List.length_nil, Nat.zero_mul]
  · exact fun pos hpos => absurd hpos (Nat.not_lt_zero pos)
  · exact fun pos _ hpos => absurd hpos (Nat.not_lt_zero pos)

section Slots

omit [FloatArith F]

theorem slot_eq (hp : LlamaExecutorHyperparams F) (cap pos kvh d : ℕ) :
    slot hp cap pos kvh d = pos + cap * (d + hp.headDim * kvh) := by
  rw [slot, Nat.mul_add, Nat.mul_assoc, Nat.add_assoc]

/-- Two digits are determined by the number they form. -/
theorem digits_unique {base low low' high high' : ℕ} (h : low + base * high = low' + base * high')
    (hlow : low < base) (hlow' : low' < base) : low = low' ∧ high = high' := by
  have hbase : 0 < base := by omega
  have hmod := congrArg (· % base) h
  have hdiv := congrArg (· / base) h
  simp only [Nat.add_mul_mod_self_left, Nat.mod_eq_of_lt hlow, Nat.mod_eq_of_lt hlow'] at hmod
  simp only [Nat.add_mul_div_left _ _ hbase, Nat.div_eq_of_lt hlow, Nat.div_eq_of_lt hlow',
    Nat.zero_add] at hdiv
  exact ⟨hmod, hdiv⟩

/-- Different components have different slots. -/
theorem slot_inj {cap pos pos' kvh kvh' d d' : ℕ}
    (h : slot hp cap pos kvh d = slot hp cap pos' kvh' d') (hpos : pos < cap) (hpos' : pos' < cap)
    (hd : d < hp.headDim) (hd' : d' < hp.headDim) : pos = pos' ∧ kvh = kvh' ∧ d = d' := by
  rw [slot_eq, slot_eq] at h
  obtain ⟨hsame, hcomponent⟩ := digits_unique h hpos hpos'
  obtain ⟨hdim, hhead⟩ := digits_unique hcomponent hd hd'
  exact ⟨hsame, hhead, hdim⟩

/-- The slots of a component lie in a column of the copy. -/
theorem column_le (cap : ℕ) {kvh d : ℕ} (hkvh : kvh < hp.nHeadKv) (hd : d < hp.headDim) :
    cap * d + cap * hp.headDim * kvh + cap ≤ cap * (hp.nHeadKv * hp.headDim) := by
  have hcomponent : d + hp.headDim * kvh + 1 ≤ hp.nHeadKv * hp.headDim := by
    have hheads : (kvh + 1) * hp.headDim ≤ hp.nHeadKv * hp.headDim :=
      Nat.mul_le_mul_right _ hkvh
    rw [Nat.add_mul, Nat.one_mul, Nat.mul_comm kvh] at hheads
    omega
  have hcap := Nat.mul_le_mul_left cap hcomponent
  rwa [Nat.mul_add, Nat.mul_add, Nat.mul_one, ← Nat.mul_assoc] at hcap

theorem slot_lt {cap pos kvh d : ℕ} (hpos : pos < cap) (hkvh : kvh < hp.nHeadKv)
    (hd : d < hp.headDim) : slot hp cap pos kvh d < cap * (hp.nHeadKv * hp.headDim) := by
  have hcolumn := column_le cap hkvh hd
  rw [slot]
  omega

theorem component_lt {kvh d : ℕ} (hkvh : kvh < hp.nHeadKv) (hd : d < hp.headDim) :
    kvh * hp.headDim + d < hp.nHeadKv * hp.headDim := by
  have hheads : (kvh + 1) * hp.headDim ≤ hp.nHeadKv * hp.headDim := Nat.mul_le_mul_right _ hkvh
  rw [Nat.add_mul, Nat.one_mul] at hheads
  omega

theorem mem_kvComponents {kvh d : ℕ} :
    (kvh, d) ∈ kvComponents hp ↔ kvh < hp.nHeadKv ∧ d < hp.headDim := by
  simp only [kvComponents, List.mem_flatMap, List.mem_map, List.mem_range, Prod.mk.injEq]
  constructor
  · rintro ⟨kvh', hkvh, d', hd, rfl, rfl⟩
    exact ⟨hkvh, hd⟩
  · rintro ⟨hkvh, hd⟩
    exact ⟨kvh, hkvh, d, hd, rfl, rfl⟩

end Slots

section Storing

variable {cache : LayerKvCache F} {position : ℕ} {k v : List F}

/-- The values after a row was stored: the row itself, and the old rows. -/
theorem store_values (position : ℕ) (k : List F) (pos : ℕ)
    (hcache : Filled (hp.nHeadKv * hp.headDim) cache) (hv : v.length = hp.nHeadKv * hp.headDim)
    {kvh d : ℕ} (hkvh : kvh < hp.nHeadKv) (hd : d < hp.headDim) :
    (cache.store (hp.nHeadKv * hp.headDim) position k v).v.getD (cell hp pos kvh d) 0 =
      if pos = position then v.getD (kvh * hp.headDim + d) 0
      else cache.v.getD (cell hp pos kvh d) 0 := by
  have hcomponent := component_lt hkvh hd
  have hinside : position * (hp.nHeadKv * hp.headDim) ≤ cell hp pos kvh d ∧
      cell hp pos kvh d < position * (hp.nHeadKv * hp.headDim) + v.length ↔ pos = position := by
    rw [cell, hv]
    constructor
    · rintro ⟨hle, hlt⟩
      rcases Nat.lt_trichotomy pos position with hbefore | heq | hbehind
      · have hrow := Nat.mul_le_mul_right (hp.nHeadKv * hp.headDim) (Nat.succ_le_of_lt hbefore)
        rw [Nat.succ_mul] at hrow
        omega
      · exact heq
      · have hrow := Nat.mul_le_mul_right (hp.nHeadKv * hp.headDim) (Nat.succ_le_of_lt hbehind)
        rw [Nat.succ_mul] at hrow
        omega
    · rintro rfl
      omega
  have hwritten {values : List F} (hroom : position * (hp.nHeadKv * hp.headDim) + v.length ≤
      values.length) (hsame : values.getD (cell hp pos kvh d) 0 = cache.v.getD (cell hp pos kvh d) 0) :
      (writeAt values (position * (hp.nHeadKv * hp.headDim)) v).getD (cell hp pos kvh d) 0 =
        if pos = position then v.getD (kvh * hp.headDim + d) 0
        else cache.v.getD (cell hp pos kvh d) 0 := by
    rw [writeAt_getD hroom, hsame]
    by_cases hpos : pos = position
    · rw [if_pos (hinside.mpr hpos), if_pos hpos, hpos, cell, Nat.add_assoc, Nat.add_sub_cancel_left]
    · rw [if_neg (fun h => hpos (hinside.mp h)), if_neg hpos]
  have hrow {seqLen : ℕ} (h : position + 1 ≤ seqLen) :
      position * (hp.nHeadKv * hp.headDim) + v.length ≤ seqLen * (hp.nHeadKv * hp.headDim) := by
    rw [hv, ← Nat.succ_mul]
    exact Nat.mul_le_mul_right _ h
  unfold LayerKvCache.store
  by_cases hgrow : cache.seqLen < position + 1
  · rw [if_pos hgrow]
    have hlength : cache.v.length ≤ (position + 1) * (hp.nHeadKv * hp.headDim) := by
      rw [hcache.values]
      exact Nat.mul_le_mul_right _ (Nat.le_of_lt hgrow)
    exact hwritten (by rw [resize_length]; exact hrow le_rfl) (resize_getD hlength _ _)
  · rw [if_neg hgrow]
    exact hwritten (by rw [hcache.values]; exact hrow (by omega)) rfl

/-- Behind the counted positions there is no value. -/
theorem values_behind (hcache : Filled (hp.nHeadKv * hp.headDim) cache) {pos kvh d : ℕ}
    (hpos : cache.seqLen ≤ pos) : cache.v.getD (cell hp pos kvh d) 0 = 0 := by
  have hrows := Nat.mul_le_mul_right (hp.nHeadKv * hp.headDim) hpos
  rw [List.getD_eq_default _ _ (by rw [hcache.values, cell]; omega)]

/-- Storing a row leaves the copy alone. -/
theorem store_copy (cache : LayerKvCache F) (kvDim position : ℕ) (k v : List F) :
    (cache.store kvDim position k v).vT = cache.vT ∧
      (cache.store kvDim position k v).vTCapacity = cache.vTCapacity := by
  unfold LayerKvCache.store
  split <;> exact ⟨rfl, rfl⟩

/-- The components of the first positions, in loop order. -/
def refillItems (hp : LlamaExecutorHyperparams F) (requiredSeq : ℕ) : List ((ℕ × ℕ) × ℕ) :=
  (kvComponents hp).flatMap fun component =>
    (List.range requiredSeq).map fun pos => (component, pos)

/-- The two loops of a refill store one list of items. -/
theorem refill_eq (values : List F) (cap requiredSeq : ℕ) (copy : List F) :
    (kvComponents hp).foldl (fun out component =>
      (List.range requiredSeq).foldl (fun out pos =>
        out.set (slot hp cap pos component.1 component.2)
          (values.getD (cell hp pos component.1 component.2) 0)) out) copy =
      (refillItems hp requiredSeq).foldl (fun out item =>
        out.set (slot hp cap item.2 item.1.1 item.1.2)
          (values.getD (cell hp item.2 item.1.1 item.1.2) 0)) copy := by
  rw [refillItems, List.foldl_flatMap]
  simp only [List.foldl_map]

/-- The refilled copy holds every value up to the position, and zeros behind. -/
theorem refill_getD (values : List F) {cap requiredSeq pos kvh d : ℕ} (hcap : requiredSeq ≤ cap)
    (hpos : pos < cap) (hkvh : kvh < hp.nHeadKv) (hd : d < hp.headDim) :
    ((kvComponents hp).foldl (fun out component =>
      (List.range requiredSeq).foldl (fun out pos =>
        out.set (slot hp cap pos component.1 component.2)
          (values.getD (cell hp pos component.1 component.2) 0)) out)
      (List.replicate (cap * (hp.nHeadKv * hp.headDim)) 0)).getD (slot hp cap pos kvh d) 0 =
      if pos < requiredSeq then values.getD (cell hp pos kvh d) 0 else 0 := by
  have hmem (item : (ℕ × ℕ) × ℕ) : item ∈ refillItems hp requiredSeq ↔
      item.1 ∈ kvComponents hp ∧ item.2 < requiredSeq := by
    obtain ⟨component, pos⟩ := item
    simp only [refillItems, List.mem_flatMap, List.mem_map, List.mem_range, Prod.mk.injEq]
    constructor
    · rintro ⟨component', hcomponent, pos', hpos', rfl, rfl⟩
      exact ⟨hcomponent, hpos'⟩
    · rintro ⟨hcomponent, hpos'⟩
      exact ⟨component, hcomponent, pos, hpos', rfl, rfl⟩
  -- An item at the slot of a component is the item of that component.
  have hsame (item : (ℕ × ℕ) × ℕ) (hitem : item ∈ refillItems hp requiredSeq)
      (hslot : slot hp cap item.2 item.1.1 item.1.2 = slot hp cap pos kvh d) :
      item = ((kvh, d), pos) := by
    obtain ⟨⟨kvh', d'⟩, pos'⟩ := item
    obtain ⟨hcomponent, hpos'⟩ := (hmem _).mp hitem
    obtain ⟨rfl, rfl, rfl⟩ := slot_inj hslot (by omega) hpos (mem_kvComponents.mp hcomponent).2 hd
    rfl
  have hfits : slot hp cap pos kvh d <
      (List.replicate (cap * (hp.nHeadKv * hp.headDim)) (0 : F)).length := by
    rw [List.length_replicate]
    exact slot_lt hpos hkvh hd
  rw [refill_eq]
  by_cases hnear : pos < requiredSeq
  · rw [if_pos hnear]
    refine scatter_getD ⟨((kvh, d), pos), ?_, rfl⟩ (fun item hitem hslot => ?_) hfits 0
    · exact (hmem _).mpr ⟨mem_kvComponents.mpr ⟨hkvh, hd⟩, hnear⟩
    · rw [hsame item hitem hslot]
  · rw [if_neg hnear, scatter_getD_of_ne fun item hitem hslot => ?_]
    · rw [List.getD_replicate _ (by rwa [List.length_replicate] at hfits)]
    · have hpos' := ((hmem item).mp hitem).2
      rw [hsame item hitem hslot] at hpos'
      exact hnear hpos'

/-- The copy after one column was written. -/
theorem column_getD {copy : List F} {cap : ℕ} (hlength : copy.length = cap * (hp.nHeadKv * hp.headDim))
    (hposition : position < cap) {pos kvh d : ℕ} (hpos : pos < cap) (hkvh : kvh < hp.nHeadKv)
    (hd : d < hp.headDim) :
    ((kvComponents hp).foldl (fun out component =>
      out.set (slot hp cap position component.1 component.2)
        (v.getD (component.1 * hp.headDim + component.2) 0)) copy).getD (slot hp cap pos kvh d) 0 =
      if pos = position then v.getD (kvh * hp.headDim + d) 0
      else copy.getD (slot hp cap pos kvh d) 0 := by
  by_cases heq : pos = position
  · subst heq
    rw [if_pos rfl]
    refine scatter_getD ⟨(kvh, d), mem_kvComponents.mpr ⟨hkvh, hd⟩, rfl⟩
      (fun item hitem hslot => ?_) (by rw [hlength]; exact slot_lt hpos hkvh hd) 0
    obtain ⟨kvh', d'⟩ := item
    obtain ⟨-, rfl, rfl⟩ := slot_inj hslot hpos hpos (mem_kvComponents.mp hitem).2 hd
    rfl
  · rw [if_neg heq, scatter_getD_of_ne fun item hitem hslot => ?_]
    obtain ⟨kvh', d'⟩ := item
    exact heq (slot_inj hslot hposition hpos (mem_kvComponents.mp hitem).2 hd).1.symm

/-- Storing a row and bringing the copy up to date keeps the agreement. -/
theorem transposed_step (hcache : Transposed hp cache) (position : ℕ) {k v : List F}
    (hk : k.length = hp.nHeadKv * hp.headDim) (hv : v.length = hp.nHeadKv * hp.headDim) :
    Transposed hp ((cache.store (hp.nHeadKv * hp.headDim) position k v).transpose hp position v) := by
  have hstored := grown_store cache position hk hv
  obtain ⟨hcopy, hcap⟩ := store_copy cache (hp.nHeadKv * hp.headDim) position k v
  have hvalues {pos kvh d : ℕ} (hkvh : kvh < hp.nHeadKv) (hd : d < hp.headDim) :=
    store_values position k pos hcache.filled hv hkvh hd
  have hcapacity := hcache.capacity
  have hfilled := hstored.filled hcache.filled
  have hlen := hstored.seqLen
  generalize cache.store (hp.nHeadKv * hp.headDim) position k v = stored
    at hcopy hcap hvalues hfilled hlen
  unfold LayerKvCache.transpose
  dsimp only
  by_cases hgrow : stored.vTCapacity < position + 1
  · rw [if_pos hgrow]
    have hend : stored.seqLen = position + 1 := by omega
    have hroom : position + 1 ≤ max (position + 1) (max (stored.vTCapacity * 2) 16) :=
      le_max_left _ _
    refine ⟨⟨hfilled.keys, hfilled.values⟩, ?_, ?_, ?_, ?_⟩
    · dsimp only
      omega
    · refine (congrArg List.length (refill_eq stored.v _ (position + 1) _)).trans ?_
      rw [scatter_length, List.length_replicate]
    · intro pos hpos kvh hkvh d hd
      dsimp only at hpos ⊢
      have h := refill_getD stored.v hroom (lt_of_lt_of_le hpos (hend ▸ hroom)) hkvh hd
      rw [if_pos (by omega)] at h
      exact h
    · intro pos hpos hpos' kvh hkvh d hd
      dsimp only at hpos hpos' ⊢
      have h := refill_getD stored.v hroom hpos' hkvh hd
      rw [if_neg (by omega)] at h
      exact h
  · rw [if_neg hgrow]
    have hroom : position < stored.vTCapacity := by omega
    have hlength : stored.vT.length = stored.vTCapacity * (hp.nHeadKv * hp.headDim) := by
      rw [hcopy, hcap, hcache.length]
    have hcolumn {pos kvh d : ℕ} (hpos : pos < stored.vTCapacity) (hkvh : kvh < hp.nHeadKv)
        (hd : d < hp.headDim) :=
      column_getD (v := v) hlength hroom hpos hkvh hd
    refine ⟨⟨hfilled.keys, hfilled.values⟩, ?_, ?_, ?_, ?_⟩
    · dsimp only
      omega
    · exact (scatter_length (kvComponents hp) stored.vT).trans hlength
    · intro pos hpos kvh hkvh d hd
      dsimp only at hpos ⊢
      refine (hcolumn (by omega) hkvh hd).trans ?_
      rw [hvalues hkvh hd]
      by_cases heq : pos = position
      · rw [if_pos heq, if_pos heq]
      · rw [if_neg heq, if_neg heq, hcopy, hcap]
        by_cases hold : pos < cache.seqLen
        · exact hcache.layout pos hold kvh hkvh d hd
        · rw [hcache.blank pos (by omega) (by omega) kvh hkvh d hd,
            values_behind hcache.filled (by omega)]
    · intro pos hpos hpos' kvh hkvh d hd
      dsimp only at hpos hpos' ⊢
      refine (hcolumn hpos' hkvh hd).trans ?_
      rw [if_neg (by omega), hcopy, hcap]
      exact hcache.blank pos (by omega) (by omega) kvh hkvh d hd

end Storing

end LayerInference.TransposedCache
