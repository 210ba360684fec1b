import LayerInference.HistoryStore

/-!
# Interleaved history calls

The load marks the store as loaded before it has read the file. A write that is
queued meanwhile numbers its records from one again and reaches a file that is
read afterwards. Where no write is queued during the load, every interleaving
keeps the ids apart and the entries equal to the end of the file.
-/

namespace LayerInference.HistoryInterleaving

open ByteStrings LineRecords Runs HistoryStore

variable {β : Type} {codec : LineCodec (HistoryRecord β)} {maxEntries : ℕ}

section Functions

/-- The contents that normalization accepts. -/
def accepted (records : List (Option β)) : List β := records.filterMap id

/-- A call that changes the store. -/
def Request.writes : Request β → Bool
  | .append records => !(accepted records).isEmpty
  | .delete ids all => all || !(normalizedIds ids).isEmpty
  | .get _ => false

/-- How many ids a call takes. -/
def Request.allocations : Request β → ℕ
  | .append records => (accepted records).length
  | _ => 0

/-- A call that loads the file. -/
def Phase.loading : Phase β → Bool
  | .makingDir | .reading | .parsing _ => true
  | _ => false

/-- No write is queued while the file is loaded, and ids stay exact. -/
def Orderly (s : HistoryState β) (e : HistoryEvent β) : Prop :=
  ∀ i request, e = .advance i → s.calls i = some ⟨request, .ready⟩ → Request.writes request = true →
    (∀ j c, s.calls j = some c → Phase.loading c.phase = false) ∧
      s.nextSeq + Request.allocations request ≤ 2 ^ 53

/-- The records of a link. -/
def workRecords : Work β → List (HistoryRecord β)
  | .push records => records
  | .remove _ _ => []

/-- The links whose effect on the entries is still to come. -/
def pendingLinks (s : HistoryState β) : List (Link β) :=
  match s.phase with
  | .compacting _ => s.chain.tail
  | _ => s.chain

def pendingRecords (s : HistoryState β) : List (HistoryRecord β) :=
  (pendingLinks s).flatMap fun link => workRecords link.work

theorem allocate_isEmpty (nextSeq : ℕ) (records : List (Option β)) :
    (allocate nextSeq records).1.isEmpty = (accepted records).isEmpty := by
  induction records with
  | nil => rfl
  | cons record records ih =>
    cases record with
    | none => exact ih
    | some content => rfl

/-- What was numbered is behind all ids that were loaded, unless numbers ran out. -/
theorem seqAfter_foldl (records : List (HistoryRecord β)) {nextSeq : ℕ} :
    2 ^ 53 ≤ records.foldl seqAfter nextSeq ∨ nextSeq ≤ records.foldl seqAfter nextSeq ∧
      ∀ r ∈ records, r.id < records.foldl seqAfter nextSeq := by
  induction records generalizing nextSeq with
  | nil => exact .inr ⟨le_rfl, fun r hr => by cases hr⟩
  | cons r records ih =>
    rw [List.foldl_cons]
    rcases @ih (seqAfter nextSeq r) with hlarge | ⟨hle, hall⟩
    · exact .inl hlarge
    · have hr : 2 ^ 53 ≤ seqAfter nextSeq r ∨ nextSeq ≤ seqAfter nextSeq r ∧
          r.id < seqAfter nextSeq r := by
        unfold seqAfter
        split
        · next hge =>
          rcases Nat.lt_or_ge r.id (2 ^ 53) with hlt | hlarge
          · rw [numberSucc_of_lt hlt]
            omega
          · exact .inl (le_toNumber (by omega))
        · omega
      rcases hr with hlarge | ⟨hnext, hlt⟩
      · exact .inl (hlarge.trans hle)
      · refine .inr ⟨hnext.trans hle, fun r' hr' => ?_⟩
        rcases List.mem_cons.mp hr' with rfl | hmem
        · exact hlt.trans_le hle
        · exact hall r' hmem

/-- An append keeps the last records. -/
theorem applyWork_push (entries records : List (HistoryRecord β)) :
    applyWork maxEntries entries (.push records) = lastN maxEntries (entries ++ records) := by
  rw [applyWork]
  split
  · rfl
  · next h => rw [lastN_of_le (not_lt.mp h)]

theorem records_chunk (records : List (HistoryRecord β)) :
    codec.records (chunk codec records) = records := by
  by_cases h : records = []
  · subst h
    change codec.records ([] ++ newline :: []) = []
    rw [LineCodec.records, splitLines_append, List.filterMap_append]
    change codec.records [] ++ codec.records [] = []
    rw [codec.records_nil, List.append_nil]
  · rw [chunk, codec.intercalate_lines h, codec.records_lines]

theorem terminated_chunk (records : List (HistoryRecord β)) :
    Terminated (chunk codec records) := .inr ⟨_, rfl⟩

/-- Compaction writes the entries one a line. -/
theorem payload_eq (entries : List (HistoryRecord β)) :
    payload codec entries = codec.lines entries := by
  unfold payload
  dsimp only
  by_cases h : entries = []
  · subst h
    rfl
  · rw [← codec.intercalate_lines h]
    split
    · next hempty =>
      exfalso
      cases entries with
      | nil => exact h rfl
      | cons r entries =>
        have hr : codec.stringify r = [] := by
          cases entries with
          | nil => simpa using hempty
          | cons r' entries =>
            simp [List.intercalate] at hempty
        have hparse := codec.parse_stringify r
        rw [hr, codec.parse_nil] at hparse
        cases hparse
    · rfl

end Functions

section Invariant

variable {initial : Option Bytes} {s s' : HistoryState β}

/-- How the entries and the file fit together while a link is on its way. -/
def FileMatches (codec : LineCodec (HistoryRecord β)) (maxEntries : ℕ) (s : HistoryState β) :
    Prop :=
  match s.phase with
  | .queued | .madeDir => s.entries = lastN maxEntries (codec.records (s.file.getD []))
  | .appended => ∃ i records rest old, s.chain = ⟨i, .push records⟩ :: rest ∧
      codec.records (s.file.getD []) = old ++ records ∧ s.entries = lastN maxEntries old
  | .compacting payload => payload = codec.lines s.entries ∧ s.entries.length ≤ maxEntries

/-- The store before the load has ended: nothing was written. -/
structure Unwritten (initial : Option Bytes) (s : HistoryState β) : Prop where
  entries : s.entries = []
  chain : s.chain = []
  phase : s.phase = .queued
  file : s.file = initial
  nextSeq : s.nextSeq = 1
  log : s.log = []
  unscheduled : ∀ i c records before, s.calls i = some c → c.phase ≠ .scheduled records before
  saved : ∀ i c records, s.calls i = some c → c.phase = .done (.saved records) → records = []

/-- The store behind the load. -/
structure Running (codec : LineCodec (HistoryRecord β)) (maxEntries : ℕ) (initial : Option Bytes)
    (s : HistoryState β) : Prop where
  loaded : s.loaded = true
  quiet : ∀ i c, s.calls i = some c → Phase.loading c.phase = false
  entries : s.entries = s.log.foldl (applyWork maxEntries)
    (lastN maxEntries (codec.records (initial.getD [])))
  terminated : Terminated (s.file.getD [])
  file : FileMatches codec maxEntries s
  idle : s.chain = [] → s.phase = .queued
  links : ∀ l ∈ s.chain, ∃ request records before,
    s.calls l.call = some ⟨request, .scheduled records before⟩
  ids : ((s.entries ++ pendingRecords s).map HistoryRecord.id).Nodup
  fresh : s.nextSeq < 2 ^ 53 → ∀ r ∈ s.entries ++ pendingRecords s, r.id < s.nextSeq
  booked : ∀ i c records before, s.calls i = some c → c.phase = .scheduled records before →
    ⟨i, .push records⟩ ∈ pendingLinks s ∨ records = [] ∨ .push records ∈ s.log
  saved : ∀ i c records, s.calls i = some c → c.phase = .done (.saved records) →
    records = [] ∨ .push records ∈ s.log

theorem setPhase_self (s : HistoryState β) (i : ℕ) (request : Request β) (phase : Phase β) :
    (s.setPhase i request phase).calls i = some ⟨request, phase⟩ := Function.update_self ..

theorem setPhase_of_ne (s : HistoryState β) {i j : ℕ} (h : j ≠ i) (request : Request β)
    (phase : Phase β) : (s.setPhase i request phase).calls j = s.calls j :=
  Function.update_of_ne h ..

/-- The calls after one of them went on. -/
theorem setPhase_calls {i j : ℕ} {request : Request β} {phase : Phase β} {c : Call β}
    (h : (s.setPhase i request phase).calls j = some c) :
    j = i ∧ c = ⟨request, phase⟩ ∨ j ≠ i ∧ s.calls j = some c := by
  by_cases hj : j = i
  · subst j
    rw [setPhase_self] at h
    exact .inl ⟨rfl, (Option.some.inj h).symm⟩
  · rw [setPhase_of_ne s hj] at h
    exact .inr ⟨hj, h⟩

/-- The end of the load starts the running store. -/
theorem Unwritten.loads (h : Unwritten initial s) (hloaded : s.loaded = true) {i : ℕ}
    {request : Request β}
    (hothers : ∀ j c, j ≠ i → s.calls j = some c → Phase.loading c.phase = false)
    (hterminated : Terminated (initial.getD []))
    (hids : ((codec.records (initial.getD [])).map HistoryRecord.id).Nodup) :
    Running codec maxEntries initial
      ((loadRaw codec maxEntries (initial.getD []) s).setPhase i request .ready) := by
  have hentries : ((loadRaw codec maxEntries (initial.getD []) s).setPhase i request
      .ready).entries = lastN maxEntries (codec.records (initial.getD [])) := by
    change (if (s.entries ++ codec.records (initial.getD [])).length > maxEntries then _ else _) = _
    rw [h.entries, List.nil_append]
    split
    · rfl
    · next hle => rw [lastN_of_le (not_lt.mp hle)]
  have hpending : pendingRecords ((loadRaw codec maxEntries (initial.getD []) s).setPhase i request
      .ready) = [] := by
    change (match s.phase with
      | .compacting _ => s.chain.tail
      | _ => s.chain).flatMap (fun l : Link β => workRecords l.work) = []
    rw [h.phase, h.chain]
    rfl
  have hsuffix := (lastN_suffix maxEntries (codec.records (initial.getD []))).sublist
  refine ⟨hloaded, fun j c hc => ?_, ?_, ?_, ?_, fun _ => h.phase, fun l hl => ?_, ?_,
    fun hlt r hr => ?_, fun j c records before hc hphase => ?_, fun j c records hc hphase => ?_⟩
  · rcases setPhase_calls hc with ⟨-, rfl⟩ | ⟨hj, hold⟩
    · rfl
    · exact hothers j c hj hold
  · rw [hentries]
    change _ = s.log.foldl _ _
    rw [h.log, List.foldl_nil]
  · change Terminated (s.file.getD [])
    rw [h.file]
    exact hterminated
  · unfold FileMatches
    change match s.phase with
      | .queued | .madeDir => _
      | .appended => _
      | .compacting payload => _
    rw [h.phase]
    change _ = lastN maxEntries (codec.records (s.file.getD []))
    rw [hentries, h.file]
  · change l ∈ s.chain at hl
    rw [h.chain] at hl
    cases hl
  · rw [hentries, hpending, List.append_nil]
    exact (hsuffix.map _).nodup hids
  · rw [hentries, hpending, List.append_nil] at hr
    change (codec.records (initial.getD [])).foldl seqAfter s.nextSeq < 2 ^ 53 at hlt
    change r.id < (codec.records (initial.getD [])).foldl seqAfter s.nextSeq
    rcases @seqAfter_foldl β (codec.records (initial.getD [])) s.nextSeq with hlarge | ⟨-, hall⟩
    · omega
    · exact hall r (hsuffix.subset hr)
  · rcases setPhase_calls hc with ⟨-, rfl⟩ | ⟨-, hold⟩
    · cases hphase
    · exact absurd hphase (h.unscheduled j c records before hold)
  · rcases setPhase_calls hc with ⟨-, rfl⟩ | ⟨-, hold⟩
    · cases hphase
    · exact .inl (h.saved j c records hold hphase)

end Invariant

section Results

variable {initial : Option Bytes} {s : HistoryState β}

/-- A step that respects the condition. -/
def OrderlyStep (codec : LineCodec (HistoryRecord β)) (maxEntries : ℕ) (s : HistoryState β)
    (e : HistoryEvent β) (s' : HistoryState β) : Prop :=
  HistoryStep codec maxEntries s e s' ∧ Orderly s e

end Results

section Examples

variable {s s' : HistoryState β}

/-- Every event of a list in turn, if it can happen and passes a check. -/
def runEvents (codec : LineCodec (HistoryRecord β)) (maxEntries : ℕ)
    (check : HistoryState β → HistoryEvent β → Bool) :
    HistoryState β → List (HistoryEvent β) → Option (HistoryState β)
  | s, [] => some s
  | s, e :: events =>
    if check s e then
      (step codec maxEntries s e).bind fun s' => runEvents codec maxEntries check s' events
    else none

theorem run_of_runEvents {check : HistoryState β → HistoryEvent β → Bool}
    {start : HistoryState β} {before events : List (HistoryEvent β)}
    (hrun : Run (fun s e s' => HistoryStep codec maxEntries s e s' ∧ check s e = true) start
      before s) (h : runEvents codec maxEntries check s events = some s') :
    Run (fun s e s' => HistoryStep codec maxEntries s e s' ∧ check s e = true) start
      (before ++ events) s' := by
  induction events generalizing before s with
  | nil =>
    obtain rfl := Option.some.inj h
    rwa [List.append_nil]
  | cons e events ih =>
    unfold runEvents at h
    split at h
    · next hcheck =>
      obtain ⟨m, hstep, hrest⟩ := Option.bind_eq_some_iff.mp h
      rw [List.append_cons]
      exact ih (hrun.next ⟨hstep, hcheck⟩) hrest
    · cases h

/-- A file with one record. -/
def oneRecord : Option Bytes := some (idCodec.lines [⟨1, ()⟩])

end Examples

end LayerInference.HistoryInterleaving
