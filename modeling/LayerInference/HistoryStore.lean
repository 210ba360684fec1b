import LayerInference.LineRecords
import LayerInference.Runs
import LayerInference.TextStreams
import Mathlib.Data.Nat.Log
import Mathlib.Logic.Function.Basic

/-!
# The history store of the operations UI

Measurement records are kept in memory and in a file with one record a line.
The file is loaded by the first call that needs it; later appends and deletions
are queued on one promise chain. A call runs without interruption between its
awaits, and other calls run while it waits for a file operation.
-/

namespace LayerInference.HistoryStore

open ByteStrings LineRecords Runs TextStreams

variable {β : Type}

/-- A stored record: its id and the rest of its fields. -/
structure HistoryRecord (β : Type) where
  id : ℕ
  content : β
  deriving DecidableEq

section Numbers

/-- The number nearest to an integer, ties to even, at 53 bits. -/
def toNumber (n : ℕ) : ℕ :=
  let unit := 2 ^ (Nat.log 2 n + 1 - 53)
  let up := unit < 2 * (n % unit) ∨ 2 * (n % unit) = unit ∧ n / unit % 2 = 1
  (n / unit + if up then 1 else 0) * unit

/-- Small integers are numbers. -/
theorem toNumber_of_lt {n : ℕ} (h : n < 2 ^ 53) : toNumber n = n := by
  have hlog : Nat.log 2 n + 1 - 53 = 0 := by
    have hlt := Nat.log_lt_of_lt_pow' (by decide : (53 : ℕ) ≠ 0) h
    omega
  simp only [toNumber, hlog, pow_zero, Nat.div_one, Nat.mod_one, Nat.mul_one]
  rw [if_neg (by omega), Nat.add_zero]

/-- Large integers stay large. -/
theorem le_toNumber {n : ℕ} (h : 2 ^ 53 ≤ n) : 2 ^ 53 ≤ toNumber n := by
  have hlog : 53 ≤ Nat.log 2 n := Nat.le_log_of_pow_le (by decide) h
  obtain ⟨k, hk⟩ : ∃ k, Nat.log 2 n = k + 52 := ⟨Nat.log 2 n - 52, by omega⟩
  have hunit : Nat.log 2 n + 1 - 53 = k := by omega
  have hpow : 2 ^ 52 * 2 ^ k ≤ n := by
    rw [← pow_add, Nat.add_comm, ← hk]
    exact Nat.pow_log_le_self 2 (by omega)
  have hquotient : 2 ^ 52 ≤ n / 2 ^ k := (Nat.le_div_iff_mul_le (by positivity)).mpr hpow
  have hunit' : 2 ≤ 2 ^ k := by
    calc 2 = 2 ^ 1 := rfl
      _ ≤ 2 ^ k := Nat.pow_le_pow_right (by decide) (by omega)
  simp only [toNumber, hunit]
  calc 2 ^ 53 = 2 ^ 52 * 2 := rfl
    _ ≤ _ := Nat.mul_le_mul (le_trans hquotient (Nat.le_add_right _ _)) hunit'

/-- The increment of a number. -/
def numberSucc (n : ℕ) : ℕ := toNumber (n + 1)

theorem numberSucc_of_lt {n : ℕ} (h : n < 2 ^ 53) : numberSucc n = n + 1 := by
  rcases Nat.lt_or_ge (n + 1) (2 ^ 53) with hlt | hge
  · exact toNumber_of_lt hlt
  · have heq : n + 1 = 2 ^ 53 := by omega
    rw [numberSucc, heq]
    decide +kernel

end Numbers

/-- What a call asks for. Normalization rejects an entry or gives the contents
of its record; the listing filters, limits and reverses the rows. -/
inductive Request (β : Type) where
  | append (records : List (Option β))
  | delete (ids : List ℤ) (all : Bool)
  | get (select : List (HistoryRecord β) → List (HistoryRecord β))

/-- What a call reports. -/
inductive CallResult (β : Type) where
  | saved (records : List (HistoryRecord β))
  | deleted (deleted remaining totalStored : ℕ)
  | listed (entries : List (HistoryRecord β)) (totalStored : ℕ)

/-- A link of the promise chain. -/
inductive Work (β : Type) where
  | push (records : List (HistoryRecord β))
  | remove (ids : List ℤ) (all : Bool)

/-- Where a call waits. -/
inductive Phase (β : Type) where
  | arrived
  | makingDir
  | reading
  | parsing (raw : Bytes)
  /-- Behind the load. -/
  | ready
  /-- Waiting for its link of the chain. -/
  | scheduled (records : List (HistoryRecord β)) (before : ℕ)
  | done (result : CallResult β)

/-- Where the first link of the chain waits. -/
inductive LinkPhase where
  | queued
  | madeDir
  | appended
  | compacting (payload : Bytes)

structure Call (β : Type) where
  request : Request β
  phase : Phase β

/-- A link and the call that queued it. -/
structure Link (β : Type) where
  call : ℕ
  work : Work β

/-- The store, the calls by their numbers and the promise chain. The log lists
the work whose effect on the entries has happened. -/
structure HistoryState (β : Type) where
  loaded : Bool := false
  entries : List (HistoryRecord β) := []
  nextSeq : ℕ := 1
  file : Option Bytes
  calls : ℕ → Option (Call β) := fun _ => none
  chain : List (Link β) := []
  phase : LinkPhase := .queued
  log : List (Work β) := []

section Functions

variable (codec : LineCodec (HistoryRecord β)) (maxEntries : ℕ)

/-- The sequence number behind one loaded record. -/
def seqAfter (nextSeq : ℕ) (record : HistoryRecord β) : ℕ :=
  if record.id ≥ nextSeq then numberSucc record.id else nextSeq

/-- The end of `ensureHistoryLoaded`. -/
def loadRaw (raw : Bytes) (s : HistoryState β) : HistoryState β :=
  let parsed := codec.records raw
  let entries := s.entries ++ parsed
  { s with
    nextSeq := parsed.foldl seqAfter s.nextSeq
    entries := if entries.length > maxEntries then lastN maxEntries entries else entries }

/-- The ids given out by `normalizeHistoryEntry`, in the order of the records. -/
def allocate (nextSeq : ℕ) : List (Option β) → List (HistoryRecord β) × ℕ
  | [] => ([], nextSeq)
  | none :: records => allocate nextSeq records
  | some content :: records =>
    let rest := allocate (numberSucc nextSeq) records
    (⟨nextSeq, content⟩ :: rest.1, rest.2)

/-- The lines written by an append. -/
def chunk (records : List (HistoryRecord β)) : Bytes :=
  [newline].intercalate (records.map codec.stringify) ++ [newline]

/-- The text written by `compactHistoryFile`. -/
def payload (entries : List (HistoryRecord β)) : Bytes :=
  let serialized := [newline].intercalate (entries.map codec.stringify)
  if serialized = [] then [] else serialized ++ [newline]

/-- The positive ids of a deletion. -/
def normalizedIds (ids : List ℤ) : List ℤ := ids.filter (0 < ·)

/-- A deletion takes out this record. -/
def removes (ids : List ℤ) (all : Bool) (record : HistoryRecord β) : Bool :=
  all || (normalizedIds ids).contains (record.id : ℤ)

/-- The effect of a link on the entries. -/
def applyWork (entries : List (HistoryRecord β)) : Work β → List (HistoryRecord β)
  | .push records =>
    if (entries ++ records).length > maxEntries then lastN maxEntries (entries ++ records)
    else entries ++ records
  | .remove ids all => entries.filter fun record => !removes ids all record

end Functions

section Steps

/-- What can happen: a call arrives, goes on, or the chain goes on. -/
inductive HistoryEvent (β : Type) where
  | arrive (i : ℕ) (request : Request β)
  | advance (i : ℕ)
  | work

/-- A call in another phase. -/
def HistoryState.setPhase (s : HistoryState β) (i : ℕ) (request : Request β) (phase : Phase β) :
    HistoryState β :=
  { s with calls := Function.update s.calls i (some ⟨request, phase⟩) }

/-- The call queues its work and waits for it. -/
def HistoryState.schedule (s : HistoryState β) (i : ℕ) (request : Request β) (work : Work β)
    (records : List (HistoryRecord β)) : HistoryState β :=
  { s with chain := s.chain ++ [(⟨i, work⟩ : Link β)] }.setPhase i request
    (.scheduled records s.entries.length)

variable (codec : LineCodec (HistoryRecord β)) (maxEntries : ℕ)

/-- The segment of a call behind the load. -/
def resume (s : HistoryState β) (i : ℕ) : Request β → HistoryState β
  | .append records =>
    let normalized := allocate s.nextSeq records
    if normalized.1.isEmpty then s.setPhase i (.append records) (.done (.saved []))
    else
      { s with nextSeq := normalized.2 }.schedule i (.append records) (.push normalized.1)
        normalized.1
  | .delete ids all =>
    if !all && (normalizedIds ids).isEmpty then
      s.setPhase i (.delete ids all) (.done (.deleted 0 s.entries.length s.entries.length))
    else s.schedule i (.delete ids all) (.remove ids all) []
  | .get select =>
    s.setPhase i (.get select) (.done (.listed (select s.entries) s.entries.length))

/-- What a call reports when its link has settled. -/
def report (s : HistoryState β) (records : List (HistoryRecord β)) (before : ℕ) :
    Request β → CallResult β
  | .append _ => .saved records
  | .delete _ _ => .deleted (before - s.entries.length) s.entries.length s.entries.length
  | .get select => .listed (select s.entries) s.entries.length

/-- An append without records does not load the file. -/
def Request.isVoid : Request β → Bool
  | .append records => records.isEmpty
  | _ => false

/-- The next segment of a call; a file that is missing reads as empty. -/
def advance (s : HistoryState β) (i : ℕ) : Option (HistoryState β) :=
  match s.calls i with
  | none => none
  | some ⟨request, phase⟩ =>
    match phase with
    | .arrived =>
      if request.isVoid then some (s.setPhase i request (.done (.saved [])))
      else if s.loaded then some (s.setPhase i request .ready)
      else some ({ s with loaded := true }.setPhase i request .makingDir)
    | .makingDir => some (s.setPhase i request .reading)
    | .reading => some (s.setPhase i request (.parsing (s.file.getD [])))
    | .parsing raw => some ((loadRaw codec maxEntries raw s).setPhase i request .ready)
    | .ready => some (resume s i request)
    | .scheduled records before =>
      if s.chain.any (·.call == i) then none
      else some (s.setPhase i request (.done (report s records before request)))
    | .done _ => none

/-- The next segment of the first link. -/
def work (s : HistoryState β) : Option (HistoryState β) :=
  match s.chain with
  | [] => none
  | link :: rest =>
    match s.phase, link.work with
    | .compacting payload, _ =>
      some { s with file := some payload, chain := rest, phase := .queued }
    | .queued, .push _ => some { s with phase := .madeDir }
    | .madeDir, .push records =>
      some { s with file := some (s.file.getD [] ++ chunk codec records), phase := .appended }
    | .appended, .push records =>
      let entries := applyWork maxEntries s.entries (.push records)
      let applied := { s with entries := entries, log := s.log ++ [Work.push records] }
      if (s.entries ++ records).length > maxEntries then
        some { applied with phase := .compacting (payload codec entries) }
      else some { applied with chain := rest, phase := .queued }
    | .queued, .remove ids all =>
      let entries := applyWork maxEntries s.entries (.remove ids all)
      some { s with
        entries := entries
        log := s.log ++ [.remove ids all]
        phase := .compacting (payload codec entries) }
    | _, .remove _ _ => none

/-- One event. -/
def step (s : HistoryState β) : HistoryEvent β → Option (HistoryState β)
  | .arrive i request =>
    if (s.calls i).isSome then none else some (s.setPhase i request .arrived)
  | .advance i => advance codec maxEntries s i
  | .work => work codec maxEntries s

def HistoryStep (s : HistoryState β) (e : HistoryEvent β) (s' : HistoryState β) : Prop :=
  step codec maxEntries s e = some s'

end Steps

section Plain

/-- The text before the id of a record with no other field. -/
def idKey : Bytes := ascii "\x7b\"id\":"

/-- Records whose only field is the id. -/
def idCodec : LineCodec (HistoryRecord Unit) where
  stringify r := idKey ++ (decimalNat r.id ++ [125])
  parseLine line :=
    let rest := line.drop idKey.length
    if idKey.isPrefixOf line && rest.dropWhile isDigit == [125] then
      some ⟨digitsValue (rest.takeWhile isDigit), ()⟩
    else none
  parse_stringify r := by
    obtain ⟨htake, hdrop⟩ := @takeWhile_isDigit_append (decimalNat r.id) [125]
      (decimalNat_digits r.id) fun b hb => by
        obtain rfl : 125 = b := by simpa using hb
        rfl
    have hstart : idKey.isPrefixOf (idKey ++ (decimalNat r.id ++ [125])) = true :=
      List.isPrefixOf_iff_prefix.mpr (List.prefix_append _ _)
    rw [List.drop_left, hstart]
    dsimp only
    rw [hdrop, htake, digitsValue_decimalNat]
    rfl
  parse_nil := rfl
  newline_not_mem r h := by
    rcases List.mem_append.mp h with hkey | hrest
    · exact absurd hkey (by decide)
    · rcases List.mem_append.mp hrest with hdigits | hclose
      · exact absurd (decimalNat_digits r.id _ hdigits) (by decide)
      · exact absurd hclose (by decide)

end Plain

end LayerInference.HistoryStore
