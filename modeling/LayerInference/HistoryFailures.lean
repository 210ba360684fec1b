import LayerInference.HistoryInterleaving

/-!
# History calls whose file operations fail

Here calls come one at a time and any file operation may fail, a write also
after a part of its text. The load is marked as done before it has read the
file, a link that failed leaves the promise chain rejected for good, and a
compaction that fails comes behind the change of the entries. Calls that run
into none of the three report their failure and leave the store as it was.
-/

namespace LayerInference.HistoryFailures

open ByteStrings LineRecords Runs HistoryStore HistoryInterleaving

variable {β : Type}

/-- The entries, the next id and the file; `broken` is a rejected promise chain. -/
structure SequentialStore (β : Type) extends HistoryState β where
  broken : Bool := false

/-- The operations of a call that fail. A failing append has written some
bytes; a failing compaction could not open the file, or has cut it and written
some bytes. -/
structure Faults where
  loadDir : Bool := false
  loadRead : Bool := false
  linkDir : Bool := false
  append : Option ℕ := none
  compact : Option (Option ℕ) := none

/-- How a file operation, or a call's wait for one, ended. -/
inductive Outcome where
  | done
  | failed
  /-- The chain was rejected before. -/
  | refused
  deriving DecidableEq

/-- What a call reports, and whether one of its file operations failed. -/
structure Report (β : Type) where
  result : Option (CallResult β)
  operationFailed : Bool

section Functions

variable (codec : LineCodec (HistoryRecord β)) (maxEntries : ℕ) (faults : Faults)

def ensureHistoryLoaded (s : SequentialStore β) : Outcome × SequentialStore β :=
  if s.loaded then (.done, s)
  else
    let s := { s with loaded := true }
    if faults.loadDir then (.failed, s)
    else if faults.loadRead then (.failed, s)
    else (.done, { s with
      toHistoryState := loadRaw codec maxEntries (s.file.getD []) s.toHistoryState })

def compactHistoryFile (s : SequentialStore β) : Outcome × SequentialStore β :=
  match faults.compact with
  | none => (.done, { s with file := some (payload codec s.entries) })
  | some none => (.failed, s)
  | some (some written) =>
    (.failed, { s with file := some ((payload codec s.entries).take written) })

/-- The link of an append. -/
def appendLink (records : List (HistoryRecord β)) (s : SequentialStore β) :
    Outcome × SequentialStore β :=
  if faults.linkDir then (.failed, s)
  else match faults.append with
    | some written =>
      (.failed, { s with file := some (s.file.getD [] ++ (chunk codec records).take written) })
    | none =>
      let written := { s with
        file := some (s.file.getD [] ++ chunk codec records)
        entries := applyWork maxEntries s.entries (.push records) }
      if (s.entries ++ records).length > maxEntries then compactHistoryFile codec faults written
      else (.done, written)

/-- The link of a deletion. -/
def deleteLink (ids : List ℤ) (all : Bool) (s : SequentialStore β) :
    Outcome × SequentialStore β :=
  compactHistoryFile codec faults
    { s with entries := applyWork maxEntries s.entries (.remove ids all) }

/-- Waiting for a link: one that failed rejects the chain, and a rejected chain
runs no link. -/
def chained (link : SequentialStore β → Outcome × SequentialStore β) (s : SequentialStore β) :
    Outcome × SequentialStore β :=
  if s.broken then (.refused, s)
  else
    let ran := link s
    (ran.1, { ran.2 with broken := ran.1 ≠ .done })

/-- The report of a call that waited. -/
def settled (waited : Outcome × SequentialStore β)
    (result : SequentialStore β → CallResult β) : Report β × SequentialStore β :=
  match waited.1 with
  | .done => (⟨some (result waited.2), false⟩, waited.2)
  | .failed => (⟨none, true⟩, waited.2)
  | .refused => (⟨none, false⟩, waited.2)

def appendHistoryRecords (records : List (Option β)) (s : SequentialStore β) :
    Report β × SequentialStore β :=
  if records.isEmpty then (⟨some (.saved []), false⟩, s)
  else
    let loaded := ensureHistoryLoaded codec maxEntries faults s
    if loaded.1 = .failed then (⟨none, true⟩, loaded.2)
    else
      let normalized := allocate loaded.2.nextSeq records
      if normalized.1.isEmpty then (⟨some (.saved []), false⟩, loaded.2)
      else
        settled (chained (appendLink codec maxEntries faults normalized.1)
          { loaded.2 with nextSeq := normalized.2 }) fun _ => .saved normalized.1

def deleteHistoryRecords (ids : List ℤ) (all : Bool) (s : SequentialStore β) :
    Report β × SequentialStore β :=
  let loaded := ensureHistoryLoaded codec maxEntries faults s
  if loaded.1 = .failed then (⟨none, true⟩, loaded.2)
  else
    let before := loaded.2.entries.length
    if !all && (normalizedIds ids).isEmpty then
      (⟨some (.deleted 0 before before), false⟩, loaded.2)
    else
      settled (chained (deleteLink codec maxEntries faults ids all) loaded.2) fun s =>
        .deleted (before - s.entries.length) s.entries.length s.entries.length

/-- The listing of `handleHistory`. -/
def listHistory (select : List (HistoryRecord β) → List (HistoryRecord β))
    (s : SequentialStore β) : Report β × SequentialStore β :=
  let loaded := ensureHistoryLoaded codec maxEntries faults s
  if loaded.1 = .failed then (⟨none, true⟩, loaded.2)
  else (⟨some (.listed (select loaded.2.entries) loaded.2.entries.length), false⟩, loaded.2)

/-- One call from its arrival to its report. -/
def call (s : SequentialStore β) : Request β → Report β × SequentialStore β
  | .append records => appendHistoryRecords codec maxEntries faults records s
  | .delete ids all => deleteHistoryRecords codec maxEntries faults ids all s
  | .get select => listHistory codec maxEntries faults select s

end Functions

section Properties

variable (codec : LineCodec (HistoryRecord β)) (maxEntries : ℕ)

/-- The records of the file. -/
def fileRecords (s : SequentialStore β) : List (HistoryRecord β) :=
  codec.records (s.file.getD [])

/-- The entries, which before the load are the end of the file. -/
def history (s : SequentialStore β) : List (HistoryRecord β) :=
  if s.loaded then s.entries else lastN maxEntries (fileRecords codec s)

/-- The records a call reports as saved. -/
def savedRecords (report : Report β) : List (HistoryRecord β) :=
  match report.result with
  | some (.saved records) => records
  | _ => []

/-- A call reports a failure exactly when one of its file operations failed,
which then changed no entry; and the file keeps its records but for those that
were deleted or exceed the bound. -/
structure Atomic (s : SequentialStore β) (request : Request β) (report : Report β)
    (s' : SequentialStore β) : Prop where
  fails : report.operationFailed = true →
    report.result = none ∧ history codec maxEntries s' = history codec maxEntries s
  succeeds : report.operationFailed = false → report.result.isSome = true
  keeps : ∀ r ∈ fileRecords codec s, r ∈ fileRecords codec s' ∨
    (∃ ids all, request = .delete ids all ∧ removes ids all r = true) ∨
    r ∉ lastN maxEntries (fileRecords codec s ++ savedRecords report)

/-- The calls that do not run into the three defects. The load fails on a file
without records only; nothing is written behind a failed link; and a compaction
fails only where it had nothing to remove and could not open the file. -/
structure Recoverable (s : SequentialStore β) (request : Request β) (faults : Faults) : Prop where
  load : s.loaded = false → faults.loadDir = true ∨ faults.loadRead = true →
    fileRecords codec s = []
  chain : s.broken = true → Request.writes request = false
  compact : ∀ fault, faults.compact = some fault →
    match request with
    | .append records => faults.linkDir = true ∨ faults.append.isSome = true ∨
        (history codec maxEntries s).length + (accepted records).length ≤ maxEntries
    | .delete ids all => Request.writes (.delete ids all : Request β) = true →
        fault = none ∧ ∀ r ∈ history codec maxEntries s, removes ids all r = false
    | .get _ => True

/-- A call that does not run into the defects. -/
def RecoverableCall (s : SequentialStore β) (label : Request β × Faults)
    (s' : SequentialStore β) : Prop :=
  Recoverable codec maxEntries s label.1 label.2 ∧
    (call codec maxEntries label.2 s label.1).2 = s'

/-- The store between recoverable calls. -/
structure Sane (s : SequentialStore β) : Prop where
  terminated : s.broken = false → Terminated (s.file.getD [])
  entries : s.broken = false → s.loaded = true →
    s.entries = lastN maxEntries (fileRecords codec s)
  loaded : s.broken = true → s.loaded = true
  unloaded : s.loaded = false → s.entries = []

end Properties

section Calls

variable {codec : LineCodec (HistoryRecord β)} {maxEntries : ℕ} {faults : Faults}
  {s : SequentialStore β}

/-- What the load leaves, whether or not it fails. -/
structure Loads (codec : LineCodec (HistoryRecord β)) (maxEntries : ℕ) (s : SequentialStore β)
    (ran : Outcome × SequentialStore β) : Prop where
  outcome : ran.1 = .done ∨ ran.1 = .failed
  loaded : ran.2.loaded = true
  sane : Sane codec maxEntries ran.2
  entries : ran.2.entries = history codec maxEntries s
  file : ran.2.file = s.file
  broken : ran.2.broken = s.broken

theorem history_of_loaded (h : s.loaded = true) : history codec maxEntries s = s.entries := if_pos h

theorem ensureHistoryLoaded_spec (h : Sane codec maxEntries s)
    (hload : s.loaded = false → faults.loadDir = true ∨ faults.loadRead = true →
      fileRecords codec s = []) :
    Loads codec maxEntries s (ensureHistoryLoaded codec maxEntries faults s) := by
  by_cases hloaded : s.loaded = true
  · rw [ensureHistoryLoaded, if_pos hloaded]
    exact ⟨.inl rfl, hloaded, h, (history_of_loaded hloaded).symm, rfl, rfl⟩
  · have hunloaded := Bool.eq_false_iff.mpr hloaded
    have hhistory : history codec maxEntries s = lastN maxEntries (fileRecords codec s) :=
      if_neg hloaded
    have hbroken : s.broken = false := Bool.eq_false_iff.mpr fun hb => hloaded (h.loaded hb)
    have hterminated := h.terminated hbroken
    have hentries := h.unloaded hunloaded
    rw [ensureHistoryLoaded, if_neg hloaded]
    dsimp only
    have hfailed (hfault : faults.loadDir = true ∨ faults.loadRead = true) :
        Loads codec maxEntries s (.failed, { s with loaded := true }) := by
      have hnone := hload hunloaded hfault
      have hempty : s.entries = lastN maxEntries (fileRecords codec s) := by
        rw [hnone, hentries]
        exact List.drop_nil.symm
      exact ⟨.inr rfl, rfl, ⟨fun _ => hterminated, fun _ _ => hempty, fun _ => rfl, nofun⟩,
        hempty.trans hhistory.symm, rfl, rfl⟩
    split
    · next hdir => exact hfailed (.inl hdir)
    · split
      · next hread => exact hfailed (.inr hread)
      · have hread : (loadRaw codec maxEntries (s.file.getD []) { s with
            loaded := true }.toHistoryState).entries = lastN maxEntries (fileRecords codec s) := by
          change (if (s.entries ++ fileRecords codec s).length > maxEntries then
            lastN maxEntries (s.entries ++ fileRecords codec s)
            else s.entries ++ fileRecords codec s) = _
          rw [hentries, List.nil_append]
          split
          · rfl
          · next hle => rw [lastN_of_le (not_lt.mp hle)]
        exact ⟨.inl rfl, rfl, ⟨fun _ => hterminated, fun _ _ => hread, fun _ => rfl, nofun⟩,
          hread.trans hhistory.symm, rfl, rfl⟩

/-- A call that ends without a write. -/
theorem atomic_unwritten {ran : Outcome × SequentialStore β} (hran : Loads codec maxEntries s ran)
    {request : Request β} {report : Report β}
    (hreport : report.operationFailed = true → report.result = none)
    (hreport' : report.operationFailed = false → report.result.isSome = true) :
    Atomic codec maxEntries s request report ran.2 where
  fails hfailed := by
    refine ⟨hreport hfailed, ?_⟩
    rw [history_of_loaded hran.loaded, hran.entries]
  succeeds := hreport'
  keeps r hr := by
    refine .inl ?_
    rw [fileRecords, hran.file]
    exact hr

theorem allocate_length (nextSeq : ℕ) (records : List (Option β)) :
    (allocate nextSeq records).1.length = (accepted records).length := by
  induction records generalizing nextSeq with
  | nil => rfl
  | cons record records ih =>
    cases record with
    | none => exact ih nextSeq
    | some content => exact congrArg (· + 1) (ih (numberSucc nextSeq))

/-- What a link does to a loaded store whose entries are the end of its file. -/
structure LinkSpec (codec : LineCodec (HistoryRecord β)) (maxEntries : ℕ) (request : Request β)
    (saved : List (HistoryRecord β)) (s : SequentialStore β)
    (ran : Outcome × SequentialStore β) : Prop where
  outcome : ran.1 = .done ∨ ran.1 = .failed
  loaded : ran.2.loaded = true
  kept : ran.1 = .failed → ran.2.entries = s.entries
  terminated : ran.1 = .done → Terminated (ran.2.file.getD [])
  entries : ran.1 = .done → ran.2.entries = lastN maxEntries (fileRecords codec ran.2)
  keeps : ∀ r ∈ fileRecords codec s, r ∈ fileRecords codec ran.2 ∨
    (∃ ids all, request = .delete ids all ∧ removes ids all r = true) ∨
    r ∉ lastN maxEntries (fileRecords codec s ++ if ran.1 = .done then saved else [])

/-- A link behind the load, from the call's point of view. -/
theorem settled_spec {ran : Outcome × SequentialStore β} (hran : Loads codec maxEntries s ran)
    {request : Request β} {saved : List (HistoryRecord β)}
    {link : SequentialStore β → Outcome × SequentialStore β} {start : SequentialStore β}
    (hentries : start.entries = ran.2.entries) (hfile : start.file = ran.2.file)
    (hunbroken : start.broken = false)
    (hlink : LinkSpec codec maxEntries request saved start (link start))
    {result : SequentialStore β → CallResult β}
    (hsaved : ∀ s' failed, savedRecords ⟨some (result s'), failed⟩ = saved) :
    Atomic codec maxEntries s request (settled (chained link start) result).1
        (settled (chained link start) result).2 ∧
      Sane codec maxEntries (settled (chained link start) result).2 := by
  have hsame : fileRecords codec start = fileRecords codec s := by
    rw [fileRecords, fileRecords, hfile, hran.file]
  have hkeeps := hlink.keeps
  rw [hsame] at hkeeps
  rcases hlink.outcome with hdone | hfailed
  · have hsettled : settled (chained link start) result =
        (⟨some (result { (link start).2 with broken := false }), false⟩,
          { (link start).2 with broken := false }) := by
      simp [settled, chained, hunbroken, hdone]
    rw [hsettled]
    refine ⟨⟨nofun, fun _ => rfl, ?_⟩, ⟨fun _ => hlink.terminated hdone,
      fun _ _ => hlink.entries hdone, nofun, fun hloaded => ?_⟩⟩
    · rw [if_pos hdone] at hkeeps
      rw [hsaved]
      exact hkeeps
    · exact absurd (hlink.loaded.symm.trans hloaded) (by decide)
  · have hsettled : settled (chained link start) result =
        (⟨none, true⟩, { (link start).2 with broken := true }) := by
      simp [settled, chained, hunbroken, hfailed]
    rw [hsettled]
    have hhistory : history codec maxEntries { (link start).2 with broken := true } =
        history codec maxEntries s := by
      refine (if_pos hlink.loaded).trans ?_
      exact (hlink.kept hfailed).trans (hentries.trans hran.entries)
    refine ⟨⟨fun _ => ⟨rfl, hhistory⟩, nofun, ?_⟩, ⟨nofun, nofun, fun _ => hlink.loaded,
      fun hloaded => ?_⟩⟩
    · rw [if_neg (by rw [hfailed]; decide)] at hkeeps
      exact hkeeps
    · exact absurd (hlink.loaded.symm.trans hloaded) (by decide)

/-- The link of an append. -/
theorem appendLink_spec {request : Request β} {records : List (HistoryRecord β)}
    (hloaded : s.loaded = true) (hterminated : Terminated (s.file.getD []))
    (hentries : s.entries = lastN maxEntries (fileRecords codec s))
    (hcompact : ∀ fault, faults.compact = some fault → faults.linkDir = true ∨
      faults.append.isSome = true ∨ s.entries.length + records.length ≤ maxEntries) :
    LinkSpec codec maxEntries request records s (appendLink codec maxEntries faults records s) := by
  unfold appendLink
  split
  · exact ⟨.inr rfl, hloaded, fun _ => rfl, nofun, nofun, fun r hr => .inl hr⟩
  · next hdir =>
    cases happend : faults.append with
    | some written =>
      refine ⟨.inr rfl, hloaded, fun _ => rfl, nofun, nofun, fun r hr => .inl ?_⟩
      change r ∈ codec.records (s.file.getD [] ++ (chunk codec records).take written)
      rw [codec.records_append hterminated]
      exact List.mem_append_left _ hr
    | none =>
      have hfile : codec.records (s.file.getD [] ++ chunk codec records) =
          fileRecords codec s ++ records := by
        rw [codec.records_append hterminated, records_chunk]
        rfl
      have happlied : applyWork maxEntries s.entries (.push records) =
          lastN maxEntries (fileRecords codec s ++ records) := by
        rw [applyWork_push, hentries, lastN_lastN_append]
      dsimp only
      split
      · next hfull =>
        have hcompact' : faults.compact = none := by
          cases hfault : faults.compact with
          | none => rfl
          | some fault =>
            rcases hcompact fault hfault with hd | ha | hle
            · exact absurd hd hdir
            · rw [happend] at ha
              cases ha
            · rw [List.length_append] at hfull
              omega
        have hrecords : codec.records (payload codec
            (applyWork maxEntries s.entries (.push records))) =
              lastN maxEntries (fileRecords codec s ++ records) := by
          rw [payload_eq, codec.records_lines, happlied]
        unfold compactHistoryFile
        rw [hcompact']
        refine ⟨.inl rfl, hloaded, nofun, fun _ => ?_, fun _ => ?_, fun r _ => ?_⟩
        · change Terminated (payload codec _)
          rw [payload_eq]
          exact codec.terminated_lines _
        · change applyWork maxEntries s.entries (.push records) =
            lastN maxEntries (codec.records (payload codec _))
          rw [hrecords, happlied, lastN_of_le (lastN_length_le _ _)]
        · by_cases hmem : r ∈ lastN maxEntries (fileRecords codec s ++ records)
          · refine .inl ?_
            change r ∈ codec.records (payload codec _)
            rw [hrecords]
            exact hmem
          · exact .inr (.inr hmem)
      · refine ⟨.inl rfl, hloaded, nofun, fun _ => hterminated.append (terminated_chunk records),
          fun _ => ?_, fun r hr => .inl ?_⟩
        · change applyWork maxEntries s.entries (.push records) =
            lastN maxEntries (codec.records (s.file.getD [] ++ chunk codec records))
          rw [hfile, happlied]
        · change r ∈ codec.records (s.file.getD [] ++ chunk codec records)
          rw [hfile]
          exact List.mem_append_left _ hr

/-- The link of a deletion. -/
theorem deleteLink_spec {ids : List ℤ} {all : Bool} (hloaded : s.loaded = true)
    (hentries : s.entries = lastN maxEntries (fileRecords codec s))
    (hcompact : ∀ fault, faults.compact = some fault →
      fault = none ∧ ∀ r ∈ s.entries, removes ids all r = false) :
    LinkSpec codec maxEntries (.delete ids all) [] s
      (deleteLink codec maxEntries faults ids all s) := by
  unfold deleteLink compactHistoryFile
  cases hfault : faults.compact with
  | none =>
    have hrecords : codec.records (payload codec
        (applyWork maxEntries s.entries (.remove ids all))) =
          applyWork maxEntries s.entries (.remove ids all) := by
      rw [payload_eq, codec.records_lines]
    have hlength : (applyWork maxEntries s.entries (.remove ids all)).length ≤ maxEntries := by
      refine le_trans (List.length_filter_le _ _) ?_
      rw [hentries]
      exact lastN_length_le _ _
    refine ⟨.inl rfl, hloaded, nofun, fun _ => ?_, fun _ => ?_, fun r hr => ?_⟩
    · change Terminated (payload codec _)
      rw [payload_eq]
      exact codec.terminated_lines _
    · change applyWork maxEntries s.entries (.remove ids all) =
        lastN maxEntries (codec.records (payload codec _))
      rw [hrecords, lastN_of_le hlength]
    · by_cases hremoves : removes ids all r = true
      · exact .inr (.inl ⟨ids, all, rfl, hremoves⟩)
      · by_cases hmem : r ∈ s.entries
        · refine .inl ?_
          change r ∈ codec.records (payload codec _)
          rw [hrecords]
          exact List.mem_filter.mpr ⟨hmem, by rw [Bool.eq_false_iff.mpr hremoves]; rfl⟩
        · refine .inr (.inr ?_)
          rw [if_pos rfl, List.append_nil, ← hentries]
          exact hmem
  | some fault =>
    obtain ⟨rfl, hnone⟩ := hcompact fault hfault
    refine ⟨.inr rfl, hloaded, fun _ => ?_, nofun, nofun, fun r hr => .inl hr⟩
    exact List.filter_eq_self.mpr fun r hr => by rw [hnone r hr]; rfl

/-- Every recoverable call is atomic and leaves the store sane. -/
theorem call_spec (h : Sane codec maxEntries s) {request : Request β}
    (hrecoverable : Recoverable codec maxEntries s request faults) :
    Atomic codec maxEntries s request (call codec maxEntries faults s request).1
        (call codec maxEntries faults s request).2 ∧
      Sane codec maxEntries (call codec maxEntries faults s request).2 := by
  have hran : Loads codec maxEntries s (ensureHistoryLoaded codec maxEntries faults s) :=
    ensureHistoryLoaded_spec h hrecoverable.load
  have hunbroken (hwrites : Request.writes request = true) :
      (ensureHistoryLoaded codec maxEntries faults s).2.broken = false := by
    rw [hran.broken]
    refine Bool.eq_false_iff.mpr fun hbroken => ?_
    rw [hrecoverable.chain hbroken] at hwrites
    cases hwrites
  cases request with
  | append records =>
    simp only [call, appendHistoryRecords]
    split
    · exact ⟨⟨(fun h => by cases h), fun _ => rfl, fun r hr => .inl hr⟩, h⟩
    · split
      · exact ⟨atomic_unwritten hran (fun _ => rfl) (fun h => by cases h), hran.sane⟩
      · split
        · exact ⟨atomic_unwritten hran (fun h => by cases h) fun _ => rfl, hran.sane⟩
        · next hne =>
          have hwrites : Request.writes (.append records : Request β) = true := by
            rw [allocate_isEmpty] at hne
            rw [Request.writes, Bool.eq_false_iff.mpr hne]
            rfl
          have hfree := hunbroken hwrites
          have hlink : LinkSpec codec maxEntries (.append records)
              (allocate (ensureHistoryLoaded codec maxEntries faults s).2.nextSeq records).1 _ _ :=
            appendLink_spec (s := { (ensureHistoryLoaded codec maxEntries faults s).2 with
                nextSeq := (allocate (ensureHistoryLoaded codec maxEntries faults s).2.nextSeq
                  records).2 })
              hran.loaded (hran.sane.terminated hfree) (hran.sane.entries hfree hran.loaded)
              (fun fault hfault => by
                have hcompact := hrecoverable.compact fault hfault
                rw [allocate_length]
                rw [← hran.entries] at hcompact
                exact hcompact)
          refine settled_spec hran (by rfl) (by rfl) (by exact hfree) hlink ?_
          exact fun _ _ => rfl
  | delete ids all =>
    simp only [call, deleteHistoryRecords]
    split
    · exact ⟨atomic_unwritten hran (fun _ => rfl) (fun h => by cases h), hran.sane⟩
    · split
      · exact ⟨atomic_unwritten hran (fun h => by cases h) fun _ => rfl, hran.sane⟩
      · next hne =>
        have hwrites : Request.writes (.delete ids all : Request β) = true := by
          simpa [Request.writes, or_iff_not_imp_left] using hne
        have hfree := hunbroken hwrites
        have hlink := deleteLink_spec hran.loaded (hran.sane.entries hfree hran.loaded)
          (fun fault hfault => by
            have hcompact := hrecoverable.compact fault hfault hwrites
            rw [← hran.entries] at hcompact
            exact hcompact)
        refine settled_spec hran rfl rfl hfree hlink ?_
        exact fun _ _ => rfl
  | get select =>
    simp only [call, listHistory]
    split
    · exact ⟨atomic_unwritten hran (fun _ => rfl) (fun h => by cases h), hran.sane⟩
    · exact ⟨atomic_unwritten hran (fun h => by cases h) fun _ => rfl, hran.sane⟩

/-- After every run of recoverable calls from a file that ends with a line
break, every further recoverable call is atomic. -/
theorem calls_atomic {initial : Option Bytes} (hterminated : Terminated (initial.getD []))
    {calls : List (Request β × Faults)}
    (hrun : Run (RecoverableCall codec maxEntries) { file := initial } calls s)
    {request : Request β} (hrecoverable : Recoverable codec maxEntries s request faults) :
    Atomic codec maxEntries s request (call codec maxEntries faults s request).1
      (call codec maxEntries faults s request).2 := by
  have hsane : Sane codec maxEntries s := by
    refine hrun.invariant (I := Sane codec maxEntries)
      ⟨fun _ => hterminated, fun _ h => (by cases h), fun h => (by cases h), fun _ => rfl⟩ ?_
    rintro s label s' hs ⟨hlabel, rfl⟩
    exact (call_spec hs hlabel).2
  exact (call_spec hsane hrecoverable).1

end Calls

section Examples

/-- Appending one record. -/
def appendOne : Request Unit := .append [some ()]

/-- After an append that could not write, one whose operations all succeed
reports an error. -/
theorem append_fails_after_failed_append :
    ∃ s, (call idCodec 200 { append := some 0 } { file := oneRecord } appendOne).2 = s ∧
      ((call idCodec 200 {} s appendOne).1 = ⟨none, false⟩) ∧
      ¬Atomic idCodec 200 s appendOne (call idCodec 200 {} s appendOne).1
        (call idCodec 200 {} s appendOne).2 := by
  have hreport : (call idCodec 200 {} (call idCodec 200 { append := some 0 }
      { file := oneRecord } appendOne).2 appendOne).1 = ⟨none, false⟩ := rfl
  refine ⟨_, rfl, hreport, fun hatomic => ?_⟩
  have hsome := hatomic.succeeds (by rw [hreport])
  rw [hreport] at hsome
  cases hsome

/-- A failed append behind one that succeeded changes nothing. -/
theorem calls_atomic_failed_append :
    ∃ s, Run (RecoverableCall idCodec 200) { file := oneRecord } [(appendOne, {})] s ∧
      (call idCodec 200 { append := some 3 } s appendOne).1.operationFailed = true ∧
      Atomic idCodec 200 s appendOne (call idCodec 200 { append := some 3 } s appendOne).1
        (call idCodec 200 { append := some 3 } s appendOne).2 := by
  have hterminated : Terminated (oneRecord.getD []) := idCodec.terminated_lines [⟨1, ()⟩]
  have hfirst : Recoverable idCodec 200 ({ file := oneRecord } : SequentialStore Unit)
      appendOne {} :=
    ⟨fun _ h => (by cases h <;> contradiction), fun h => (by cases h), fun _ h => (by cases h)⟩
  have hrun : Run (RecoverableCall idCodec 200) { file := oneRecord } [(appendOne, {})]
      (call idCodec 200 {} { file := oneRecord } appendOne).2 :=
    .next .start ⟨hfirst, rfl⟩
  have hsecond : Recoverable idCodec 200 (call idCodec 200 {} { file := oneRecord } appendOne).2
      appendOne { append := some 3 } :=
    ⟨fun _ h => (by cases h <;> contradiction), fun h => (by cases h), fun _ h => (by cases h)⟩
  exact ⟨_, hrun, rfl, calls_atomic hterminated hrun hsecond⟩

end Examples

end LayerInference.HistoryFailures
