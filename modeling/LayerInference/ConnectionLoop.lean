import LayerInference.ChunkedScans
import LayerInference.HttpTransfer

/-!
# The loop of a client connection

Both servers read requests from one connection until a request asks to close
it or reading fails. Each call of the reader starts with an empty buffer, so
what a chunk holds behind the end of a body is lost. The reader looks at its
buffer at the end of a chunk only: it scans the stream in chunks.
-/

namespace LayerInference.ConnectionLoop

open ByteStrings HttpMessages HttpTransfer TextStreams ChunkedScans

section Connection

/-- The size of the array that one `recv` call fills. -/
def maxRecvBytes : ℕ := 8192

def requestWantsKeepAlive (request : HttpRequest) : Bool :=
  match request.headers.lookup (ascii "connection") with
  | none => true
  | some value => lowerCopy (trimCopy value) != ascii "close"

theorem read_shortens {α : Type} {reader : MessageReader α} {s : ReaderState}
    {events rest : List RecvResult} {result : Except Bytes α}
    (h : reader.read s events = some (result, rest)) : rest.length < events.length := by
  induction events generalizing s with
  | nil => cases h
  | cons event events ih =>
    rw [List.length_cons]
    cases event with
    | interrupted => exact Nat.lt_succ_of_lt (ih h)
    | failed errorText =>
      cases h
      exact Nat.lt_succ_self _
    | received chunk =>
      cases chunk with
      | nil =>
        cases h
        exact Nat.lt_succ_self _
      | cons b chunk =>
        rw [MessageReader.read] at h
        split at h
        · cases h
          exact Nat.lt_succ_self _
        · cases h
          exact Nat.lt_succ_self _
        · exact Nat.lt_succ_of_lt (ih h)

/-- The loop of `handle_gateway_client_connection` and of
`handle_stage_client_connection`: the requests it obtains, and the error that
ends it unless a request asked to close the connection. -/
def handleClientConnection (events : List RecvResult) : List HttpRequest × Option Bytes :=
  match _hread : readHttpRequest events with
  | none => ([], none)
  | some (.error e, _) => ([], some e)
  | some (.ok request, rest) =>
    if requestWantsKeepAlive request = true then
      let later := handleClientConnection rest
      (request :: later.1, later.2)
    else ([request], none)
termination_by events.length
decreasing_by exact read_shortens _hread

/-- The `recv` results for a client that sends these chunks and closes. -/
def arrival (chunks : List Bytes) : List RecvResult :=
  chunks.map .received ++ [.received []]

end Connection

section Boundaries

/-- What the reader decides when its buffer ends here. -/
def verdict (buffer : Bytes) : Option (Except Bytes HttpRequest) :=
  match findHeaderEnd buffer with
  | none =>
    if buffer.length > maxHttpHeaderBytes then some (.error requestReader.headersTooLong) else none
  | some headerEnd =>
    match parseRequestHead (buffer.take headerEnd) with
    | .error e => some (.error e)
    | .ok head =>
      match parseContentLength requestReader.invalidLength head.headers with
      | .error e => some (.error e)
      | .ok expected =>
        if buffer.length < headerEnd + 4 + expected then none
        else some (.ok { head with body := (buffer.drop (headerEnd + 4)).take expected })

/-- A known header that waits for its body gives its verdict by length alone. -/
theorem verdict_of_header {buffer : Bytes} {headerEnd expected : ℕ} {head : HttpRequest}
    (h : HeaderOf requestReader buffer headerEnd head expected) :
    verdict buffer = if buffer.length < headerEnd + 4 + expected then none
      else some (.ok { head with body := (buffer.drop (headerEnd + 4)).take expected }) := by
  have hparsed : parseRequestHead (buffer.take headerEnd) = .ok head := h.parsed
  have hannounced :
      parseContentLength requestReader.invalidLength head.headers = .ok expected := h.announced
  unfold verdict
  simp only [h.found, hparsed, hannounced]

/-- One chunk moves the reader on while the verdict is open, and ends it with
the verdict otherwise. -/
theorem receive_verdict {s : ReaderState} (hknown : Known requestReader s) (chunk : Bytes) :
    match verdict (s.buffer ++ chunk) with
    | none => ∃ next, requestReader.receive s chunk = .ok (.inr next) ∧
        Known requestReader next ∧ next.buffer = s.buffer ++ chunk
    | some (.ok request) => requestReader.receive s chunk = .ok (.inl request)
    | some (.error e) => requestReader.receive s chunk = .error e := by
  unfold Known at hknown
  cases hend : s.headerEnd with
  | none =>
    unfold MessageReader.receive
    simp only [hend]
    cases hfind : findHeaderEnd (s.buffer ++ chunk) with
    | none =>
      unfold verdict
      simp only [hfind]
      by_cases hlong : (s.buffer ++ chunk).length > maxHttpHeaderBytes
      · simp only [if_pos hlong]
      · simp only [if_neg hlong]
        exact ⟨_, rfl, hfind, rfl⟩
    | some headerEnd =>
      have hle := find_le hfind
      have hfour : ([13, 10, 13, 10] : Bytes).length = 4 := rfl
      cases hparse : requestReader.parseHead ((s.buffer ++ chunk).take headerEnd) with
      | error e =>
        have hparsed : parseRequestHead ((s.buffer ++ chunk).take headerEnd) = .error e := hparse
        unfold verdict
        simp only [hfind, hparse, hparsed]
      | ok head =>
        have hparsed : parseRequestHead ((s.buffer ++ chunk).take headerEnd) = .ok head := hparse
        cases hannounce : parseContentLength requestReader.invalidLength
            (requestReader.headers head) with
        | error e =>
          have hannounced :
              parseContentLength requestReader.invalidLength head.headers = .error e := hannounce
          unfold verdict
          simp only [hfind, hparse, hparsed, hannounce, hannounced]
        | ok expected =>
          have hheader : HeaderOf requestReader (s.buffer ++ chunk) headerEnd head expected :=
            ⟨hfind, hparse, hannounce⟩
          rw [verdict_of_header hheader]
          simp only [hparse, hannounce, List.length_drop]
          by_cases hmore : (s.buffer ++ chunk).length < headerEnd + 4 + expected
          · simp only [if_pos hmore]
            rw [if_neg (by omega)]
            exact ⟨_, rfl, ⟨head, hheader, hmore⟩, rfl⟩
          · simp only [if_neg hmore]
            rw [if_pos (by omega)]
            rfl
  | some headerEnd =>
    simp only [hend] at hknown
    obtain ⟨head, hbefore, hlt⟩ := hknown
    have hheader := hbefore.append chunk
    have hle := find_le hheader.found
    have hfour : ([13, 10, 13, 10] : Bytes).length = 4 := rfl
    rw [verdict_of_header hheader]
    unfold MessageReader.receive MessageReader.message
    simp only [hend, hheader.parsed]
    by_cases hmore : (s.buffer ++ chunk).length < headerEnd + 4 + s.expectedBodySize
    · simp only [if_pos hmore]
      rw [if_neg (by omega)]
      exact ⟨_, rfl, ⟨head, hheader, hmore⟩, rfl⟩
    · simp only [if_neg hmore]
      rw [if_pos (by omega)]
      rfl

/-- What is reported when the stream ends inside a request. -/
def closedEarly : Bytes := requestReader.closedInHeader

/-- The reader scans the stream for its first verdict. -/
theorem read_arrival {s : ReaderState} (hknown : Known requestReader s) {chunks : List Bytes}
    (hchunks : ∀ chunk ∈ chunks, chunk ≠ []) :
    requestReader.read s (arrival chunks) =
      match scan verdict s.buffer chunks with
      | none => some (.error closedEarly, [])
      | some (result, rest) => some (result, arrival rest) := by
  induction chunks generalizing s with
  | nil =>
    have hclose : requestReader.close s = .error closedEarly := by
      unfold MessageReader.close
      cases s.headerEnd with
      | none => rfl
      | some headerEnd => rfl
    exact congrArg (fun result => some (result, [])) hclose
  | cons chunk chunks ih =>
    have hreceive := receive_verdict hknown chunk
    have hread : requestReader.read s (arrival (chunk :: chunks)) = _ :=
      read_received (hchunks chunk List.mem_cons_self) s (arrival chunks)
    rw [hread]
    cases hverdict : verdict (s.buffer ++ chunk) with
    | none =>
      simp only [hverdict] at hreceive
      obtain ⟨next, hnext, hknownNext, hbuffer⟩ := hreceive
      rw [hnext, scan_cons_of_none hverdict, ← hbuffer]
      exact ih hknownNext fun other hmem => hchunks other (List.mem_cons_of_mem chunk hmem)
    | some result =>
      rw [scan_cons_of_some hverdict]
      cases result with
      | error e =>
        simp only [hverdict] at hreceive
        rw [hreceive]
      | ok request =>
        simp only [hverdict] at hreceive
        rw [hreceive]

/-- The loop over the requests that the scans find. -/
theorem handle_arrival {chunks : List Bytes} (hchunks : ∀ chunk ∈ chunks, chunk ≠ []) :
    handleClientConnection (arrival chunks) =
      match scan verdict [] chunks with
      | none => ([], some closedEarly)
      | some (.error e, _) => ([], some e)
      | some (.ok request, rest) =>
        if requestWantsKeepAlive request = true then
          (request :: (handleClientConnection (arrival rest)).1,
            (handleClientConnection (arrival rest)).2)
        else ([request], none) := by
  have hread : readHttpRequest (arrival chunks) = _ := read_arrival known_start hchunks
  rw [handleClientConnection]
  cases hscan : scan verdict [] chunks with
  | none =>
    simp only [hscan] at hread
    split
    · next hnone => rw [hread] at hnone; cases hnone
    · next e rest herror => rw [hread] at herror; cases herror; rfl
    · next request rest hok => rw [hread] at hok; cases hok
  | some found =>
    obtain ⟨result, rest⟩ := found
    simp only [hscan] at hread
    cases result with
    | error e =>
      split
      · next hnone => rw [hread] at hnone; cases hnone
      · next e' rest' herror => rw [hread] at herror; cases herror; rfl
      · next request' rest' hok => rw [hread] at hok; cases hok
    | ok request =>
      split
      · next hnone => rw [hread] at hnone; cases hnone
      · next e' rest' herror => rw [hread] at herror; cases herror
      · next request' rest' hok => rw [hread] at hok; cases hok; rfl

end Boundaries

end LayerInference.ConnectionLoop
