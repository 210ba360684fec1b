import LayerInference.FrameProtocol
import LayerInference.HttpMessages
import LayerInference.TextStreams

/-!
# HTTP messages on a byte stream

Both ends write a header of lines and a body of the announced length, and both
read with one loop: bytes are appended to a buffer, the end of the header is
searched for, and from then on only the length of the buffer counts. What a
reader knows after some bytes is a function of these bytes, so the cuts
between the received chunks do not matter.
-/

namespace LayerInference.HttpTransfer

open ByteStrings FrameProtocol HttpMessages TextStreams

section Reading

abbrev Headers := List (Bytes × Bytes)

/-- Assignment to a key of the header map. -/
def setHeader (headers : Headers) (key value : Bytes) : Headers :=
  headers.filter (·.1 ≠ key) ++ [(key, value)]

def maxHttpHeaderBytes : ℕ := 64 * 1024

def maxHttpBodyBytes : ℕ := 512 * 1024 * 1024

def crlf : Bytes := [13, 10]

def findHeaderEnd (buffer : Bytes) : Option ℕ := find [13, 10, 13, 10] buffer

/-- The lines of a header, each without the carriage return at its end. -/
def headerLines (headerText : Bytes) : List Bytes := (getLines headerText).map dropCr

/-- The header fields up to an empty line. A line without a colon is skipped. -/
def readHeaders : List Bytes → Headers → Headers
  | [], headers => headers
  | line :: lines, headers =>
    if line = [] then headers
    else
      match find [58] line with
      | none => readHeaders lines headers
      | some colon =>
        readHeaders lines (setHeader headers (lowerCopy (trimCopy (line.take colon)))
          (trimCopy (line.drop (colon + 1))))

/-- `parse_http_request` up to the assignment of the body. -/
def parseRequestHead (headerText : Bytes) : Except Bytes HttpRequest :=
  match headerLines headerText with
  | [] => .error (ascii "missing HTTP request line")
  | requestLine :: lines =>
    let method := extractWord requestLine
    let path := extractWord method.2
    let version := extractWord path.2
    if method.1 = [] ∨ path.1 = [] ∨ version.1 = [] then
      .error (ascii "malformed HTTP request line")
    else
      .ok { method := method.1, path := path.1, headers := readHeaders lines [] }

/-- What a client reads of a response. -/
structure HttpClientResponse where
  statusCode : ℤ := 0
  reason : Bytes := []
  headers : Headers := []
  body : Bytes := []
  deriving DecidableEq

/-- `parse_http_response` up to the assignment of the body. The reason stays
empty when the status could not be extracted. -/
def parseResponseHead (headerText : Bytes) : Except Bytes HttpClientResponse :=
  match headerLines headerText with
  | [] => .error (ascii "missing HTTP response status line")
  | statusLine :: lines =>
    let version := extractWord statusLine
    let status := extractInt version.2
    if version.1 = [] ∨ status.1 ≤ 0 then
      .error (ascii "malformed HTTP response status line")
    else
      .ok
        { statusCode := status.1
          reason := trimCopy (status.2.getD [])
          headers := readHeaders lines [] }

/-- The announced length of the body. The texts of the two inner errors are
lost, since the outer handler replaces them. -/
def parseContentLength (invalid : Bytes) (headers : Headers) : Except Bytes ℕ :=
  match headers.lookup (ascii "content-length") with
  | none => .ok 0
  | some text =>
    match stoull text with
    | none => .error invalid
    | some (value, parsedChars) =>
      if parsedChars ≠ text.length then .error invalid
      else if value > maxHttpBodyBytes then .error invalid
      else .ok value

/-- In what the readers of requests and of responses differ. -/
structure MessageReader (α : Type) where
  parseHead : Bytes → Except Bytes α
  headers : α → Headers
  withBody : α → Bytes → α
  recvFailed : Bytes
  headersTooLong : Bytes
  invalidLength : Bytes
  /-- The error when the stream ends inside the header. -/
  closedInHeader : Bytes
  /-- The error when the stream ends inside the body, if that is one. -/
  closedInBody : Option Bytes

/-- What one `recv` call gives. No bytes are the end of the stream. -/
inductive RecvResult where
  | received (chunk : Bytes)
  | interrupted
  | failed (errorText : Bytes)
  deriving DecidableEq

/-- The variables of the reading loop. -/
structure ReaderState where
  buffer : Bytes := []
  headerEnd : Option ℕ := none
  expectedBodySize : ℕ := 0

variable {α : Type} (reader : MessageReader α)

/-- The message made of the header and the bytes behind it. -/
def MessageReader.message (buffer : Bytes) (headerEnd : ℕ) (body : Bytes) : Except Bytes α :=
  match reader.parseHead (buffer.take headerEnd) with
  | .error e => .error e
  | .ok head => .ok (reader.withBody head body)

/-- The body of the loop for received bytes: a message, or the next state. -/
def MessageReader.receive (s : ReaderState) (chunk : Bytes) : Except Bytes (α ⊕ ReaderState) :=
  let buffer := s.buffer ++ chunk
  match s.headerEnd with
  | none =>
    match findHeaderEnd buffer with
    | none =>
      if buffer.length > maxHttpHeaderBytes then .error reader.headersTooLong
      else .ok (.inr { s with buffer := buffer })
    | some headerEnd =>
      match reader.parseHead (buffer.take headerEnd) with
      | .error e => .error e
      | .ok head =>
        match parseContentLength reader.invalidLength (reader.headers head) with
        | .error e => .error e
        | .ok expected =>
          let body := buffer.drop (headerEnd + 4)
          if body.length ≥ expected then .ok (.inl (reader.withBody head (body.take expected)))
          else .ok (.inr ⟨buffer, some headerEnd, expected⟩)
  | some headerEnd =>
    if buffer.length - (headerEnd + 4) ≥ s.expectedBodySize then
      match reader.message buffer headerEnd
          ((buffer.drop (headerEnd + 4)).take s.expectedBodySize) with
      | .error e => .error e
      | .ok message => .ok (.inl message)
    else .ok (.inr { s with buffer := buffer })

/-- The end of the stream. -/
def MessageReader.close (s : ReaderState) : Except Bytes α :=
  match s.headerEnd with
  | none => .error reader.closedInHeader
  | some headerEnd =>
    match reader.closedInBody with
    | some e => .error e
    | none => reader.message s.buffer headerEnd (s.buffer.drop (headerEnd + 4))

/-- The reading loop over the results of its `recv` calls: what it returns and
the results that were left, or nothing while it still waits. -/
def MessageReader.read (s : ReaderState) :
    List RecvResult → Option (Except Bytes α × List RecvResult)
  | [] => none
  | .interrupted :: rest => MessageReader.read s rest
  | .failed errorText :: rest => some (.error (reader.recvFailed ++ errorText), rest)
  | .received [] :: rest => some (reader.close s, rest)
  | .received (b :: chunk) :: rest =>
    match reader.receive s (b :: chunk) with
    | .error e => some (.error e, rest)
    | .ok (.inl message) => some (.ok message, rest)
    | .ok (.inr next) => MessageReader.read next rest

def requestReader : MessageReader HttpRequest where
  parseHead := parseRequestHead
  headers := HttpRequest.headers
  withBody request body := { request with body := body }
  recvFailed := ascii "recv failed: "
  headersTooLong := ascii "HTTP headers exceed maximum allowed size"
  invalidLength := ascii "invalid Content-Length"
  closedInHeader := ascii "client closed connection before full request was received"
  closedInBody := some (ascii "client closed connection before full request was received")

def responseReader : MessageReader HttpClientResponse where
  parseHead := parseResponseHead
  headers := HttpClientResponse.headers
  withBody response body := { response with body := body }
  recvFailed := ascii "recv failed while reading HTTP response: "
  headersTooLong := ascii "HTTP response headers exceed maximum allowed size"
  invalidLength := ascii "invalid Content-Length in HTTP response"
  closedInHeader := ascii "connection closed before HTTP response header was received"
  closedInBody := none

def readHttpRequest (events : List RecvResult) :
    Option (Except Bytes HttpRequest × List RecvResult) :=
  requestReader.read {} events

def readHttpResponse (events : List RecvResult) :
    Option (Except Bytes HttpClientResponse × List RecvResult) :=
  responseReader.read {} events

end Reading

section Writing

/-- A URL in its parts, as its parser leaves them. -/
structure ParsedUrl where
  host : Bytes
  port : ℤ := 80
  path : Bytes := ascii "/"
  host_ne : host ≠ []
  port_pos : 0 < port
  port_le : port ≤ 65535
  path_ne : path ≠ []

/-- `std::string::rfind` for one byte. -/
def rfind (b : UInt8) (text : Bytes) : Option ℕ :=
  (find [b] text.reverse).map fun position => text.length - 1 - position

theorem rfind_eq_none {b : UInt8} {text : Bytes} (h : b ∉ text) : rfind b text = none := by
  rw [rfind, find_eq_none_of_not_mem fun hmem => h (List.mem_reverse.mp hmem), Option.map_none]

/-- The last byte of a kind is the one that none follows. -/
theorem rfind_append_cons {b : UInt8} {after : Bytes} (h : b ∉ after) (before : Bytes) :
    rfind b (before ++ b :: after) = some before.length := by
  have hfind : find [b] (b :: before.reverse) = some 0 := by
    have hstarts : [b].isPrefixOf (b :: before.reverse) = true :=
      List.isPrefixOf_iff_prefix.mpr ⟨before.reverse, rfl⟩
    rw [find, if_pos hstarts]
  have hreverse : (before ++ b :: after).reverse = after.reverse ++ b :: before.reverse := by
    rw [List.reverse_append, List.reverse_cons, List.append_assoc, List.singleton_append]
  have hlength : (before ++ b :: after).length - 1 - after.length = before.length := by
    rw [List.length_append, List.length_cons]
    omega
  rw [rfind, hreverse, find_append_of_not_mem fun hmem => h (List.mem_reverse.mp hmem), hfind,
    Option.map_some, Option.map_some, Nat.zero_add, List.length_reverse, hlength]

theorem pathOrRoot_ne (path : Bytes) : (if path = [] then ascii "/" else path) ≠ [] := by
  split
  · exact List.cons_ne_nil _ _
  · assumption

def parseHttpUrl (url : Bytes) : Except Bytes ParsedUrl :=
  if (ascii "http://").isPrefixOf url = false then
    .error (ascii "only http:// URLs are supported: " ++ url)
  else
    let rest := url.drop 7
    let slashPos := find [47] rest
    let hostPort := match slashPos with
      | none => rest
      | some slash => rest.take slash
    let path := match slashPos with
      | none => ascii "/"
      | some slash => rest.drop slash
    let parsed : Except Bytes (Bytes × ℤ) := match rfind 58 hostPort with
      | none => .ok (hostPort, 80)
      | some colon =>
        match stoi (hostPort.drop (colon + 1)) with
        | none => .error (ascii "invalid URL port: " ++ hostPort.drop (colon + 1))
        | some port => .ok (hostPort.take colon, port)
    match parsed with
    | .error e => .error e
    | .ok (host, port) =>
      if hhost : host = [] then .error (ascii "URL host is empty: " ++ url)
      else if hport : port ≤ 0 ∨ port > 65535 then
        .error (ascii "URL port out of range: " ++ decimal port)
      else
        .ok
          { host := host
            port := port
            path := if path = [] then ascii "/" else path
            host_ne := hhost
            port_pos := Int.not_le.mp (not_or.mp hport).1
            port_le := Int.not_lt.mp (not_or.mp hport).2
            path_ne := pathOrRoot_ne path }

/-- The header of a request, up to the empty line. -/
def postHeader (url : ParsedUrl) (body : Bytes) : Bytes :=
  ascii "POST " ++ url.path ++ ascii " HTTP/1.1\r\n" ++
    (ascii "Host: " ++ url.host ++ ascii ":" ++ decimal url.port ++ crlf) ++
    ascii "Content-Type: application/octet-stream\r\n" ++
    (ascii "Content-Length: " ++ decimalNat body.length ++ crlf) ++
    ascii "Connection: keep-alive\r\n" ++ crlf

/-- The bytes that the persistent client sends for a body, in one write. -/
def postBytes (url : ParsedUrl) (body : Bytes) : Bytes := postHeader url body ++ body

def responseHeader (response : HttpResponse) : Bytes :=
  (ascii "HTTP/1.1 " ++ decimal response.statusCode ++ ascii " " ++ response.reason ++ crlf) ++
    (ascii "Content-Type: " ++ response.contentType ++ crlf) ++
    (ascii "Content-Length: " ++ decimalNat response.body.length ++ crlf) ++
    (ascii "Connection: " ++ (if response.keepAlive then ascii "keep-alive" else ascii "close") ++
      crlf) ++ crlf

/-- The bytes that `send_http_response` sends when the peer takes them all. -/
def responseBytes (response : HttpResponse) : Bytes := responseHeader response ++ response.body

end Writing

section Cuts

variable {α : Type} (reader : MessageReader α)

/-- A header that ends with its first empty line, is accepted, and announces
the body behind it. -/
structure Framed (head : Bytes) (message : α) (body : Bytes) : Prop where
  terminated : findHeaderEnd (head ++ [13, 10, 13, 10]) = some head.length
  parsed : reader.parseHead head = .ok message
  announced : parseContentLength reader.invalidLength (reader.headers message) = .ok body.length
  short : head.length + 4 ≤ maxHttpHeaderBytes

/-- A whole message as it is sent. -/
def wholeText (head body : Bytes) : Bytes := head ++ ([13, 10, 13, 10] ++ body)

theorem wholeText_length (head body : Bytes) :
    (wholeText head body).length = head.length + 4 + body.length := by
  unfold wholeText
  rw [List.length_append, List.length_append]
  exact (Nat.add_assoc _ _ _).symm

/-- What the reader knows after the first bytes of a message. -/
def stateAt (head body start : Bytes) : ReaderState :=
  if start.length < head.length + 4 then ⟨start, none, 0⟩
  else ⟨start, some head.length, body.length⟩

/-- The end of the header is seen exactly from its last byte on. -/
theorem findHeaderEnd_of_prefix {head body start : Bytes}
    (hend : findHeaderEnd (head ++ [13, 10, 13, 10]) = some head.length)
    (hstart : start <+: wholeText head body) :
    findHeaderEnd start =
      if start.length < head.length + 4 then none else some head.length := by
  have hwhole : findHeaderEnd (wholeText head body) = some head.length := by
    have happend := find_append_of_some body hend
    rw [List.append_assoc] at happend
    exact happend
  obtain ⟨rest, hrest⟩ := hstart
  split
  · next hshort =>
    cases hfind : findHeaderEnd start with
    | none => rfl
    | some position =>
      have hlater := find_append_of_some rest hfind
      have hposition : position = head.length := by
        rw [hrest] at hlater
        exact Option.some.inj (hlater.symm.trans hwhole)
      have hle := find_le hfind
      rw [hposition] at hle
      exact absurd hle (Nat.not_le.mpr hshort)
  · next hlong =>
    have hhead : head ++ [13, 10, 13, 10] <+: start := by
      have hwholePrefix : head ++ [13, 10, 13, 10] <+: wholeText head body :=
        ⟨body, List.append_assoc _ _ _⟩
      refine List.prefix_of_prefix_length_le hwholePrefix ⟨rest, hrest⟩ ?_
      rw [List.length_append]
      exact Nat.not_lt.mp hlong
    obtain ⟨more, hmore⟩ := hhead
    rw [← hmore]
    exact find_append_of_some more hend

/-- Behind the header, a start of the message is the header and a part of the
body. -/
theorem prefix_parts {head body start : Bytes} (hstart : start <+: wholeText head body)
    (hlong : head.length + 4 ≤ start.length) :
    start.take head.length = head ∧
      start.drop (head.length + 4) = body.take (start.length - (head.length + 4)) := by
  have htake := List.prefix_iff_eq_take.mp hstart
  have hwhole : wholeText head body = head ++ [13, 10, 13, 10] ++ body :=
    (List.append_assoc _ _ _).symm
  have hlength : (head ++ [13, 10, 13, 10]).length = head.length + 4 := List.length_append
  constructor
  · rw [htake, List.take_take, Nat.min_eq_left (by omega)]
    exact List.take_left
  · conv_lhs => rw [htake]
    rw [List.drop_take, hwhole, ← hlength, List.drop_left]

variable {reader}

/-- One more chunk of a message. -/
theorem receive_stateAt {head : Bytes} {message : α} {body : Bytes}
    (hframed : Framed reader head message body) {start chunk : Bytes}
    (hnext : start ++ chunk <+: wholeText head body) :
    reader.receive (stateAt head body start) chunk =
      .ok (if (start ++ chunk).length < (wholeText head body).length then
        .inr (stateAt head body (start ++ chunk)) else .inl (reader.withBody message body)) := by
  have hfind := findHeaderEnd_of_prefix hframed.terminated hnext
  have hwhole := wholeText_length head body
  have hle := hnext.length_le
  have hgrow : start.length ≤ (start ++ chunk).length := by
    rw [List.length_append]
    exact Nat.le_add_right _ _
  by_cases hheader : (start ++ chunk).length < head.length + 4
  · have hbefore : start.length < head.length + 4 := by omega
    have hmore : (start ++ chunk).length < (wholeText head body).length := by omega
    have hlimit : ¬(start ++ chunk).length > maxHttpHeaderBytes := by
      have hshort := hframed.short
      omega
    rw [if_pos hheader] at hfind
    unfold stateAt MessageReader.receive
    simp only [if_pos hbefore, if_pos hheader, if_pos hmore, hfind, if_neg hlimit]
  · obtain ⟨htake, hdrop⟩ := prefix_parts hnext (Nat.not_lt.mp hheader)
    have hbodyLength : (body.take ((start ++ chunk).length - (head.length + 4))).length =
        (start ++ chunk).length - (head.length + 4) := by
      rw [List.length_take]
      omega
    have hall (hdone : ¬(start ++ chunk).length < (wholeText head body).length) :
        (body.take ((start ++ chunk).length - (head.length + 4))).take body.length = body := by
      rw [List.take_take, Nat.min_eq_left (by omega), List.take_length]
    rw [if_neg hheader] at hfind
    by_cases hbefore : start.length < head.length + 4
    · unfold stateAt MessageReader.receive
      simp only [if_pos hbefore, if_neg hheader, hfind, htake, hframed.parsed, hframed.announced,
        hdrop, hbodyLength]
      by_cases hdone : (start ++ chunk).length < (wholeText head body).length
      · rw [if_pos hdone, if_neg (by omega)]
      · rw [if_neg hdone, if_pos (by omega), hall hdone]
    · unfold stateAt MessageReader.receive MessageReader.message
      simp only [if_neg hbefore, if_neg hheader, htake, hframed.parsed, hdrop]
      by_cases hdone : (start ++ chunk).length < (wholeText head body).length
      · rw [if_pos hdone, if_neg (by omega)]
      · rw [if_neg hdone, if_pos (by omega), hall hdone]

theorem read_received {chunk : Bytes} (hne : chunk ≠ []) (s : ReaderState)
    (rest : List RecvResult) :
    reader.read s (.received chunk :: rest) =
      match reader.receive s chunk with
      | .error e => some (.error e, rest)
      | .ok (.inl message) => some (.ok message, rest)
      | .ok (.inr next) => reader.read next rest := by
  obtain ⟨b, tail, rfl⟩ := List.exists_cons_of_ne_nil hne
  rfl

/-- Chunks that do not complete the message only move the reader along it. -/
theorem read_pending {head : Bytes} {message : α} {body : Bytes}
    (hframed : Framed reader head message body) {chunks : List Bytes}
    (hchunks : ∀ chunk ∈ chunks, chunk ≠ []) {start : Bytes}
    (hstarts : start ++ chunks.flatten <+: wholeText head body)
    (hmissing : (start ++ chunks.flatten).length < (wholeText head body).length)
    (rest : List RecvResult) :
    reader.read (stateAt head body start) (chunks.map .received ++ rest) =
      reader.read (stateAt head body (start ++ chunks.flatten)) rest := by
  induction chunks generalizing start with
  | nil =>
    rw [List.flatten_nil, List.append_nil]
    rfl
  | cons chunk chunks ih =>
    have hsplit : start ++ (chunk :: chunks).flatten = start ++ chunk ++ chunks.flatten := by
      rw [List.flatten_cons, List.append_assoc]
    rw [hsplit] at hstarts hmissing ⊢
    have hnext : start ++ chunk <+: wholeText head body :=
      (List.prefix_append _ _).trans hstarts
    have hmore : (start ++ chunk).length < (wholeText head body).length := by
      rw [List.length_append] at hmissing
      omega
    have hne : chunk ≠ [] := hchunks chunk List.mem_cons_self
    have hrest := ih (fun other hother => hchunks other (List.mem_cons_of_mem chunk hother))
      hstarts hmissing
    rw [List.map_cons, List.cons_append, read_received hne, receive_stateAt hframed hnext,
      if_pos hmore]
    exact hrest

/-- Chunks that complete the message give it, however it was cut. -/
theorem read_whole {head : Bytes} {message : α} {body : Bytes}
    (hframed : Framed reader head message body) {chunks : List Bytes}
    (hchunks : ∀ chunk ∈ chunks, chunk ≠ []) {start : Bytes}
    (hmissing : start.length < (wholeText head body).length)
    (hwhole : start ++ chunks.flatten = wholeText head body) (rest : List RecvResult) :
    reader.read (stateAt head body start) (chunks.map .received ++ rest) =
      some (.ok (reader.withBody message body), rest) := by
  rcases List.eq_nil_or_concat' chunks with rfl | ⟨before, last, rfl⟩
  · rw [List.flatten_nil, List.append_nil] at hwhole
    rw [hwhole] at hmissing
    exact absurd hmissing (Nat.lt_irrefl _)
  · have hlast : last ≠ [] := hchunks last (List.mem_append_right _ List.mem_cons_self)
    have hbefore : ∀ chunk ∈ before, chunk ≠ [] := fun chunk hchunk =>
      hchunks chunk (List.mem_append_left _ hchunk)
    have hsplit : start ++ before.flatten ++ last = wholeText head body := by
      rw [List.flatten_append, List.flatten_singleton, ← List.append_assoc] at hwhole
      exact hwhole
    have hshort : (start ++ before.flatten).length < (wholeText head body).length := by
      have hpos := List.length_pos_iff.mpr hlast
      have hsum : (start ++ before.flatten ++ last).length =
          (start ++ before.flatten).length + last.length := List.length_append
      rw [← hsplit, hsum]
      omega
    have hpending := read_pending hframed hbefore ⟨last, hsplit⟩ hshort
      (.received last :: rest)
    have hdone : ¬(start ++ before.flatten ++ last).length < (wholeText head body).length := by
      rw [hsplit]
      exact Nat.lt_irrefl _
    rw [List.map_append, List.append_assoc, List.map_singleton, List.singleton_append, hpending,
      read_received hlast, receive_stateAt hframed ⟨[], by rw [List.append_nil, hsplit]⟩,
      if_neg hdone]

theorem stateAt_nil (head body : Bytes) : stateAt head body [] = {} := by
  unfold stateAt
  exact if_pos (Nat.succ_pos _)

end Cuts

section Soundness

variable {α : Type} {reader : MessageReader α}

/-- The bytes among the results of `recv` calls. -/
def receivedBytes : List RecvResult → Bytes
  | [] => []
  | .received chunk :: rest => chunk ++ receivedBytes rest
  | .interrupted :: rest => receivedBytes rest
  | .failed _ :: rest => receivedBytes rest

/-- Results with bytes, or without any effect. -/
def Flowing (events : List RecvResult) : Prop :=
  ∀ event ∈ events, event = .interrupted ∨ ∃ chunk, chunk ≠ [] ∧ event = .received chunk

theorem receivedBytes_append (events rest : List RecvResult) :
    receivedBytes (events ++ rest) = receivedBytes events ++ receivedBytes rest := by
  induction events with
  | nil => rfl
  | cons event events ih =>
    cases event with
    | received chunk =>
      rw [List.cons_append, receivedBytes, receivedBytes, ih, List.append_assoc]
    | interrupted => exact ih
    | failed errorText => exact ih

/-- Some bytes contain a header, and the header announces a length. -/
structure HeaderOf (reader : MessageReader α) (buffer : Bytes) (headerEnd : ℕ) (head : α)
    (expected : ℕ) : Prop where
  found : findHeaderEnd buffer = some headerEnd
  parsed : reader.parseHead (buffer.take headerEnd) = .ok head
  announced : parseContentLength reader.invalidLength (reader.headers head) = .ok expected

theorem HeaderOf.append {buffer : Bytes} {headerEnd : ℕ} {head : α} {expected : ℕ}
    (h : HeaderOf reader buffer headerEnd head expected) (chunk : Bytes) :
    HeaderOf reader (buffer ++ chunk) headerEnd head expected where
  found := find_append_of_some chunk h.found
  parsed := by
    have hle := find_le h.found
    rw [List.take_append_of_le_length (Nat.le_trans (Nat.le_add_right _ _) hle)]
    exact h.parsed
  announced := h.announced

/-- What the variables of the loop mean between two `recv` calls. -/
def Known (reader : MessageReader α) (s : ReaderState) : Prop :=
  match s.headerEnd with
  | none => findHeaderEnd s.buffer = none
  | some headerEnd => ∃ head, HeaderOf reader s.buffer headerEnd head s.expectedBodySize ∧
      s.buffer.length < headerEnd + 4 + s.expectedBodySize

/-- The whole message that some bytes contain. -/
def Holds (reader : MessageReader α) (buffer : Bytes) (message : α) : Prop :=
  ∃ headerEnd head expected, HeaderOf reader buffer headerEnd head expected ∧
    headerEnd + 4 + expected ≤ buffer.length ∧
      message = reader.withBody head ((buffer.drop (headerEnd + 4)).take expected)

/-- The message that is made of bytes that end too early. -/
def HoldsCut (reader : MessageReader α) (buffer : Bytes) (message : α) : Prop :=
  ∃ headerEnd head expected, HeaderOf reader buffer headerEnd head expected ∧
    buffer.length < headerEnd + 4 + expected ∧
      message = reader.withBody head (buffer.drop (headerEnd + 4))

/-- A chunk extends the buffer, or completes the message. -/
theorem receive_ok {s : ReaderState} (hknown : Known reader s) {chunk : Bytes}
    {out : α ⊕ ReaderState} (h : reader.receive s chunk = .ok out) :
    (∃ next, out = .inr next ∧ Known reader next ∧ next.buffer = s.buffer ++ chunk) ∨
      ∃ message, out = .inl message ∧ Holds reader (s.buffer ++ chunk) message := by
  unfold MessageReader.receive at h
  unfold Known at hknown
  cases hend : s.headerEnd with
  | none =>
    simp only [hend] at h hknown
    cases hfind : findHeaderEnd (s.buffer ++ chunk) with
    | none =>
      simp only [hfind] at h
      split at h
      · cases h
      · cases h
        exact Or.inl ⟨_, rfl, hfind, rfl⟩
    | some headerEnd =>
      simp only [hfind] at h
      cases hparse : reader.parseHead ((s.buffer ++ chunk).take headerEnd) with
      | error e =>
        rw [hparse] at h
        cases h
      | ok head =>
        simp only [hparse] at h
        cases hlength : parseContentLength reader.invalidLength (reader.headers head) with
        | error e =>
          rw [hlength] at h
          cases h
        | ok expected =>
          have hheader : HeaderOf reader (s.buffer ++ chunk) headerEnd head expected :=
            ⟨hfind, hparse, hlength⟩
          have hle := find_le hfind
          have hfour : ([13, 10, 13, 10] : Bytes).length = 4 := rfl
          simp only [hlength, List.length_drop] at h
          split at h
          · next hdone =>
            cases h
            exact Or.inr ⟨_, rfl, headerEnd, head, expected, hheader, by omega, rfl⟩
          · next hmore =>
            cases h
            exact Or.inl ⟨_, rfl, ⟨head, hheader, by dsimp only; omega⟩, rfl⟩
  | some headerEnd =>
    simp only [hend] at h hknown
    obtain ⟨head, hbefore, hlt⟩ := hknown
    have hheader := hbefore.append chunk
    have hle := find_le hheader.found
    have hfour : ([13, 10, 13, 10] : Bytes).length = 4 := rfl
    unfold MessageReader.message at h
    rw [hheader.parsed] at h
    split at h
    · next hdone =>
      cases h
      exact Or.inr ⟨_, rfl, headerEnd, head, s.expectedBodySize, hheader, by omega, rfl⟩
    · next hmore =>
      cases h
      exact Or.inl ⟨_, rfl, ⟨head, hheader, by dsimp only; omega⟩, rfl⟩

/-- A stream that ends gives a message only out of a part of the body. -/
theorem close_ok {s : ReaderState} (hknown : Known reader s) {message : α}
    (h : reader.close s = .ok message) : HoldsCut reader s.buffer message := by
  unfold MessageReader.close at h
  unfold Known at hknown
  cases hend : s.headerEnd with
  | none =>
    rw [hend] at h
    cases h
  | some headerEnd =>
    simp only [hend] at h hknown
    obtain ⟨head, hheader, hlt⟩ := hknown
    cases hclosed : reader.closedInBody with
    | some e =>
      rw [hclosed] at h
      cases h
    | none =>
      unfold MessageReader.message at h
      simp only [hclosed, hheader.parsed] at h
      cases h
      exact ⟨headerEnd, head, s.expectedBodySize, hheader, hlt, rfl⟩

/-- What a reader returns is a message that the bytes contain, or one that was
cut by the end of the stream. -/
theorem read_ok {s : ReaderState} (hknown : Known reader s) {events : List RecvResult}
    {message : α} {rest : List RecvResult}
    (h : reader.read s events = some (.ok message, rest)) :
    ∃ used, Flowing used ∧
      ((events = used ++ rest ∧ Holds reader (s.buffer ++ receivedBytes used) message) ∨
        (events = used ++ .received [] :: rest ∧
          HoldsCut reader (s.buffer ++ receivedBytes used) message)) := by
  induction events generalizing s with
  | nil => cases h
  | cons event events ih =>
    cases event with
    | interrupted =>
      obtain ⟨used, hflow, hcase⟩ := ih hknown h
      refine ⟨.interrupted :: used, ?_, ?_⟩
      · intro other hother
        rcases List.mem_cons.mp hother with rfl | hother
        · exact Or.inl rfl
        · exact hflow other hother
      · rcases hcase with ⟨rfl, hholds⟩ | ⟨rfl, hholds⟩
        · exact Or.inl ⟨rfl, hholds⟩
        · exact Or.inr ⟨rfl, hholds⟩
    | failed errorText => cases h
    | received chunk =>
      by_cases hne : chunk = []
      · subst hne
        have hclose : reader.close s = .ok message ∧ events = rest := by
          have heq := Option.some.inj h
          exact ⟨congrArg Prod.fst heq, congrArg Prod.snd heq⟩
        have hcut := close_ok hknown hclose.1
        rw [← List.append_nil s.buffer] at hcut
        refine ⟨[], (fun other hother => by cases hother), Or.inr ⟨?_, hcut⟩⟩
        rw [hclose.2]
        rfl
      · rw [read_received hne] at h
        have hone : RecvResult.received chunk = .interrupted ∨
            ∃ other, other ≠ [] ∧ RecvResult.received chunk = .received other :=
          Or.inr ⟨chunk, hne, rfl⟩
        cases hreceive : reader.receive s chunk with
        | error e =>
          rw [hreceive] at h
          cases h
        | ok out =>
          rcases receive_ok hknown hreceive with
            ⟨next, rfl, hnext, hbuffer⟩ | ⟨whole, rfl, hholds⟩
          · rw [hreceive] at h
            obtain ⟨used, hflow, hcase⟩ := ih hnext h
            rw [hbuffer, List.append_assoc] at hcase
            refine ⟨.received chunk :: used, ?_, ?_⟩
            · intro other hother
              rcases List.mem_cons.mp hother with rfl | hother
              · exact hone
              · exact hflow other hother
            · rcases hcase with ⟨rfl, hholds⟩ | ⟨rfl, hholds⟩
              · exact Or.inl ⟨rfl, hholds⟩
              · exact Or.inr ⟨rfl, hholds⟩
          · rw [hreceive] at h
            cases h
            refine ⟨[.received chunk], ?_, Or.inl ⟨rfl, ?_⟩⟩
            · intro other hother
              rw [List.mem_singleton.mp hother]
              exact hone
            · rw [receivedBytes, receivedBytes, List.append_nil]
              exact hholds

/-- The reader at the start of a message. -/
theorem known_start : Known reader {} := rfl

/-- A whole message that arrives is returned. -/
theorem read_arrived {head : Bytes} {message : α} {body : Bytes}
    (hframed : Framed reader head message body) {events : List RecvResult}
    (hflow : Flowing events) {start : Bytes}
    (hmissing : start.length < (wholeText head body).length)
    (hwhole : start ++ receivedBytes events = wholeText head body) (rest : List RecvResult) :
    ∃ left, receivedBytes left = [] ∧ reader.read (stateAt head body start) (events ++ rest) =
      some (.ok (reader.withBody message body), left ++ rest) := by
  induction events generalizing start with
  | nil =>
    rw [receivedBytes, List.append_nil] at hwhole
    rw [hwhole] at hmissing
    exact absurd hmissing (Nat.lt_irrefl _)
  | cons event events ih =>
    have htail : Flowing events := fun other hother =>
      hflow other (List.mem_cons_of_mem event hother)
    rcases hflow event List.mem_cons_self with rfl | ⟨chunk, hne, rfl⟩
    · exact ih htail hmissing hwhole
    · have hsplit : start ++ chunk ++ receivedBytes events = wholeText head body := by
        rw [List.append_assoc]
        exact hwhole
      have hnext : start ++ chunk <+: wholeText head body := ⟨receivedBytes events, hsplit⟩
      rw [List.cons_append, read_received hne, receive_stateAt hframed hnext]
      by_cases hmore : (start ++ chunk).length < (wholeText head body).length
      · rw [if_pos hmore]
        exact ih htail hmore hsplit
      · rw [if_neg hmore]
        refine ⟨events, ?_, rfl⟩
        have hlength : (start ++ chunk).length + (receivedBytes events).length =
            (wholeText head body).length := by
          rw [← hsplit]
          exact List.length_append.symm
        exact List.length_eq_zero_iff.mp (by omega)

end Soundness

section Lines

/-- A line of a header: not empty, and on one line. -/
structure OneLine (line : Bytes) : Prop where
  ne : line ≠ []
  noReturn : 13 ∉ line
  noNewline : 10 ∉ line

/-- Lines with line ends between them. -/
def joinLines : List Bytes → Bytes
  | [] => []
  | [line] => line
  | line :: next :: lines => line ++ (crlf ++ joinLines (next :: lines))

/-- The first empty line is behind the last line. -/
theorem findHeaderEnd_joinLines {lines : List Bytes} (hlines : ∀ line ∈ lines, OneLine line)
    (hne : lines ≠ []) :
    findHeaderEnd (joinLines lines ++ [13, 10, 13, 10]) = some (joinLines lines).length := by
  induction lines with
  | nil => exact absurd rfl hne
  | cons line lines ih =>
    have hline := hlines line List.mem_cons_self
    have hskip (rest : Bytes) : find (13 :: [10, 13, 10]) (line ++ rest) =
        (find (13 :: [10, 13, 10]) rest).map (· + line.length) :=
      find_append_of_not_mem hline.noReturn rest
    unfold findHeaderEnd at ih ⊢
    cases lines with
    | nil =>
      rw [joinLines, hskip]
      exact congrArg some (Nat.zero_add _)
    | cons next lines =>
      obtain ⟨b, tail, hcons⟩ := List.exists_cons_of_ne_nil
        (show joinLines (next :: lines) ++ [13, 10, 13, 10] ≠ [] from
          List.append_ne_nil_of_right_ne_nil _ (List.cons_ne_nil _ _))
      have hnext := hlines next (List.mem_cons_of_mem _ List.mem_cons_self)
      have hb : b ≠ 13 := by
        rintro rfl
        obtain ⟨first, more, hfirst⟩ := List.exists_cons_of_ne_nil hnext.ne
        have hhead : first = 13 := by
          cases lines with
          | nil =>
            rw [joinLines, hfirst] at hcons
            exact (List.cons.inj hcons).1
          | cons other lines =>
            rw [joinLines, hfirst] at hcons
            exact (List.cons.inj hcons).1
        exact hnext.noReturn (hfirst ▸ hhead ▸ List.mem_cons_self)
      have hrest := ih (fun other hother => hlines other (List.mem_cons_of_mem line hother))
        (List.cons_ne_nil _ _)
      have hreturn : ([13, 10, 13, 10] : Bytes).isPrefixOf (13 :: 10 :: b :: tail) = false := by
        have hbeq : ((13 : UInt8) == b) = false := beq_eq_false_iff_ne.mpr hb.symm
        simp only [List.isPrefixOf, hbeq, Bool.false_and, Bool.and_false]
      have hnewline : ([13, 10, 13, 10] : Bytes).isPrefixOf (10 :: b :: tail) = false := rfl
      rw [joinLines, List.append_assoc, hskip, crlf, List.append_assoc, hcons, List.cons_append,
        List.cons_append, List.nil_append, find, if_neg (by rw [hreturn]; exact Bool.false_ne_true),
        find, if_neg (by rw [hnewline]; exact Bool.false_ne_true), ← hcons, hrest]
      simp only [Option.map_some, List.length_append, List.length_cons, List.length_nil]
      exact congrArg some (by omega)

/-- The header splits into its lines again. -/
theorem headerLines_joinLines {lines : List Bytes} (hlines : ∀ line ∈ lines, OneLine line) :
    headerLines (joinLines lines) = lines := by
  unfold headerLines
  induction lines with
  | nil => rfl
  | cons line lines ih =>
    have hline := hlines line List.mem_cons_self
    cases lines with
    | nil =>
      rw [joinLines, getLines_single hline.noNewline hline.ne, List.map_singleton,
        dropCr_of_not_mem hline.noReturn]
    | cons next lines =>
      have hrest := ih fun other hother => hlines other (List.mem_cons_of_mem line hother)
      have hnewline : 10 ∉ line ++ [13] := by
        intro hmem
        rcases List.mem_append.mp hmem with hmem | hmem
        · exact hline.noNewline hmem
        · exact absurd (List.mem_singleton.mp hmem) (by decide)
      have hshape : joinLines (line :: next :: lines) =
          line ++ [13] ++ 10 :: joinLines (next :: lines) := by
        rw [joinLines, List.append_assoc]
        rfl
      rw [hshape, getLines_newline hnewline, List.map_cons, dropCr_concat, hrest]

/-- Text that keeps its ends when it is trimmed. -/
def Trimmed (text : Bytes) : Prop :=
  (∀ b ∈ text.head?, isSpace b = false) ∧ ∀ b ∈ text.getLast?, isSpace b = false

/-- The line of a header field. -/
def fieldLine (name value : Bytes) : Bytes := name ++ 58 :: 32 :: value

/-- Reading one field. -/
theorem readHeaders_fieldLine {name value : Bytes} (hname : 58 ∉ name)
    (htrim : trimCopy name = name) (hvalue : Trimmed value) (lines : List Bytes)
    (headers : Headers) :
    readHeaders (fieldLine name value :: lines) headers =
      readHeaders lines (setHeader headers (lowerCopy name) value) := by
  have hcolon : find [58] (fieldLine name value) = some name.length := by
    unfold fieldLine
    rw [find_append_of_not_mem hname]
    exact congrArg some (Nat.zero_add _)
  have htake : (fieldLine name value).take name.length = name := List.take_left
  have hdrop : (fieldLine name value).drop (name.length + 1) = 32 :: value := by
    unfold fieldLine
    rw [← List.drop_drop, List.drop_left]
    rfl
  have hne : fieldLine name value ≠ [] :=
    List.append_ne_nil_of_right_ne_nil _ (List.cons_ne_nil _ _)
  rw [readHeaders, if_neg hne, hcolon]
  simp only [htake, hdrop, htrim, trimCopy_blank hvalue.1 hvalue.2]

/-- Text without line ends. -/
def NoBreak (text : Bytes) : Prop := 13 ∉ text ∧ 10 ∉ text

theorem NoBreak.append {xs ys : Bytes} (hx : NoBreak xs) (hy : NoBreak ys) :
    NoBreak (xs ++ ys) := by
  constructor
  · rw [List.mem_append, not_or]
    exact ⟨hx.1, hy.1⟩
  · rw [List.mem_append, not_or]
    exact ⟨hx.2, hy.2⟩

theorem NoBreak.of_not_isSpace {text : Bytes} (h : ∀ b ∈ text, isSpace b = false) :
    NoBreak text := by
  constructor
  · intro hmem
    cases h 13 hmem
  · intro hmem
    cases h 10 hmem

theorem Trimmed.of_not_isSpace {text : Bytes} (h : ∀ b ∈ text, isSpace b = false) :
    Trimmed text :=
  ⟨fun b hb => h b (List.mem_of_head? hb), fun b hb => h b (List.mem_of_getLast? hb)⟩

theorem OneLine.of_noBreak {text : Bytes} (hne : text ≠ []) (h : NoBreak text) : OneLine text :=
  ⟨hne, h.1, h.2⟩

theorem fieldLine_oneLine {name value : Bytes} (hname : NoBreak name) (hvalue : NoBreak value) :
    OneLine (fieldLine name value) := by
  have hne : fieldLine name value ≠ [] :=
    List.append_ne_nil_of_right_ne_nil _ (List.cons_ne_nil _ _)
  have hsep : NoBreak (58 :: 32 :: value) := by
    have hcolon : NoBreak [58, 32] := by
      constructor
      · decide
      · decide
    exact hcolon.append hvalue
  exact OneLine.of_noBreak hne (hname.append hsep)

theorem decimalNat_not_isSpace (n : ℕ) : ∀ b ∈ decimalNat n, isSpace b = false :=
  fun b hb => not_isSpace_of_isDigit (decimalNat_digits n b hb)

theorem parseContentLength_decimalNat {headers : Headers} {n : ℕ} (invalid : Bytes)
    (hlookup : headers.lookup (ascii "content-length") = some (decimalNat n))
    (hlimit : n ≤ maxHttpBodyBytes) : parseContentLength invalid headers = .ok n := by
  have hword : n < 2 ^ 64 := by
    unfold maxHttpBodyBytes at hlimit
    omega
  unfold parseContentLength
  rw [hlookup]
  simp only [stoull_decimalNat hword]
  rw [if_neg (not_not.mpr rfl), if_neg (Nat.not_lt.mpr hlimit)]

/-- No other length than the written one is read. -/
theorem eq_of_parseContentLength {headers : Headers} {n expected : ℕ} {invalid : Bytes}
    (hlookup : headers.lookup (ascii "content-length") = some (decimalNat n))
    (h : parseContentLength invalid headers = .ok expected) : expected = n := by
  unfold parseContentLength at h
  rw [hlookup] at h
  by_cases hword : 2 ^ 64 ≤ n
  · simp only [stoull_decimalNat_eq, if_pos hword] at h
    cases h
  · simp only [stoull_decimalNat_eq, if_neg hword] at h
    split at h
    · cases h
    · split at h
      · cases h
      · exact (Except.ok.inj h).symm

end Lines

section Requests

def requestLine (url : ParsedUrl) : Bytes := ascii "POST " ++ url.path ++ ascii " HTTP/1.1"

def hostText (url : ParsedUrl) : Bytes := url.host ++ ascii ":" ++ decimal url.port

def postLines (url : ParsedUrl) (body : Bytes) : List Bytes :=
  [requestLine url, fieldLine (ascii "Host") (hostText url),
    fieldLine (ascii "Content-Type") (ascii "application/octet-stream"),
    fieldLine (ascii "Content-Length") (decimalNat body.length),
    fieldLine (ascii "Connection") (ascii "keep-alive")]

theorem postHeader_eq (url : ParsedUrl) (body : Bytes) :
    postHeader url body = joinLines (postLines url body) ++ [13, 10, 13, 10] := by
  have hversion : ascii " HTTP/1.1\r\n" = ascii " HTTP/1.1" ++ crlf := rfl
  have hhost : ascii "Host: " = ascii "Host" ++ [58, 32] := rfl
  have htype : ascii "Content-Type: application/octet-stream\r\n" =
      ascii "Content-Type" ++ [58, 32] ++ ascii "application/octet-stream" ++ crlf := rfl
  have hlength : ascii "Content-Length: " = ascii "Content-Length" ++ [58, 32] := rfl
  have hconnection : ascii "Connection: keep-alive\r\n" =
      ascii "Connection" ++ [58, 32] ++ ascii "keep-alive" ++ crlf := rfl
  unfold postHeader postLines requestLine hostText fieldLine
  rw [hversion, hhost, htype, hlength, hconnection]
  simp only [joinLines, crlf, List.append_assoc, List.cons_append, List.nil_append]

theorem decimal_port (url : ParsedUrl) : decimal url.port = decimalNat url.port.natAbs := by
  have hpos := url.port_pos
  unfold decimal
  exact if_neg (by omega)

theorem hostText_not_isSpace {url : ParsedUrl} (hhost : Visible url.host) :
    ∀ b ∈ hostText url, isSpace b = false := by
  intro b hb
  unfold hostText at hb
  rw [decimal_port] at hb
  rcases List.mem_append.mp hb with hb | hb
  · rcases List.mem_append.mp hb with hb | hb
    · exact hhost.not_isSpace hb
    · have hcolon : b = 58 := List.mem_singleton.mp hb
      rw [hcolon]
      rfl
  · exact decimalNat_not_isSpace _ b hb

theorem postLines_oneLine {url : ParsedUrl} (hhost : Visible url.host)
    (hpath : Visible url.path) (body : Bytes) : ∀ line ∈ postLines url body, OneLine line := by
  have hrequest : OneLine (requestLine url) := by
    have hpost : NoBreak (ascii "POST ") := by
      constructor
      · decide
      · decide
    have hversion : NoBreak (ascii " HTTP/1.1") := by
      constructor
      · decide
      · decide
    have hmiddle := NoBreak.of_not_isSpace fun b hb => hpath.not_isSpace (b := b) hb
    exact OneLine.of_noBreak (List.cons_ne_nil _ _) ((hpost.append hmiddle).append hversion)
  have hhostLine : OneLine (fieldLine (ascii "Host") (hostText url)) :=
    fieldLine_oneLine (by constructor <;> decide)
      (NoBreak.of_not_isSpace (hostText_not_isSpace hhost))
  have htype : OneLine (fieldLine (ascii "Content-Type") (ascii "application/octet-stream")) :=
    fieldLine_oneLine (by constructor <;> decide) (by constructor <;> decide)
  have hlength : OneLine (fieldLine (ascii "Content-Length") (decimalNat body.length)) :=
    fieldLine_oneLine (by constructor <;> decide)
      (NoBreak.of_not_isSpace (decimalNat_not_isSpace _))
  have hconnection : OneLine (fieldLine (ascii "Connection") (ascii "keep-alive")) :=
    fieldLine_oneLine (by constructor <;> decide) (by constructor <;> decide)
  intro line hline
  simp only [postLines, List.mem_cons, List.not_mem_nil, or_false] at hline
  rcases hline with rfl | rfl | rfl | rfl | rfl
  · exact hrequest
  · exact hhostLine
  · exact htype
  · exact hlength
  · exact hconnection

/-- The request that the header of a POST describes. -/
def postedRequest (url : ParsedUrl) (body : Bytes) : HttpRequest where
  method := ascii "POST"
  path := url.path
  headers :=
    [(ascii "host", hostText url), (ascii "content-type", ascii "application/octet-stream"),
      (ascii "content-length", decimalNat body.length), (ascii "connection", ascii "keep-alive")]

theorem parseRequestHead_postLines {url : ParsedUrl} (hhost : Visible url.host)
    (hpath : Visible url.path) (body : Bytes) :
    parseRequestHead (joinLines (postLines url body)) = .ok (postedRequest url body) := by
  have hpost : Visible (ascii "POST") := visible_of_all rfl
  have hversion : Visible (ascii "HTTP/1.1") := visible_of_all rfl
  have hspace (text : Bytes) : ∀ b ∈ (32 :: text).head?, isSpace b = true := by
    intro b hb
    cases hb
    rfl
  have hmethod : extractWord (requestLine url) =
      (ascii "POST", 32 :: (url.path ++ 32 :: ascii "HTTP/1.1")) := by
    have hword := extractWord_visible hpost (hspace (url.path ++ 32 :: ascii "HTTP/1.1")) []
      (fun b hb => by cases hb) (List.cons_ne_nil _ _)
    rw [← hword]
    exact congrArg extractWord (List.append_assoc _ _ _)
  have hblank : ∀ b ∈ ([32] : Bytes), isSpace b = true := fun b hb => by
    rw [List.mem_singleton.mp hb]
    rfl
  have hpathWord : extractWord (32 :: (url.path ++ 32 :: ascii "HTTP/1.1")) =
      (url.path, 32 :: ascii "HTTP/1.1") :=
    extractWord_visible hpath (hspace (ascii "HTTP/1.1")) [32] hblank url.path_ne
  have hversionWord : extractWord (32 :: ascii "HTTP/1.1") = (ascii "HTTP/1.1", []) := by
    have hend : ∀ b ∈ ([] : Bytes).head?, isSpace b = true := fun b hb => by cases hb
    have hword := extractWord_visible hversion hend [32] hblank (List.cons_ne_nil _ _)
    rw [List.append_nil] at hword
    exact hword
  have hfields : readHeaders (postLines url body).tail [] = (postedRequest url body).headers := by
    have hhostValue := Trimmed.of_not_isSpace (hostText_not_isSpace hhost)
    have htypeValue : Trimmed (ascii "application/octet-stream") :=
      Trimmed.of_not_isSpace (not_isSpace_of_all rfl)
    have hlengthValue := Trimmed.of_not_isSpace (decimalNat_not_isSpace body.length)
    have hconnectionValue : Trimmed (ascii "keep-alive") :=
      Trimmed.of_not_isSpace (not_isSpace_of_all rfl)
    unfold postLines
    rw [List.tail_cons, readHeaders_fieldLine (by decide) (by decide) hhostValue,
      readHeaders_fieldLine (by decide) (by decide) htypeValue,
      readHeaders_fieldLine (by decide) (by decide) hlengthValue,
      readHeaders_fieldLine (by decide) (by decide) hconnectionValue]
    rfl
  have hwords : ¬(ascii "POST" = [] ∨ url.path = [] ∨ ascii "HTTP/1.1" = []) := by
    rintro (h | h | h)
    · cases h
    · exact url.path_ne h
    · cases h
  unfold parseRequestHead
  rw [headerLines_joinLines (postLines_oneLine hhost hpath body)]
  unfold postLines at hfields ⊢
  simp only [List.tail_cons] at hfields
  simp only [hmethod, hpathWord, hversionWord, hfields]
  rw [if_neg hwords]
  rfl

/-- A header is little longer than the host and the path in it. -/
theorem postHeader_length_le (url : ParsedUrl) {body : Bytes}
    (hbody : body.length ≤ maxHttpBodyBytes) :
    (postHeader url body).length ≤ url.host.length + url.path.length + 200 := by
  have hlength : (decimalNat body.length).length ≤ 9 := by
    unfold maxHttpBodyBytes at hbody
    exact decimalNat_length_le (by decide) (by omega)
  have hport : (decimalNat url.port.natAbs).length ≤ 5 := by
    have hle := url.port_le
    have hpos := url.port_pos
    exact decimalNat_length_le (by decide) (by omega)
  have hpost : (ascii "POST ").length = 5 := rfl
  have hversion : (ascii " HTTP/1.1\r\n").length = 11 := rfl
  have hhost : (ascii "Host: ").length = 6 := rfl
  have hcolon : (ascii ":").length = 1 := rfl
  have htype : (ascii "Content-Type: application/octet-stream\r\n").length = 40 := rfl
  have hlengthName : (ascii "Content-Length: ").length = 16 := rfl
  have hconnection : (ascii "Connection: keep-alive\r\n").length = 24 := rfl
  have hcrlf : crlf.length = 2 := rfl
  unfold postHeader
  rw [decimal_port]
  simp only [List.length_append, hpost, hversion, hhost, hcolon, htype, hlengthName, hconnection,
    hcrlf]
  omega

/-- A POST with a short header is framed for the server. -/
theorem framed_post {url : ParsedUrl} (hhost : Visible url.host) (hpath : Visible url.path)
    {body : Bytes} (hbody : body.length ≤ maxHttpBodyBytes)
    (hheader : (postHeader url body).length ≤ maxHttpHeaderBytes) :
    Framed requestReader (joinLines (postLines url body)) (postedRequest url body) body where
  terminated :=
    findHeaderEnd_joinLines (postLines_oneLine hhost hpath body) (List.cons_ne_nil _ _)
  parsed := parseRequestHead_postLines hhost hpath body
  announced := parseContentLength_decimalNat _ rfl hbody
  short := by
    rw [postHeader_eq, List.length_append] at hheader
    exact hheader

theorem postBytes_eq (url : ParsedUrl) (body : Bytes) :
    postBytes url body = wholeText (joinLines (postLines url body)) body := by
  unfold postBytes wholeText
  rw [postHeader_eq, List.append_assoc]

/-- The server reads what the client posted. -/
theorem readHttpRequest_post {url : ParsedUrl} (hhost : Visible url.host)
    (hpath : Visible url.path) {body : Bytes} (hbody : body.length ≤ maxHttpBodyBytes)
    (hheader : (postHeader url body).length ≤ maxHttpHeaderBytes) {chunks : List Bytes}
    (hchunks : ∀ chunk ∈ chunks, chunk ≠ []) (hsent : chunks.flatten = postBytes url body)
    (rest : List RecvResult) :
    readHttpRequest (chunks.map .received ++ rest) =
      some (.ok { postedRequest url body with body := body }, rest) := by
  have hwhole : [] ++ chunks.flatten = wholeText (joinLines (postLines url body)) body := by
    rw [List.nil_append, hsent, postBytes_eq]
  have hmissing : ([] : Bytes).length <
      (wholeText (joinLines (postLines url body)) body).length := by
    rw [wholeText_length]
    exact Nat.lt_of_lt_of_le (Nat.succ_pos _) (Nat.le_add_right _ _)
  have hread := read_whole (framed_post hhost hpath hbody hheader) hchunks hmissing hwhole rest
  rw [stateAt_nil] at hread
  exact hread

end Requests

section Responses

/-- What the header of a response needs to be read back. -/
structure WellFormed (response : HttpResponse) : Prop where
  status_pos : 0 < response.statusCode
  status_lt : response.statusCode < 2 ^ 31
  reason_line : NoBreak response.reason
  reason_trimmed : Trimmed response.reason
  type_line : NoBreak response.contentType
  type_trimmed : Trimmed response.contentType

def statusLine (response : HttpResponse) : Bytes :=
  ascii "HTTP/1.1 " ++ decimal response.statusCode ++ ascii " " ++ response.reason

def connectionText (response : HttpResponse) : Bytes :=
  if response.keepAlive then ascii "keep-alive" else ascii "close"

def responseLines (response : HttpResponse) : List Bytes :=
  [statusLine response, fieldLine (ascii "Content-Type") response.contentType,
    fieldLine (ascii "Content-Length") (decimalNat response.body.length),
    fieldLine (ascii "Connection") (connectionText response)]

theorem responseHeader_eq (response : HttpResponse) :
    responseHeader response = joinLines (responseLines response) ++ [13, 10, 13, 10] := by
  have htype : ascii "Content-Type: " = ascii "Content-Type" ++ [58, 32] := rfl
  have hlength : ascii "Content-Length: " = ascii "Content-Length" ++ [58, 32] := rfl
  have hconnection : ascii "Connection: " = ascii "Connection" ++ [58, 32] := rfl
  unfold responseHeader responseLines statusLine connectionText fieldLine
  rw [htype, hlength, hconnection]
  simp only [joinLines, crlf, List.append_assoc, List.cons_append, List.nil_append]

theorem connectionText_not_isSpace (response : HttpResponse) :
    ∀ b ∈ connectionText response, isSpace b = false := by
  unfold connectionText
  split
  · exact not_isSpace_of_all rfl
  · exact not_isSpace_of_all rfl

theorem WellFormed.decimal_status {response : HttpResponse} (h : WellFormed response) :
    decimal response.statusCode = decimalNat response.statusCode.natAbs := by
  have hpos := h.status_pos
  unfold decimal
  exact if_neg (by omega)

theorem responseLines_oneLine {response : HttpResponse} (h : WellFormed response) :
    ∀ line ∈ responseLines response, OneLine line := by
  have hstatus : OneLine (statusLine response) := by
    have hversion : NoBreak (ascii "HTTP/1.1 ") := by constructor <;> decide
    have hblank : NoBreak (ascii " ") := by constructor <;> decide
    have hcode := NoBreak.of_not_isSpace (decimalNat_not_isSpace response.statusCode.natAbs)
    unfold statusLine
    rw [h.decimal_status]
    exact OneLine.of_noBreak (List.cons_ne_nil _ _)
      (((hversion.append hcode).append hblank).append h.reason_line)
  have htype : OneLine (fieldLine (ascii "Content-Type") response.contentType) :=
    fieldLine_oneLine (by constructor <;> decide) h.type_line
  have hlength :
      OneLine (fieldLine (ascii "Content-Length") (decimalNat response.body.length)) :=
    fieldLine_oneLine (by constructor <;> decide)
      (NoBreak.of_not_isSpace (decimalNat_not_isSpace _))
  have hconnection : OneLine (fieldLine (ascii "Connection") (connectionText response)) :=
    fieldLine_oneLine (by constructor <;> decide)
      (NoBreak.of_not_isSpace (connectionText_not_isSpace response))
  intro line hline
  simp only [responseLines, List.mem_cons, List.not_mem_nil, or_false] at hline
  rcases hline with rfl | rfl | rfl | rfl
  · exact hstatus
  · exact htype
  · exact hlength
  · exact hconnection

/-- The header of a response as the client holds it. -/
def clientHead (response : HttpResponse) : HttpClientResponse where
  statusCode := response.statusCode
  reason := response.reason
  headers :=
    [(ascii "content-type", response.contentType),
      (ascii "content-length", decimalNat response.body.length),
      (ascii "connection", connectionText response)]

/-- A response as the client holds it. -/
def clientView (response : HttpResponse) : HttpClientResponse :=
  { clientHead response with body := response.body }

theorem parseResponseHead_responseLines {response : HttpResponse} (h : WellFormed response) :
    parseResponseHead (joinLines (responseLines response)) = .ok (clientHead response) := by
  have hpos := h.status_pos
  have hlt := h.status_lt
  have hversion : Visible (ascii "HTTP/1.1") := visible_of_all rfl
  have hspace (text : Bytes) : ∀ b ∈ (32 :: text).head?, isSpace b = true := by
    intro b hb
    cases hb
    rfl
  have hversionWord : extractWord (statusLine response) = (ascii "HTTP/1.1",
      32 :: (decimalNat response.statusCode.natAbs ++ 32 :: response.reason)) := by
    have hword := extractWord_visible hversion
      (hspace (decimalNat response.statusCode.natAbs ++ 32 :: response.reason)) []
      (fun b hb => by cases hb) (List.cons_ne_nil _ _)
    rw [← hword]
    unfold statusLine
    rw [h.decimal_status]
    exact congrArg extractWord (by simp only [List.append_assoc]; rfl)
  have hcode : extractInt
      (32 :: (decimalNat response.statusCode.natAbs ++ 32 :: response.reason)) =
        (response.statusCode, some (32 :: response.reason)) := by
    have hdigit : ∀ b ∈ (32 :: response.reason).head?, isDigit b = false := by
      intro b hb
      cases hb
      rfl
    rw [extractInt_decimalNat (by omega) hdigit, Int.natAbs_of_nonneg (by omega)]
  have hfields : readHeaders (responseLines response).tail [] = (clientHead response).headers := by
    have hlengthValue := Trimmed.of_not_isSpace (decimalNat_not_isSpace response.body.length)
    have hconnectionValue := Trimmed.of_not_isSpace (connectionText_not_isSpace response)
    unfold responseLines
    rw [List.tail_cons, readHeaders_fieldLine (by decide) (by decide) h.type_trimmed,
      readHeaders_fieldLine (by decide) (by decide) hlengthValue,
      readHeaders_fieldLine (by decide) (by decide) hconnectionValue]
    rfl
  have hreason : trimCopy (32 :: response.reason) = response.reason :=
    trimCopy_blank h.reason_trimmed.1 h.reason_trimmed.2
  have hwords : ¬(ascii "HTTP/1.1" = [] ∨ response.statusCode ≤ 0) := by
    rintro (hnil | hle)
    · cases hnil
    · omega
  unfold parseResponseHead
  rw [headerLines_joinLines (responseLines_oneLine h)]
  unfold responseLines at hfields ⊢
  simp only [List.tail_cons] at hfields
  simp only [hversionWord, hcode, hfields]
  rw [if_neg hwords]
  simp only [Option.getD_some, hreason]
  rfl

theorem framed_response {response : HttpResponse} (h : WellFormed response)
    (hbody : response.body.length ≤ maxHttpBodyBytes)
    (hheader : (responseHeader response).length ≤ maxHttpHeaderBytes) :
    Framed responseReader (joinLines (responseLines response)) (clientHead response)
      response.body where
  terminated := findHeaderEnd_joinLines (responseLines_oneLine h) (List.cons_ne_nil _ _)
  parsed := parseResponseHead_responseLines h
  announced := parseContentLength_decimalNat _ rfl hbody
  short := by
    rw [responseHeader_eq, List.length_append] at hheader
    exact hheader

theorem responseBytes_eq (response : HttpResponse) :
    responseBytes response = wholeText (joinLines (responseLines response)) response.body := by
  unfold responseBytes wholeText
  rw [responseHeader_eq, List.append_assoc]

theorem HeaderOf.of_response {response : HttpResponse} (h : WellFormed response) {start : Bytes}
    (hstarts : start <+: responseBytes response) {headerEnd expected : ℕ}
    {head : HttpClientResponse} (hheader : HeaderOf responseReader start headerEnd head expected) :
    headerEnd + 4 = (responseHeader response).length ∧ headerEnd + 4 ≤ start.length ∧
      head = clientHead response ∧ expected = response.body.length := by
  rw [responseBytes_eq] at hstarts
  have hterminated :=
    findHeaderEnd_joinLines (responseLines_oneLine h) (List.cons_ne_nil _ _)
  have hfind := findHeaderEnd_of_prefix hterminated hstarts
  rw [hheader.found] at hfind
  split at hfind
  · cases hfind
  · next hlong =>
    have hend : headerEnd = (joinLines (responseLines response)).length := Option.some.inj hfind
    obtain ⟨htake, -⟩ := prefix_parts hstarts (Nat.not_lt.mp hlong)
    have hparsed := hheader.parsed
    rw [hend, htake] at hparsed
    have hhead : head = clientHead response :=
      Except.ok.inj (hparsed.symm.trans (parseResponseHead_responseLines h))
    have hannounced := hheader.announced
    rw [hhead] at hannounced
    refine ⟨?_, ?_, hhead, eq_of_parseContentLength rfl hannounced⟩
    · rw [hend, responseHeader_eq, List.length_append]
      rfl
    · rw [hend]
      exact Nat.not_lt.mp hlong

/-- The stream ends behind the header of a response and before the end of its
body. -/
def CutInBody (response : HttpResponse) (events : List RecvResult) : Prop :=
  ∃ used rest, Flowing used ∧ events = used ++ .received [] :: rest ∧
    (responseHeader response).length ≤ (receivedBytes used).length ∧
      (receivedBytes used).length < (responseBytes response).length

/-- A client that reads a start of a response returns the whole response and
leaves nothing of it, unless the stream ends inside the body. -/
theorem readHttpResponse_ok {response : HttpResponse} (h : WellFormed response)
    {events rest : List RecvResult} {message : HttpClientResponse}
    (hstarts : receivedBytes events <+: responseBytes response)
    (hread : readHttpResponse events = some (.ok message, rest)) :
    (message = clientView response ∧ receivedBytes events = responseBytes response ∧
      receivedBytes rest = []) ∨ CutInBody response events := by
  obtain ⟨used, hflow, hcase⟩ := read_ok known_start hread
  rw [List.nil_append] at hcase
  have hbytes : (responseBytes response).length =
      (responseHeader response).length + response.body.length := List.length_append
  rcases hcase with ⟨hevents, hholds⟩ | ⟨hevents, hcut⟩
  · obtain ⟨headerEnd, head, expected, hheader, hlong, hmessage⟩ := hholds
    have hsplit : receivedBytes events = receivedBytes used ++ receivedBytes rest := by
      rw [hevents, receivedBytes_append]
    have hused : receivedBytes used <+: responseBytes response :=
      (List.prefix_append _ _).trans (hsplit ▸ hstarts)
    obtain ⟨hend, -, hhead, hexpected⟩ := hheader.of_response h hused
    have hwhole : receivedBytes used = responseBytes response :=
      hused.eq_of_length_le (by omega)
    have hall : receivedBytes events = responseBytes response := by
      refine hstarts.eq_of_length_le ?_
      rw [hsplit, hwhole, List.length_append]
      exact Nat.le_add_right _ _
    have hnothing : receivedBytes rest = [] := by
      rw [hall, hwhole] at hsplit
      exact List.self_eq_append_right.mp hsplit
    refine Or.inl ⟨?_, hall, hnothing⟩
    have hbody : (responseBytes response).drop (headerEnd + 4) = response.body := by
      rw [hend]
      exact List.drop_left
    rw [hmessage, hwhole, hbody, hexpected, List.take_length, hhead]
    rfl
  · obtain ⟨headerEnd, head, expected, hheader, hshort, -⟩ := hcut
    have hused : receivedBytes used <+: responseBytes response := by
      rw [hevents, receivedBytes_append] at hstarts
      exact (List.prefix_append _ _).trans hstarts
    obtain ⟨hend, hlong, -, hexpected⟩ := hheader.of_response h hused
    exact Or.inr ⟨used, rest, hflow, hevents, by omega, by omega⟩

/-- A response within the limits that arrives as a whole is returned. -/
theorem readHttpResponse_arrived {response : HttpResponse} (h : WellFormed response)
    (hbody : response.body.length ≤ maxHttpBodyBytes)
    (hheader : (responseHeader response).length ≤ maxHttpHeaderBytes)
    {used : List RecvResult} (hflow : Flowing used)
    (hwhole : receivedBytes used = responseBytes response) (rest : List RecvResult) :
    ∃ left, receivedBytes left = [] ∧
      readHttpResponse (used ++ rest) = some (.ok (clientView response), left ++ rest) := by
  have hmissing : ([] : Bytes).length <
      (wholeText (joinLines (responseLines response)) response.body).length := by
    rw [wholeText_length]
    exact Nat.lt_of_lt_of_le (Nat.succ_pos _) (Nat.le_add_right _ _)
  have hread := read_arrived (framed_response h hbody hheader) hflow hmissing
    (by rw [List.nil_append, hwhole, responseBytes_eq]) rest
  rw [stateAt_nil] at hread
  exact hread

end Responses

end LayerInference.HttpTransfer
