import LayerInference.HttpTransfer

/-!
# Delivery of requests and frames

A body that the persistent client posts is read by the server as it was sent,
and a frame that a server answers with is read by the client as it was
encoded, however the stream is cut into chunks. A response that breaks off
anywhere gives the client an error: inside the header the reader raises it,
inside the body the frame codec does, since no start of a frame is a frame.
-/

namespace LayerInference.HttpDelivery

open ByteStrings FrameProtocol HttpMessages TextStreams HttpTransfer

/-- The client reads a response and decodes its body. -/
def receiveFrame (events : List RecvResult) : Option (Except Bytes DliFrame) :=
  match readHttpResponse events with
  | none => none
  | some (.error e, _) => some (.error e)
  | some (.ok response, _) => some (decodeFrame response.body)

/-- The response that carries an encoded frame. -/
def frameResponse (frameText : Bytes) (keepAlive : Bool) : HttpResponse :=
  { makeBinaryResponse 200 (ascii "OK") frameText with keepAlive := keepAlive }

theorem frameResponse_wellFormed (frameText : Bytes) (keepAlive : Bool) :
    WellFormed (frameResponse frameText keepAlive) where
  status_pos := (by decide : (0 : ℤ) < 200)
  status_lt := (by decide : (200 : ℤ) < 2 ^ 31)
  reason_line := (by constructor <;> decide : NoBreak (ascii "OK"))
  reason_trimmed := Trimmed.of_not_isSpace (not_isSpace_of_all rfl)
  type_line := (by constructor <;> decide : NoBreak (ascii "application/octet-stream"))
  type_trimmed := Trimmed.of_not_isSpace (not_isSpace_of_all rfl)

theorem frameResponse_header {frameText : Bytes} (h : frameText.length ≤ maxHttpBodyBytes)
    (keepAlive : Bool) :
    (responseHeader (frameResponse frameText keepAlive)).length ≤ maxHttpHeaderBytes := by
  have hlength : (decimalNat frameText.length).length ≤ 9 := by
    unfold maxHttpBodyBytes at h
    exact decimalNat_length_le (by decide) (by omega)
  have hstatus : (decimal 200).length ≤ 3 := by
    unfold decimal
    rw [if_neg (by decide)]
    exact decimalNat_length_le (by decide) (by decide)
  have hconnection : (if keepAlive then ascii "keep-alive" else ascii "close").length ≤ 10 := by
    cases keepAlive with
    | false => decide
    | true => decide
  have hversion : (ascii "HTTP/1.1 ").length = 9 := rfl
  have hblank : (ascii " ").length = 1 := rfl
  have hreason : (ascii "OK").length = 2 := rfl
  have htypeName : (ascii "Content-Type: ").length = 14 := rfl
  have htype : (ascii "application/octet-stream").length = 24 := rfl
  have hlengthName : (ascii "Content-Length: ").length = 16 := rfl
  have hconnectionName : (ascii "Connection: ").length = 12 := rfl
  have hcrlf : crlf.length = 2 := rfl
  unfold responseHeader frameResponse makeBinaryResponse
  simp only [List.length_append, hversion, hblank, hreason, htypeName, htype, hlengthName,
    hconnectionName, hcrlf]
  unfold maxHttpHeaderBytes
  omega

theorem framed_frameResponse {frameText : Bytes} (h : frameText.length ≤ maxHttpBodyBytes)
    (keepAlive : Bool) :
    Framed responseReader (joinLines (responseLines (frameResponse frameText keepAlive)))
      (clientHead (frameResponse frameText keepAlive)) frameText :=
  framed_response (frameResponse_wellFormed frameText keepAlive) h (frameResponse_header h keepAlive)

/-- A frame arrives as it was encoded. -/
theorem receiveFrame_whole {frame : DliFrame} {frameText : Bytes}
    (hencoded : encodeFrame frame = .ok frameText)
    (hlimit : frameText.length ≤ maxHttpBodyBytes) (keepAlive : Bool) {chunks : List Bytes}
    (hchunks : ∀ chunk ∈ chunks, chunk ≠ [])
    (hsent : chunks.flatten = responseBytes (frameResponse frameText keepAlive)) :
    receiveFrame (chunks.map .received) = some (.ok frame) := by
  have hframed := framed_frameResponse hlimit keepAlive
  have hwhole : [] ++ chunks.flatten = wholeText
      (joinLines (responseLines (frameResponse frameText keepAlive))) frameText := by
    rw [List.nil_append, hsent, responseBytes_eq]
    rfl
  have hmissing : ([] : Bytes).length < (wholeText
      (joinLines (responseLines (frameResponse frameText keepAlive))) frameText).length := by
    rw [wholeText_length]
    exact Nat.lt_of_lt_of_le (Nat.succ_pos _) (Nat.le_add_right _ _)
  have hread := read_whole hframed hchunks hmissing hwhole []
  rw [stateAt_nil, List.append_nil] at hread
  have hdecode : decodeFrame frameText = .ok frame :=
    (decodeFrame_ok_iff frameText frame).mpr ((encodeFrame_ok_iff frame frameText).mp hencoded)
  unfold receiveFrame readHttpResponse
  rw [hread]
  exact congrArg some hdecode

/-- No start of an encoded frame is accepted. -/
theorem decodeFrame_start {frame : DliFrame} {start rest : Bytes}
    (hencoded : encodeFrame frame = .ok (start ++ rest)) (hrest : rest ≠ []) :
    ∃ e, decodeFrame start = .error e := by
  obtain ⟨hlimits, htext⟩ := (encodeFrame_ok_iff frame (start ++ rest)).mp hencoded
  cases hdecode : decodeFrame start with
  | error e => exact ⟨e, rfl⟩
  | ok other =>
    obtain ⟨hother, hstart⟩ := frameBytes_of_decodeFrame hdecode
    rw [hstart] at htext
    exact absurd (frameBytes_prefix_free hother hlimits htext.symm) hrest

/-- A response that breaks off yields no frame. -/
theorem receiveFrame_closed {frame : DliFrame} {frameText : Bytes}
    (hencoded : encodeFrame frame = .ok frameText)
    (hlimit : frameText.length ≤ maxHttpBodyBytes) (keepAlive : Bool) {chunks : List Bytes}
    (hchunks : ∀ chunk ∈ chunks, chunk ≠ []) {lost : Bytes} (hlost : lost ≠ [])
    (hsent : chunks.flatten ++ lost = responseBytes (frameResponse frameText keepAlive)) :
    ∃ e, receiveFrame (chunks.map .received ++ [.received []]) = some (.error e) := by
  have hframed := framed_frameResponse hlimit keepAlive
  set head := joinLines (responseLines (frameResponse frameText keepAlive)) with hhead
  have hwhole : chunks.flatten ++ lost = wholeText head frameText := by
    rw [hsent, responseBytes_eq]
    rfl
  have hstarts : [] ++ chunks.flatten <+: wholeText head frameText := ⟨lost, hwhole⟩
  have hlostLength := List.length_pos_iff.mpr hlost
  have hlength : chunks.flatten.length + lost.length = (wholeText head frameText).length := by
    rw [← hwhole, List.length_append]
  have hmissing : ([] ++ chunks.flatten).length < (wholeText head frameText).length := by
    rw [List.nil_append]
    omega
  have hread := read_pending hframed hchunks hstarts hmissing [.received []]
  rw [stateAt_nil, List.nil_append] at hread
  have hclosed : responseReader.read (stateAt head frameText chunks.flatten) [.received []] =
      some (responseReader.close (stateAt head frameText chunks.flatten), []) := rfl
  unfold receiveFrame readHttpResponse
  rw [hread, hclosed]
  by_cases hheader : chunks.flatten.length < head.length + 4
  · refine ⟨ascii "connection closed before HTTP response header was received", ?_⟩
    unfold stateAt
    rw [if_pos hheader]
    rfl
  · obtain ⟨htake, hdrop⟩ := prefix_parts hstarts (Nat.not_lt.mp hheader)
    rw [List.nil_append] at htake hdrop
    have hbody : responseReader.close (stateAt head frameText chunks.flatten) =
        .ok { clientHead (frameResponse frameText keepAlive) with
          body := frameText.take (chunks.flatten.length - (head.length + 4)) } := by
      have hstate : stateAt head frameText chunks.flatten =
          ⟨chunks.flatten, some head.length, frameText.length⟩ := if_neg hheader
      rw [hstate]
      change responseReader.message chunks.flatten head.length
        (chunks.flatten.drop (head.length + 4)) = _
      unfold MessageReader.message
      rw [htake, hframed.parsed, hdrop]
      rfl
    have hrest : frameText.drop (chunks.flatten.length - (head.length + 4)) ≠ [] := by
      rw [wholeText_length] at hlength
      intro hnil
      have hle := List.drop_eq_nil_iff.mp hnil
      omega
    have hsplit : encodeFrame frame = .ok
        (frameText.take (chunks.flatten.length - (head.length + 4)) ++
          frameText.drop (chunks.flatten.length - (head.length + 4))) := by
      rw [List.take_append_drop]
      exact hencoded
    obtain ⟨e, he⟩ := decodeFrame_start hsplit hrest
    refine ⟨e, ?_⟩
    rw [hbody]
    exact congrArg some he

/-- Requests and frames are delivered exactly under every segmentation, and a
response that breaks off anywhere is an error. -/
theorem httpDelivery_exact :
    (∀ (url : ParsedUrl) (body : Bytes) (chunks : List Bytes), Visible url.host →
      Visible url.path → body.length ≤ maxHttpBodyBytes →
        (postHeader url body).length < maxHttpHeaderBytes →
          (∀ chunk ∈ chunks, chunk ≠ []) → chunks.flatten = postBytes url body →
            ∃ request, readHttpRequest (chunks.map .received) = some (.ok request, []) ∧
              request.method = ascii "POST" ∧ request.path = url.path ∧ request.body = body) ∧
    (∀ (frame : DliFrame) (frameText : Bytes) (keepAlive : Bool) (chunks : List Bytes),
      encodeFrame frame = .ok frameText → frameText.length ≤ maxHttpBodyBytes →
        (∀ chunk ∈ chunks, chunk ≠ []) →
          (chunks.flatten = responseBytes (frameResponse frameText keepAlive) →
            receiveFrame (chunks.map .received) = some (.ok frame)) ∧
          ∀ lost, lost ≠ [] →
            chunks.flatten ++ lost = responseBytes (frameResponse frameText keepAlive) →
              ∃ e, receiveFrame (chunks.map .received ++ [.received []]) = some (.error e)) := by
  constructor
  · intro url body chunks hhost hpath hbody hheader hchunks hsent
    have hread := readHttpRequest_post hhost hpath hbody hheader.le hchunks hsent []
    rw [List.append_nil] at hread
    exact ⟨_, hread, rfl, rfl, rfl⟩
  · intro frame frameText keepAlive chunks hencoded hlimit hchunks
    constructor
    · exact receiveFrame_whole hencoded hlimit keepAlive hchunks
    · exact fun lost => receiveFrame_closed hencoded hlimit keepAlive hchunks

/-- A POST of one byte and an empty frame, each in one chunk, and the frame's
response without its last byte. -/
theorem httpDelivery_exact_small :
    let url : ParsedUrl :=
      { host := ascii "stage-1", host_ne := by decide, port_pos := by decide,
        port_le := by decide, path_ne := by decide }
    let frameText := frameBytes ⟨[], []⟩
    let response := responseBytes (frameResponse frameText true)
    (∃ request, readHttpRequest ([postBytes url [7]].map .received) = some (.ok request, []) ∧
      request.method = ascii "POST" ∧ request.path = ascii "/" ∧ request.body = [7]) ∧
    receiveFrame ([response].map .received) = some (.ok ⟨[], []⟩) ∧
    ∃ e, receiveFrame ([response.dropLast].map .received ++ [.received []]) = some (.error e) := by
  intro url frameText response
  have hvisible : Visible (ascii "stage-1") ∧ Visible (ascii "/") :=
    ⟨visible_of_all rfl, visible_of_all rfl⟩
  have hheader : (postHeader url [7]).length < maxHttpHeaderBytes := by
    have hle := postHeader_length_le url (show [(7 : UInt8)].length ≤ maxHttpBodyBytes by decide)
    have hhost : url.host.length = 7 := rfl
    have hpath : url.path.length = 1 := rfl
    rw [hhost, hpath] at hle
    exact Nat.lt_of_le_of_lt hle (by decide)
  have hencoded : encodeFrame ⟨[], []⟩ = .ok frameText :=
    (encodeFrame_ok_iff _ _).mpr ⟨⟨Nat.zero_le _, Nat.zero_le _⟩, rfl⟩
  have hlimit : frameText.length ≤ maxHttpBodyBytes := by decide
  have hne : response ≠ [] := List.cons_ne_nil _ _
  have hone (chunk : Bytes) (h : chunk ≠ []) : ∀ other ∈ [chunk], other ≠ [] := by
    intro other hother
    rw [List.mem_singleton.mp hother]
    exact h
  refine ⟨?_, ?_, ?_⟩
  · exact httpDelivery_exact.1 url [7] [postBytes url [7]] hvisible.1 hvisible.2 (by decide)
      hheader (hone _ (List.cons_ne_nil _ _)) List.flatten_singleton
  · exact (httpDelivery_exact.2 ⟨[], []⟩ frameText true [response] hencoded hlimit
      (hone _ hne)).1 List.flatten_singleton
  · refine (httpDelivery_exact.2 ⟨[], []⟩ frameText true [response.dropLast] hencoded hlimit
      (hone _ ?_)).2 [response.getLast hne] (List.cons_ne_nil _ _) ?_
    · exact List.cons_ne_nil _ _
    · rw [List.flatten_singleton]
      exact List.dropLast_concat_getLast hne

end LayerInference.HttpDelivery
