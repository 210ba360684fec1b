import LayerInference.HttpDelivery
import LayerInference.Runs

/-!
# The persistent client

A client keeps one connection over its calls, and a call that fails is made
again on a new connection. What the server still sends for an attempt stays in
the stream of its connection, so a connection may be used for the next call
only when nothing of an earlier response is left in it. The first attempt
closes its connection when it fails, the second one does not.
-/

namespace LayerInference.PersistentClient

open ByteStrings HttpMessages HttpTransfer HttpDelivery Runs

section Client

/-- A response that its reader can take apart again. -/
abbrev ServerResponse := { response : HttpResponse // WellFormed response }

/-- An open connection, seen from the client. -/
structure Connection where
  /-- Bytes of the server that the client has not received. -/
  incoming : Bytes := []
  /-- A request on it was not sent as a whole. -/
  broken : Bool := false

/-- What the network and the server do in one attempt. -/
structure Attempt where
  connectError : Option Bytes := none
  sent : Bool := true
  /-- The response that the server produces for a body. -/
  serve : Bytes → ServerResponse
  /-- What a server makes of requests behind a broken one. -/
  stray : Bytes := []
  events : List RecvResult

/-- One call, with both attempts it may make. -/
structure PostCall where
  body : Bytes
  first : Attempt
  second : Attempt

/-- The server answers a whole request with its response, behind those to the
earlier requests. -/
def Connection.send (connection : Connection) (attempt : Attempt) (body : Bytes) : Connection :=
  if attempt.sent = true ∧ connection.broken = false then
    { connection with
      incoming := connection.incoming ++ responseBytes (attempt.serve body).val }
  else { incoming := connection.incoming ++ attempt.stray, broken := true }

def ensureConnected (connection : Option Connection) (attempt : Attempt) :
    Except Bytes Connection :=
  match connection with
  | some connected => .ok connected
  | none =>
    match attempt.connectError with
    | some e => .error e
    | none => .ok {}

/-- The server announced that it closes the connection. -/
def wantsClose (response : HttpClientResponse) : Bool :=
  match response.headers.lookup (ascii "connection") with
  | none => false
  | some value => TextStreams.lowerCopy (trimCopy value) == ascii "close"

/-- One attempt: its result and the connection behind it, or nothing while it
waits for more bytes. -/
def postBinaryOnce (connection : Option Connection) (attempt : Attempt) (body : Bytes) :
    Option (Except Bytes HttpClientResponse × Option Connection) :=
  match ensureConnected connection attempt with
  | .error e => some (.error e, none)
  | .ok connected =>
    let waiting := connected.send attempt body
    if attempt.sent = false then
      some (.error (ascii "failed to send HTTP keep-alive request"), some waiting)
    else
      match readHttpResponse attempt.events with
      | none => none
      | some (result, rest) =>
        let consumed := (receivedBytes attempt.events).length - (receivedBytes rest).length
        let left := { waiting with incoming := waiting.incoming.drop consumed }
        match result with
        | .error e => some (.error e, some left)
        | .ok response => some (.ok response, if wantsClose response then none else some left)

/-- `post_binary`: when the first attempt throws, its connection is closed and
a second one is made. -/
def postBinary (connection : Option Connection) (call : PostCall) :
    Option (Except Bytes HttpClientResponse × Option Connection) :=
  match postBinaryOnce connection call.first call.body with
  | none => none
  | some (.ok response, after) => some (.ok response, after)
  | some (.error _, _) => postBinaryOnce none call.second call.body

/-- The client receives nothing but what the server has sent on the connection,
in this order. -/
def Feasible (connection : Option Connection) (attempt : Attempt) (body : Bytes) : Prop :=
  receivedBytes attempt.events <+: ((connection.getD {}).send attempt body).incoming

/-- A call that returns, recorded with its result. -/
def CallStep (connection : Option Connection) (label : PostCall × Except Bytes HttpClientResponse)
    (after : Option Connection) : Prop :=
  Feasible connection label.1.first label.1.body ∧ Feasible none label.1.second label.1.body ∧
    postBinary connection label.1 = some (label.2, after)

/-- The response is one that the server produced for this call. -/
def Own (call : PostCall) (response : HttpClientResponse) : Prop :=
  response = clientView (call.first.serve call.body).val ∨
    response = clientView (call.second.serve call.body).val

end Client

section CleanConnections

/-- The whole response arrives, before the connection fails or ends. -/
def Arrives (attempt : Attempt) (body : Bytes) : Prop :=
  attempt.connectError = none ∧ attempt.sent = true ∧
    (attempt.serve body).val.body.length ≤ maxHttpBodyBytes ∧
      (responseHeader (attempt.serve body).val).length ≤ maxHttpHeaderBytes ∧
        ∃ used rest, attempt.events = used ++ rest ∧ Flowing used ∧
          receivedBytes used = responseBytes (attempt.serve body).val

/-- The call gets its response, or cannot even connect for its second attempt:
no second attempt fails on an open connection. -/
def Settled (call : PostCall) : Prop :=
  Arrives call.first call.body ∨ call.second.connectError.isSome = true ∨
    Arrives call.second call.body

/-- No response is cut by the end of the stream inside its body. -/
def Uncut (call : PostCall) : Prop :=
  ¬CutInBody (call.first.serve call.body).val call.first.events ∧
    ¬CutInBody (call.second.serve call.body).val call.second.events

/-- Nothing of an earlier attempt is left on the connection. -/
def Clean (connection : Option Connection) : Prop :=
  ∀ connected, connection = some connected → connected = {}

theorem clean_none : Clean none := fun _ h => by cases h

theorem ensureConnected_clean {connection : Option Connection} (hclean : Clean connection)
    {attempt : Attempt} {connected : Connection}
    (h : ensureConnected connection attempt = .ok connected) : connected = {} := by
  unfold ensureConnected at h
  cases connection with
  | some waiting =>
    cases h
    exact hclean connected rfl
  | none =>
    cases herror : attempt.connectError with
    | some e =>
      simp only [herror] at h
      cases h
    | none =>
      simp only [herror] at h
      exact (Except.ok.inj h).symm

theorem send_clean {attempt : Attempt} (hsent : attempt.sent = true) (body : Bytes) :
    (({} : Connection).send attempt body) =
      { incoming := responseBytes (attempt.serve body).val } := by
  unfold Connection.send
  rw [if_pos ⟨hsent, rfl⟩]
  rfl

theorem feasible_clean {connection : Option Connection} (hclean : Clean connection)
    {attempt : Attempt} (hsent : attempt.sent = true) {body : Bytes}
    (h : Feasible connection attempt body) :
    receivedBytes attempt.events <+: responseBytes (attempt.serve body).val := by
  have hconnected : connection.getD {} = {} := by
    cases connection with
    | none => rfl
    | some connected => exact hclean connected rfl
  unfold Feasible at h
  rw [hconnected, send_clean hsent] at h
  exact h

/-- An attempt on a clean connection that returns gives the own response and
leaves the connection clean. -/
theorem postBinaryOnce_ok {connection after : Option Connection} (hclean : Clean connection)
    {attempt : Attempt} {body : Bytes} (hfeasible : Feasible connection attempt body)
    (huncut : ¬CutInBody (attempt.serve body).val attempt.events)
    {response : HttpClientResponse}
    (h : postBinaryOnce connection attempt body = some (.ok response, after)) :
    response = clientView (attempt.serve body).val ∧ Clean after := by
  unfold postBinaryOnce at h
  cases hconnect : ensureConnected connection attempt with
  | error e =>
    rw [hconnect] at h
    cases h
  | ok connected =>
    have hconnected := ensureConnected_clean hclean hconnect
    simp only [hconnect] at h
    cases hsent : attempt.sent with
    | false =>
      rw [if_pos hsent] at h
      cases h
    | true =>
      rw [if_neg (by rw [hsent]; exact Bool.noConfusion)] at h
      cases hread : readHttpResponse attempt.events with
      | none =>
        rw [hread] at h
        cases h
      | some out =>
        obtain ⟨result, rest⟩ := out
        simp only [hread] at h
        cases result with
        | error e => cases h
        | ok message =>
          have hstarts := feasible_clean hclean hsent hfeasible
          rcases readHttpResponse_ok (attempt.serve body).property hstarts hread with
            ⟨hmessage, hall, hnothing⟩ | hcut
          · simp only [hconnected, send_clean hsent, hall, hnothing] at h
            simp only [Option.some.injEq, Prod.mk.injEq, Except.ok.injEq] at h
            obtain ⟨hresponse, hafter⟩ := h
            refine ⟨hresponse ▸ hmessage, ?_⟩
            intro other hother
            rw [hother] at hafter
            split at hafter
            · cases hafter
            · cases hafter
              rw [List.length_nil, Nat.sub_zero, List.drop_length]
          · exact absurd hcut huncut

/-- An attempt whose response arrives on a clean connection returns it. -/
theorem postBinaryOnce_arrives {connection : Option Connection} (hclean : Clean connection)
    {attempt : Attempt} {body : Bytes} (h : Arrives attempt body) :
    ∃ response after, postBinaryOnce connection attempt body = some (.ok response, after) := by
  obtain ⟨hconnect, hsent, hbody, hheader, used, rest, hevents, hflow, hwhole⟩ := h
  obtain ⟨left, -, hread⟩ := readHttpResponse_arrived (attempt.serve body).property hbody hheader
    hflow hwhole rest
  rw [← hevents] at hread
  have hconnected : ∃ connected, ensureConnected connection attempt = .ok connected := by
    cases connection with
    | some waiting => exact ⟨waiting, rfl⟩
    | none =>
      unfold ensureConnected
      rw [hconnect]
      exact ⟨{}, rfl⟩
  obtain ⟨connected, hconnected⟩ := hconnected
  unfold postBinaryOnce
  simp only [hconnected, hsent, hread, Bool.true_eq_false, if_false]
  exact ⟨_, _, rfl⟩

/-- A call on a clean connection returns only its own response. -/
theorem postBinary_own {connection after : Option Connection} (hclean : Clean connection)
    {call : PostCall} (hfirst : Feasible connection call.first call.body)
    (hsecond : Feasible none call.second call.body) (huncut : Uncut call)
    {response : HttpClientResponse}
    (h : postBinary connection call = some (.ok response, after)) : Own call response := by
  unfold postBinary at h
  cases honce : postBinaryOnce connection call.first call.body with
  | none =>
    rw [honce] at h
    cases h
  | some out =>
    obtain ⟨result, between⟩ := out
    simp only [honce] at h
    cases result with
    | ok message =>
      cases h
      exact Or.inl (postBinaryOnce_ok hclean hfirst huncut.1 honce).1
    | error e => exact Or.inr (postBinaryOnce_ok clean_none hsecond huncut.2 h).1

/-- A settled call leaves a clean connection, or none. -/
theorem postBinary_clean {connection after : Option Connection} (hclean : Clean connection)
    {call : PostCall} (hfirst : Feasible connection call.first call.body)
    (hsecond : Feasible none call.second call.body) (huncut : Uncut call)
    (hsettled : Settled call) {result : Except Bytes HttpClientResponse}
    (h : postBinary connection call = some (result, after)) : Clean after := by
  unfold postBinary at h
  cases honce : postBinaryOnce connection call.first call.body with
  | none =>
    rw [honce] at h
    cases h
  | some out =>
    obtain ⟨firstResult, between⟩ := out
    simp only [honce] at h
    cases firstResult with
    | ok message =>
      cases h
      exact (postBinaryOnce_ok hclean hfirst huncut.1 honce).2
    | error e =>
      rcases hsettled with harrives | hrefused | harrives
      · -- the first attempt would have returned
        obtain ⟨response, other, hreturn⟩ := postBinaryOnce_arrives hclean harrives
        rw [hreturn] at honce
        cases honce
      · obtain ⟨text, htext⟩ := Option.isSome_iff_exists.mp hrefused
        unfold postBinaryOnce ensureConnected at h
        simp only [htext] at h
        cases h
        exact clean_none
      · obtain ⟨response, other, hreturn⟩ := postBinaryOnce_arrives clean_none harrives
        rw [hreturn] at h
        cases h
        exact (postBinaryOnce_ok clean_none hsecond huncut.2 hreturn).2

end CleanConnections

section CallSequences

/-- Over settled calls the connection stays clean, and every result is the
call's own. -/
theorem run_clean {labels : List (PostCall × Except Bytes HttpClientResponse)}
    {connection : Option Connection} (hrun : Run CallStep none labels connection)
    (huncut : ∀ label ∈ labels, Uncut label.1) :
    (∀ label ∈ labels, Settled label.1) → Clean connection := by
  induction hrun with
  | start => exact fun _ => clean_none
  | @next labels before after label hbefore hstep ih =>
    intro hsettled
    have hclean := ih (fun other hother => huncut other (List.mem_append_left _ hother))
      fun other hother => hsettled other (List.mem_append_left _ hother)
    obtain ⟨hfirst, hsecond, hpost⟩ := hstep
    have hlast : label ∈ labels ++ [label] := List.mem_append_right _ List.mem_cons_self
    exact postBinary_clean hclean hfirst hsecond (huncut _ hlast) (hsettled _ hlast) hpost

/-- In every sequence of calls on one client in which each call but the last
one is settled and no stream ends inside a body, a call that returns a response
returns the one that the server produced for it. -/
theorem run_own {labels : List (PostCall × Except Bytes HttpClientResponse)}
    {connection : Option Connection} (hrun : Run CallStep none labels connection)
    (hsettled : ∀ label ∈ labels.dropLast, Settled label.1)
    (huncut : ∀ label ∈ labels, Uncut label.1) :
    ∀ label ∈ labels, ∀ response, label.2 = .ok response → Own label.1 response := by
  induction hrun with
  | start => exact fun label hlabel => by cases hlabel
  | @next labels before after label hbefore hstep ih =>
    rw [List.dropLast_concat] at hsettled
    have huncutBefore : ∀ other ∈ labels, Uncut other.1 := fun other hother =>
      huncut other (List.mem_append_left _ hother)
    intro other hother response hresponse
    rcases List.mem_append.mp hother with hother | hother
    · exact ih (fun earlier hearlier => hsettled earlier (List.mem_of_mem_dropLast hearlier))
        huncutBefore other hother response hresponse
    · have hlast : other = label := List.mem_singleton.mp hother
      rw [hlast] at hresponse ⊢
      obtain ⟨hfirst, hsecond, hpost⟩ := hstep
      rw [hresponse] at hpost
      have hclean := run_clean hbefore huncutBefore hsettled
      exact postBinary_own hclean hfirst hsecond
        (huncut label (List.mem_append_right _ List.mem_cons_self)) hpost

/-- A server that answers with the body it was sent. -/
def echo (body : Bytes) : ServerResponse :=
  ⟨frameResponse body true, frameResponse_wellFormed body true⟩

/-- The response to a body in one chunk. -/
def answered (body : Bytes) : Attempt where
  serve := echo
  events := [.received (responseBytes (echo body).val)]

/-- A call that times out before the response is there. -/
def timedOut : Attempt where
  serve := echo
  events := [.failed (ascii "Resource temporarily unavailable")]

theorem answered_bytes (body : Bytes) :
    receivedBytes (answered body).events = responseBytes (echo body).val := List.append_nil _

theorem answered_flowing (body : Bytes) : Flowing (answered body).events := by
  intro event hevent
  rw [List.mem_singleton.mp hevent]
  exact Or.inr ⟨_, List.cons_ne_nil _ _, rfl⟩

theorem answered_arrives {body : Bytes} (hlimit : body.length ≤ maxHttpBodyBytes) :
    Arrives (answered body) body := by
  exact ⟨rfl, rfl, hlimit, frameResponse_header hlimit true, (answered body).events, [],
    (List.append_nil _).symm, answered_flowing body, answered_bytes body⟩

theorem answered_uncut (body : Bytes) (response : HttpResponse) :
    ¬CutInBody response (answered body).events := by
  rintro ⟨used, rest, -, hevents, -⟩
  have hmem : RecvResult.received [] ∈ (answered body).events := by
    rw [hevents]
    exact List.mem_append_right _ List.mem_cons_self
  have hnil := List.mem_singleton.mp hmem
  cases hnil

/-- Two calls, each answered at once. -/
theorem run_own_answered :
    let calls : List PostCall := [⟨[1], answered [1], timedOut⟩, ⟨[2], answered [2], timedOut⟩]
    ∃ results connection, Run CallStep none (calls.zip results) connection ∧
      ∀ label ∈ calls.zip results, ∀ response, label.2 = .ok response → Own label.1 response := by
  intro calls
  have hstep (connection : Option Connection) (hclean : Clean connection) (body : Bytes)
      (hlimit : body.length ≤ maxHttpBodyBytes) : ∃ response after, Clean after ∧
        CallStep connection (⟨body, answered body, timedOut⟩, .ok response) after := by
    obtain ⟨response, after, hpost⟩ := postBinaryOnce_arrives hclean (answered_arrives hlimit)
    have hconnected : connection.getD {} = {} := by
      cases connection with
      | none => rfl
      | some connected => exact hclean connected rfl
    have hfeasible : Feasible connection (answered body) body := by
      unfold Feasible
      rw [hconnected, answered_bytes, send_clean rfl]
      exact List.prefix_rfl
    have hown := postBinaryOnce_ok hclean hfeasible (answered_uncut body _) hpost
    refine ⟨response, after, hown.2, hfeasible, List.nil_prefix, ?_⟩
    unfold postBinary
    simp only [hpost]
  obtain ⟨first, between, hbetween, hfirst⟩ := hstep none clean_none [1] (by decide)
  obtain ⟨second, after, -, hsecond⟩ := hstep between hbetween [2] (by decide)
  have hrun := (Run.start.next hfirst).next hsecond
  refine ⟨[.ok first, .ok second], after, hrun, ?_⟩
  have htimed (body : Bytes) : ¬CutInBody (timedOut.serve body).val timedOut.events := by
    rintro ⟨used, rest, -, hevents, -⟩
    have hmem : RecvResult.received [] ∈ timedOut.events := by
      rw [hevents]
      exact List.mem_append_right _ List.mem_cons_self
    have hnil := List.mem_singleton.mp hmem
    cases hnil
  refine run_own hrun ?_ ?_
  · intro label hlabel
    have hlast : label = (⟨[1], answered [1], timedOut⟩, .ok first) := List.mem_singleton.mp hlabel
    rw [hlast]
    exact Or.inl (answered_arrives (by decide))
  · intro label hlabel
    rcases List.mem_cons.mp hlabel with rfl | hlabel
    · exact ⟨answered_uncut _ _, htimed _⟩
    · rw [List.mem_singleton.mp hlabel]
      exact ⟨answered_uncut _ _, htimed _⟩

/-- A call whose two attempts time out, and the next one, made when the late
response has arrived. -/
def lateCall : PostCall := ⟨[1], timedOut, timedOut⟩

def nextCall : PostCall := ⟨[2], answered [1], ⟨none, true, echo, [], []⟩⟩

/-- The retry of the late call left its connection open, so the next call
returns the response to the body of the late one. -/
theorem lateCall_shifts : ∃ connection,
    Run CallStep none
      [(lateCall, .error (ascii "recv failed while reading HTTP response: " ++
        ascii "Resource temporarily unavailable")),
        (nextCall, .ok (clientView (echo [1]).val))] connection ∧
      ¬Own nextCall (clientView (echo [1]).val) := by
  have hlimit : (echo [1]).val.body.length ≤ maxHttpBodyBytes := by decide
  have hheader : (responseHeader (echo [1]).val).length ≤ maxHttpHeaderBytes :=
    frameResponse_header hlimit true
  obtain ⟨left, hleft, hread⟩ := readHttpResponse_arrived (echo [1]).property hlimit hheader
    (answered_flowing [1]) (answered_bytes [1]) []
  rw [List.append_nil] at hread
  have hlate : CallStep none (lateCall, .error
      (ascii "recv failed while reading HTTP response: " ++
        ascii "Resource temporarily unavailable"))
      (some { incoming := responseBytes (echo [1]).val }) :=
    ⟨List.nil_prefix, List.nil_prefix, rfl⟩
  have hsent : nextCall.first.sent = true := rfl
  have hevents : nextCall.first.events = (answered [1]).events := rfl
  have hpost : ∃ connection, postBinary (some { incoming := responseBytes (echo [1]).val })
      nextCall = some (.ok (clientView (echo [1]).val), connection) := by
    unfold postBinary postBinaryOnce ensureConnected
    simp only [hsent, hevents, hread, Bool.true_eq_false, if_false]
    exact ⟨_, rfl⟩
  obtain ⟨connection, hpost⟩ := hpost
  have hfeasible : Feasible (some { incoming := responseBytes (echo [1]).val })
      nextCall.first nextCall.body := by
    unfold Feasible
    rw [hevents, answered_bytes]
    exact List.prefix_append _ (responseBytes (echo [2]).val)
  have hnext : CallStep (some { incoming := responseBytes (echo [1]).val })
      (nextCall, .ok (clientView (echo [1]).val)) connection :=
    ⟨hfeasible, List.nil_prefix, hpost⟩
  refine ⟨connection, (Run.start.next hlate).next hnext, ?_⟩
  rintro (hown | hown)
  · have hsame : ([1] : Bytes) = [2] := congrArg HttpClientResponse.body hown
    cases hsame
  · have hsame : ([1] : Bytes) = [2] := congrArg HttpClientResponse.body hown
    cases hsame

end CallSequences

end LayerInference.PersistentClient
