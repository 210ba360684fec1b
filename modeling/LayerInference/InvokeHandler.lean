import LayerInference.ConfigLines
import Mathlib.Data.Finset.Basic

/-!
# The invoke handler of the ops server

One handler runs for each request, on a single thread: it works without a break
from one await to the next, and any other handler may run in between. A handler
is kept as the await it stands at, with the locals it needs behind it, and an
event resumes it with what the awaited call returned or threw. The counters and
the map of the calls in flight are shared. What only the arguments of calls and
the texts of replies are made of is left out.
-/

namespace LayerInference.InvokeHandler

open ByteStrings TextStreams ConfigLines

section Requests

/-- The entry of a target in its runtime variant. -/
structure TargetConfig where
  deployment : Bytes
  appLabel : Bytes
  service : Option Bytes

/-- The constants of the module, the targets of its variants, and the text
functions of the platform. -/
structure OpsServer where
  defaultNamespace : Bytes
  defaultRuntimeVariant : Bytes
  runtimeVariants : List Bytes
  targets : Bytes → Bytes → Option TargetConfig
  toUpperCase : Bytes → Bytes
  toLowerCase : Bytes → Bytes
  trim : Bytes → Bytes

variable (server : OpsServer)

/-- The query of a request; a parameter that is missing is empty. -/
structure Query where
  nameSpace : Bytes
  variant : Bytes
  runtime : Bytes

/-- The body of the request to send on: with a value that is no text comes what
`JSON.stringify` makes of it, or throws. -/
inductive RequestBody where
  | undefined
  | text (body : Bytes)
  | value (json : Except Bytes Bytes)

/-- A payload with its fields as texts, none where a field is missing or falsy. -/
structure Payload where
  nameSpace : Option Bytes
  variant : Option Bytes
  runtime : Option Bytes
  target : Option Bytes
  method : Option Bytes
  path : Option Bytes
  body : RequestBody

structure Reply where
  status : ℕ
  error : Bytes

/-- The first of two texts, or the second where the first is empty. -/
def orText (text other : Bytes) : Bytes := if text = [] then other else text

def resolveNamespace (raw : Bytes) : Bytes := orText (server.trim raw) server.defaultNamespace

def normalizeRuntimeVariant (rawValue : Bytes) : Bytes :=
  let value := server.toLowerCase (server.trim rawValue)
  if value ∈ server.runtimeVariants then value else server.defaultRuntimeVariant

def resolveRuntimeVariant (query : Query) (rawValue : Bytes) : Bytes :=
  normalizeRuntimeVariant server (orText rawValue (orText query.variant query.runtime))

def isNameByte (b : UInt8) : Bool := (97 ≤ b && b ≤ 122) || (48 ≤ b && b ≤ 57)

def isValidNamespaceName (nameSpace : Bytes) : Bool :=
  nameSpace.all (fun b => isNameByte b || b == 45) && nameSpace.head?.any isNameByte &&
    nameSpace.getLast?.any isNameByte

def isHttpMethod (method : Bytes) : Bool :=
  [ascii "get", ascii "post", ascii "put", ascii "patch", ascii "delete", ascii "head"].contains
    (lowerCopy method)

def normalizePathForHttp (rawPath : Bytes) : Bytes :=
  let pathValue := server.trim rawPath
  if startsWith pathValue (ascii "/") then pathValue else ascii "/" ++ pathValue

/-- A path whose first part is this word. -/
def isUnder (word path : Bytes) : Bool :=
  startsWith path word && (path.drop word.length).head?.all (· == 47)

def isLongInferencePath (method pathValue : Bytes) : Bool :=
  method == ascii "POST" && (isUnder (ascii "/generate") (lowerCopy pathValue) ||
    isUnder (ascii "/chat") (lowerCopy pathValue))

def buildInvokeLockKey (nameSpace target method pathValue : Bytes) : Bytes :=
  nameSpace ++ ascii "::" ++ target ++ ascii "::" ++ method ++ ascii "::" ++ pathValue

/-- A request that passed the checks. -/
structure Invocation where
  nameSpace : Bytes
  variant : Bytes
  target : Bytes
  targetConfig : TargetConfig
  method : Bytes
  pathValue : Bytes

def Invocation.longInferenceCall (invocation : Invocation) : Bool :=
  isLongInferencePath invocation.method invocation.pathValue

def Invocation.key (invocation : Invocation) : Bytes :=
  buildInvokeLockKey invocation.nameSpace
    (invocation.variant ++ ascii ":" ++ invocation.target) invocation.method invocation.pathValue

/-- The key that the call locks, null unless it is a long call. -/
def Invocation.lockKey (invocation : Invocation) : Option Bytes :=
  if invocation.longInferenceCall then some invocation.key else none

/-- The checks in front of the counters. -/
def validate (query : Query) (payload : Payload) : Except Reply Invocation :=
  let nameSpace := resolveNamespace server (payload.nameSpace.getD query.nameSpace)
  let variant := resolveRuntimeVariant server query
    ((payload.variant.orElse fun _ => payload.runtime).getD [])
  if isValidNamespaceName nameSpace = false then
    .error ⟨400, ascii "Invalid namespace '" ++ nameSpace ++ ascii "'."⟩
  else
    let target := payload.target.getD (ascii "gateway")
    match server.targets variant target with
    | none =>
      .error ⟨400, ascii "Unknown target '" ++ target ++ ascii "' for runtime variant '" ++
        variant ++ ascii "'."⟩
    | some targetConfig =>
      let method := server.toUpperCase (payload.method.getD (ascii "GET"))
      if isHttpMethod method = false then
        .error ⟨400, ascii "Unsupported HTTP method '" ++ method ++ ascii "'."⟩
      else
        .ok
          { nameSpace := nameSpace
            variant := variant
            target := target
            targetConfig := targetConfig
            method := method
            pathValue := normalizePathForHttp server (payload.path.getD (ascii "/health")) }

/-- The body to send, which only a method with a body has. -/
def invokeBody (method : Bytes) (body : RequestBody) : Except Bytes (Option Bytes) :=
  if method = ascii "GET" ∨ method = ascii "HEAD" then .ok none
  else
    match body with
    | .undefined => .ok none
    | .text body => .ok (some body)
    | .value (.ok json) => .ok (some json)
    | .value (.error e) => .error e

/-- The targets of both variants. -/
def runtimeTarget (variant target : Bytes) : Option TargetConfig :=
  let start := if variant = ascii "native" then ascii "inference-native-" else ascii "inference-"
  if target ∈ [ascii "gateway", ascii "stage-1", ascii "stage-2", ascii "stage-3",
      ascii "stage-4"] then
    some ⟨start ++ target ++ ascii "-deployment", start ++ target, some (start ++ target)⟩
  else none

def upperByte (b : UInt8) : UInt8 := if 97 ≤ b ∧ b ≤ 122 then b - 32 else b

/-- The server with its default settings, on ASCII texts. -/
def opsServer : OpsServer where
  defaultNamespace := ascii "inference"
  defaultRuntimeVariant := ascii "python"
  runtimeVariants := [ascii "python", ascii "native"]
  targets := runtimeTarget
  toUpperCase := List.map upperByte
  toLowerCase := lowerCopy
  trim := ByteStrings.trimCopy

end Requests

section Accounts

/-- The counters of the server and the keys of its calls in flight. -/
structure Shared where
  totalInvokes : ℕ
  successfulInvokes : ℕ
  failedInvokes : ℕ
  droppedInFlight : ℕ
  timeoutFailures : ℕ
  inFlightInvokes : Finset Bytes

/-- What a handler works on from one await to the next. No outcome is marked
when it starts: a handler that marks one does not await again. -/
structure Turn where
  shared : Shared
  runtimeTerminalMarked : Bool := false

/-- Mark the outcome of an invoke, once. -/
def markInvoke (count : Shared → Shared) (turn : Turn) : Turn :=
  if turn.runtimeTerminalMarked then turn else ⟨count turn.shared, true⟩

def markInvokeSuccess : Turn → Turn :=
  markInvoke fun s => { s with successfulInvokes := s.successfulInvokes + 1 }

def markInvokeFailure : Turn → Turn :=
  markInvoke fun s => { s with failedInvokes := s.failedInvokes + 1 }

def markInvokeDropped : Turn → Turn :=
  markInvoke fun s => { s with droppedInFlight := s.droppedInFlight + 1 }

end Accounts

section Awaits

structure Pod where
  name : Bytes
  appLabel : Bytes
  podIp : Bytes
  creationTimestamp : ℤ

structure Service where
  ports : List ℕ
  clusterIp : Bytes

structure Candidate where
  type : Bytes
  baseUrl : Bytes

/-- A response that was read, and what its reply throws when it is written. -/
structure Response where
  status : ℕ
  sendError : Option Bytes := none

/-- A call that is past the lock. -/
structure Call extends Invocation where
  body : Option Bytes

/-- The locals that an exception left behind: the mark, and the lock that was
not given back. -/
structure Locals where
  runtimeTerminalMarked : Bool
  lockKey : Option Bytes

/-- The await at which a handler stands, or its end. -/
inductive Stage where
  | readJsonBody (query : Query)
  /-- The deployment, the pods of its selector and all pods, for the target. -/
  | getDeployment (call : Call)
  | getSelectedPods (call : Call)
  | getAllPods (call : Call)
  /-- All pods, for the reply that no pod was found. -/
  | getVisiblePods (call : Call)
  | getService (call : Call) (pod : Pod)
  | tryHttpCall (call : Call) (pod : Pod) (candidate : Candidate) (others : List Candidate)
      (attempts : List Bytes)
  | tryPortForwardCall (call : Call) (pod : Pod) (attempts : List Bytes)
  | replied (reply : Reply)
  /-- Left by an exception, before the locals were set up or with these. -/
  | threw (locals : Option Locals)

/-- What an awaited call returned or threw. -/
inductive Outcome where
  /-- A payload whose fields cannot be taken or turned into texts is none. -/
  | body (read : Except Bytes (Option Payload))
  | deployment (result : Except Bytes Unit)
  | pods (result : Except Bytes (List Pod))
  | service (result : Except Bytes Service)
  | http (result : Except Bytes Response)
  | portForward (result : Except Bytes (Except Bytes Response))

end Awaits

section Handler

/-- The `finally` block. -/
def giveBack (call : Call) (shared : Shared) : Shared :=
  match call.lockKey with
  | none => shared
  | some lockKey => { shared with inFlightInvokes := shared.inFlightInvokes.erase lockKey }

/-- Mark a failure, reply and return. -/
def failWith (call : Call) (turn : Turn) (status : ℕ) (error : Bytes) : Shared × Stage :=
  (giveBack call (markInvokeFailure turn).shared, .replied ⟨status, error⟩)

/-- Set up the locals behind the lock. The body is made before the `try`. -/
def prepare (invocation : Invocation) (body : RequestBody) (shared : Shared) : Shared × Stage :=
  match invokeBody invocation.method body with
  | .error _ => (shared, .threw (some ⟨false, invocation.lockKey⟩))
  | .ok body => (shared, .getDeployment { toInvocation := invocation, body := body })

/-- Count the call, and take its lock or drop it. -/
def begin (invocation : Invocation) (body : RequestBody) (shared : Shared) : Shared × Stage :=
  let counted := { shared with totalInvokes := shared.totalInvokes + 1 }
  match invocation.lockKey with
  | none => prepare invocation body counted
  | some lockKey =>
    if lockKey ∈ counted.inFlightInvokes then
      ((markInvokeDropped { shared := counted }).shared,
        .replied ⟨429, ascii "Request discarded because another request is already in progress"⟩)
    else
      prepare invocation body
        { counted with inFlightInvokes := insert lockKey counted.inFlightInvokes }

/-- The rest of a line: a dot of a regular expression goes no further. -/
def restOfLine : Bytes → Bytes
  | 0xe2 :: 0x80 :: 0xa8 :: _ => []
  | 0xe2 :: 0x80 :: 0xa9 :: _ => []
  | b :: rest => if b = 10 ∨ b = 13 then [] else b :: restOfLine rest
  | [] => []

/-- The error text says that the deployment is missing. -/
def isDeploymentMissing : Bytes → Bool
  | [] => false
  | b :: rest =>
    (startsWith (lowerCopy (b :: rest)) (ascii "deployment") &&
      (find (ascii "not found") (restOfLine ((lowerCopy (b :: rest)).drop 10))).isSome) ||
      isDeploymentMissing rest

def sortPodsByCreationTime (items : List Pod) : List Pod :=
  items.mergeSort fun a b => a.creationTimestamp ≤ b.creationTimestamp

/-- The pods of a target by their names. -/
def isFallbackPod (config : TargetConfig) (pod : Pod) : Bool :=
  startsWith pod.name (config.deployment ++ ascii "-") ||
    (find config.appLabel pod.name).isSome || pod.appLabel == config.appLabel

/-- Behind the resolution of the pods: the last pod is taken. -/
def resolvedPods (call : Call) (podItems : List Pod) (shared : Shared) : Shared × Stage :=
  match podItems.getLast? with
  | none => (shared, .getVisiblePods call)
  | some selectedPod => (shared, .getService call selectedPod)

def unresolved (call : Call) (shared : Shared) : Shared × Stage :=
  failWith call { shared := shared } 500 (ascii "Failed to resolve target pods")

def servicePort (svc : Service) : ℕ :=
  if 8000 ∈ svc.ports then 8000
  else
    match svc.ports.head? with
    | none => 8000
    | some port => if port = 0 then 8000 else port

def buildHttpCandidates (call : Call) (pod : Pod) (svc : Except Bytes Service) : List Candidate :=
  let ofPod : List Candidate :=
    if pod.podIp = [] then []
    else [⟨ascii "podIP", ascii "http://" ++ pod.podIp ++ ascii ":8000"⟩]
  match call.targetConfig.service, svc with
  | some service, .ok svc =>
    let port := ascii ":" ++ decimalNat (servicePort svc)
    let ofClusterIp : List Candidate :=
      if svc.clusterIp = [] ∨ svc.clusterIp = ascii "None" then []
      else [⟨ascii "serviceClusterIP", ascii "http://" ++ svc.clusterIp ++ port⟩]
    ofPod ++ ofClusterIp ++ [⟨ascii "serviceDNS", ascii "http://" ++ service ++ ascii "." ++
      call.nameSpace ++ ascii ".svc.cluster.local" ++ port⟩]
  | _, _ => ofPod

/-- A long call goes to the first candidate only. -/
def candidatesToTry (call : Call) (candidates : List Candidate) : List Candidate :=
  if call.longInferenceCall then candidates.take 1 else candidates

/-- The reply with the response of the target. It may throw behind the mark. -/
def succeed (call : Call) (response : Response) (shared : Shared) : Shared × Stage :=
  let marked := markInvokeSuccess { shared := shared }
  match response.sendError with
  | none => (giveBack call marked.shared, .replied ⟨200, []⟩)
  | some _ => (giveBack call marked.shared, .threw (some ⟨marked.runtimeTerminalMarked, none⟩))

/-- An error text that says that the time was up. -/
def isTimeout (error : Bytes) : Bool :=
  (find (ascii "aborted") (lowerCopy error)).isSome ||
    (find (ascii "timeout") (lowerCopy error)).isSome

/-- The end behind the last attempt. -/
def allFailed (call : Call) (attempts : List Bytes) (turn : Turn) : Shared × Stage :=
  let counted := { turn.shared with
    timeoutFailures := turn.shared.timeoutFailures + attempts.countP isTimeout }
  failWith call { turn with shared := counted } 502 (ascii "All endpoint call attempts failed")

/-- Behind the port forward. A reply that throws is caught, as an attempt. -/
def portForwarded (call : Call) (attempts : List Bytes)
    (result : Except Bytes (Except Bytes Response)) (shared : Shared) : Shared × Stage :=
  match result with
  | .ok (.ok response) =>
    let marked := markInvokeSuccess { shared := shared }
    match response.sendError with
    | none => (giveBack call marked.shared, .replied ⟨200, []⟩)
    | some e => allFailed call (attempts ++ [e]) marked
  | .ok (.error e) =>
    allFailed call (attempts ++ [orText e (ascii "kubectl port-forward fallback failed")])
      { shared := shared }
  | .error e => allFailed call (attempts ++ [e]) { shared := shared }

/-- The way of a handler from one await to the next. -/
def resume (server : OpsServer) (shared : Shared) : Stage → Outcome → Option (Shared × Stage)
  | .readJsonBody _, .body (.error e) => some (shared, .replied ⟨400, e⟩)
  | .readJsonBody _, .body (.ok none) => some (shared, .threw none)
  | .readJsonBody query, .body (.ok (some payload)) =>
    match validate server query payload with
    | .error reply => some (shared, .replied reply)
    | .ok invocation => some (begin invocation payload.body shared)
  | .getDeployment call, .deployment (.ok _) => some (shared, .getSelectedPods call)
  | .getDeployment call, .deployment (.error e) =>
    if isDeploymentMissing e then some (shared, .getSelectedPods call)
    else some (unresolved call shared)
  | .getSelectedPods call, .pods (.ok items) =>
    if items = [] then some (shared, .getAllPods call)
    else some (resolvedPods call (sortPodsByCreationTime items) shared)
  | .getSelectedPods call, .pods (.error _) => some (unresolved call shared)
  | .getAllPods call, .pods (.ok items) =>
    some (resolvedPods call
      (sortPodsByCreationTime (items.filter (isFallbackPod call.targetConfig))) shared)
  | .getAllPods call, .pods (.error _) => some (unresolved call shared)
  | .getVisiblePods call, .pods (.ok _) =>
    some (failWith call { shared := shared } 404 (ascii "No pod found for target"))
  | .getVisiblePods call, .pods (.error _) =>
    -- nothing catches this one but the server, behind the `finally`
    some (giveBack call shared, .threw (some ⟨false, none⟩))
  | .getService call pod, .service svc =>
    match candidatesToTry call (buildHttpCandidates call pod svc) with
    | [] =>
      some (failWith call { shared := shared } 500
        (ascii "No HTTP candidates available for target"))
    | candidate :: others => some (shared, .tryHttpCall call pod candidate others [])
  | .tryHttpCall call _ _ _ _, .http (.ok response) => some (succeed call response shared)
  | .tryHttpCall call pod _ others attempts, .http (.error e) =>
    match others with
    | [] => some (shared, .tryPortForwardCall call pod (attempts ++ [e]))
    | candidate :: others => some (shared, .tryHttpCall call pod candidate others (attempts ++ [e]))
  | .tryPortForwardCall call _ attempts, .portForward result =>
    some (portForwarded call attempts result shared)
  | _, _ => none

end Handler

section System

/-- The shared state and the handlers of all requests so far. -/
structure State where
  shared : Shared
  handlers : List Stage

inductive Event where
  | request (method : Bytes) (query : Query)
  | resume (i : ℕ) (outcome : Outcome)

/-- A handler up to its first await. -/
def accept (server : OpsServer) (method : Bytes) (query : Query) : Stage :=
  if server.toUpperCase (orText method (ascii "GET")) ≠ ascii "POST" then
    .replied ⟨405, ascii "Use POST for /api/invoke."⟩
  else .readJsonBody query

/-- An event and the state it leads to, none if no handler awaits it. -/
def next (server : OpsServer) (s : State) : Event → Option State
  | .request method query => some { s with handlers := s.handlers ++ [accept server method query] }
  | .resume i outcome =>
    match s.handlers[i]? with
    | none => none
    | some stage =>
      (resume server s.shared stage outcome).map fun result =>
        ⟨result.1, s.handlers.set i result.2⟩

def Step (server : OpsServer) (s : State) (event : Event) (s' : State) : Prop :=
  next server s event = some s'

/-- The server before its first request. -/
def initial : State := ⟨⟨0, 0, 0, 0, 0, ∅⟩, []⟩

end System

end LayerInference.InvokeHandler
