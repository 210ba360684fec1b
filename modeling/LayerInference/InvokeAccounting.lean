import LayerInference.InvokeHandler
import LayerInference.KeyedGuards

/-!
# Locks and accounts of the invoke handler

The handlers of the ops server are handlers of a keyed guard: one that reads its
body stands outside, one past the counters is at work with its lock, and one
that an exception took out before its outcome was marked is lost. So a lock is
with one long call at most, and a dropped call leaves all locks as they are. The
server comes to rest with even accounts and no lock unless a call was lost, which
happens in two places: the pods listed for the reply that no pod was found are
asked for outside any `catch`, and the body is made into a text behind the lock
but before the `try` that gives it back.
-/

namespace LayerInference.InvokeAccounting

open ByteStrings InvokeHandler Runs
open KeyedGuards hiding Step

section Refinement

def ledger (shared : Shared) : Ledger Bytes where
  total := shared.totalInvokes
  settled := shared.successfulInvokes + shared.failedInvokes + shared.droppedInFlight
  keys := shared.inFlightInvokes

/-- The point of a handler in the guard. -/
def point : Stage → Point Bytes
  | .readJsonBody _ => .idle
  | .getDeployment call => .working call.lockKey
  | .getSelectedPods call => .working call.lockKey
  | .getAllPods call => .working call.lockKey
  | .getVisiblePods call => .working call.lockKey
  | .getService call _ => .working call.lockKey
  | .tryHttpCall call _ _ _ _ => .working call.lockKey
  | .tryPortForwardCall call _ _ => .working call.lockKey
  | .replied _ => .closed
  | .threw none => .closed
  | .threw (some locals) =>
    if locals.runtimeTerminalMarked then .closed else .lost locals.lockKey

def guard (s : State) : Guard Bytes := ⟨ledger s.shared, s.handlers.map point⟩

/-- The `finally` block takes the key of the call out of the map. -/
theorem giveBack_ledger (call : Call) (shared : Shared) :
    ledger (giveBack call shared) =
      { ledger shared with keys := (ledger shared).keys \ call.lockKey.toFinset } := by
  unfold giveBack
  cases call.lockKey with
  | none =>
    have hkeys : (ledger shared).keys \ (none : Option Bytes).toFinset = (ledger shared).keys :=
      Finset.sdiff_empty
    rw [hkeys]
  | some lockKey =>
    have hkeys : (ledger shared).keys \ (some lockKey).toFinset =
        (ledger shared).keys.erase lockKey := Finset.sdiff_singleton_eq_erase lockKey _
    rw [hkeys]
    rfl

/-- The ledger with one more outcome marked. -/
def settledOnce (l : Ledger Bytes) : Ledger Bytes := { l with settled := l.settled + 1 }

/-- The counters of a turn have its mark, if there is one, and nothing else. -/
def Accounts (shared : Shared) (turn : Turn) : Prop :=
  ledger turn.shared =
    if turn.runtimeTerminalMarked then settledOnce (ledger shared) else ledger shared

/-- A failure is counted where no outcome is marked. -/
theorem markInvokeFailure_ledger {shared : Shared} {turn : Turn} (h : Accounts shared turn) :
    ledger (markInvokeFailure turn).shared = settledOnce (ledger shared) := by
  unfold Accounts at h
  unfold markInvokeFailure markInvoke
  cases hmarked : turn.runtimeTerminalMarked with
  | true =>
    rw [hmarked, if_pos rfl] at h
    rw [if_pos rfl, h]
  | false =>
    rw [hmarked, if_neg Bool.false_ne_true] at h
    rw [if_neg Bool.false_ne_true, ← h]
    have hsum : turn.shared.successfulInvokes + (turn.shared.failedInvokes + 1) +
        turn.shared.droppedInFlight = turn.shared.successfulInvokes +
          turn.shared.failedInvokes + turn.shared.droppedInFlight + 1 := by
      omega
    simp only [ledger, settledOnce, hsum]

/-- A success counts a call that is not marked yet. -/
theorem markInvokeSuccess_accounts (shared : Shared) :
    Accounts shared (markInvokeSuccess { shared := shared }) := by
  have hsum : shared.successfulInvokes + 1 + shared.failedInvokes + shared.droppedInFlight =
      shared.successfulInvokes + shared.failedInvokes + shared.droppedInFlight + 1 := by
    omega
  change ledger _ = settledOnce (ledger shared)
  simp only [ledger, settledOnce, markInvokeSuccess, markInvoke, Bool.false_eq_true, if_false, hsum]

theorem unmarked_accounts (shared : Shared) : Accounts shared { shared := shared } := rfl

/-- An outcome that a handler leaves without a mark. -/
def LosesCall (server : OpsServer) (shared : Shared) : Stage → Outcome → Prop
  | .readJsonBody query, .body (.ok (some payload)) =>
    ∃ invocation, validate server query payload = .ok invocation ∧
      (∀ key ∈ invocation.lockKey, key ∉ shared.inFlightInvokes) ∧
        ∃ e, invokeBody invocation.method payload.body = .error e
  | .getVisiblePods _, .pods (.error _) => True
  | _, _ => False

/-- What a handler does from a point of the guard to its next await. -/
structure Effect (shared : Shared) (p : Point Bytes) (loses : Prop) (result : Shared × Stage) :
    Prop where
  change : Change (ledger shared) p (ledger result.1) (point result.2)
  lost_iff : (point result.2).isLost = true ↔ loses
  drops : result.1.droppedInFlight = shared.droppedInFlight ∨
    result.1.inFlightInvokes = shared.inFlightInvokes

theorem not_lost {p : Point Bytes} (h : p.isLost = false) : p.isLost = true ↔ False :=
  ⟨fun hlost => Bool.false_ne_true (h.symm.trans hlost), False.elim⟩

section Working

variable (call : Call) (shared : Shared)

/-- A call past the lock goes on, or ends with a mark. -/
def Moves (result : Shared × Stage) : Prop := Effect shared (.working call.lockKey) False result

theorem giveBack_dropped : (giveBack call shared).droppedInFlight = shared.droppedInFlight := by
  unfold giveBack
  cases call.lockKey with
  | none => rfl
  | some lockKey => rfl

/-- A handler that goes on leaves the shared state as it is. -/
theorem waits_moves {stage : Stage} (h : point stage = .working call.lockKey) :
    Moves call shared (shared, stage) := by
  refine ⟨?_, not_lost ?_, Or.inl rfl⟩
  · rw [h]
    exact Change.stay _
  · rw [h]
    rfl

/-- A call with a mark is settled and gives its key back. -/
theorem close_moves {shared' : Shared} {stage : Stage} (hstage : point stage = .closed)
    (h : ledger shared' = settledOnce (ledger shared))
    (hdropped : shared'.droppedInFlight = shared.droppedInFlight) :
    Moves call shared (giveBack call shared', stage) := by
  refine ⟨?_, not_lost ?_, Or.inl ((giveBack_dropped call shared').trans hdropped)⟩
  · rw [hstage, giveBack_ledger, h]
    exact Change.close call.lockKey
  · rw [hstage]
    rfl

/-- The counters of a turn that has dropped nothing. -/
structure Kept (turn : Turn) : Prop where
  accounts : Accounts shared turn
  dropped : turn.shared.droppedInFlight = shared.droppedInFlight

theorem kept_unmarked : Kept shared { shared := shared } := ⟨rfl, rfl⟩

theorem kept_success : Kept shared (markInvokeSuccess { shared := shared }) :=
  ⟨markInvokeSuccess_accounts shared, rfl⟩

theorem failWith_moves {turn : Turn} (h : Kept shared turn) (status : ℕ) (error : Bytes) :
    Moves call shared (failWith call turn status error) := by
  refine close_moves call shared rfl (markInvokeFailure_ledger h.accounts) ?_
  rw [← h.dropped]
  unfold markInvokeFailure markInvoke
  split
  · rfl
  · rfl

theorem unresolved_moves : Moves call shared (unresolved call shared) :=
  failWith_moves call shared (kept_unmarked shared) _ _

theorem resolvedPods_moves (podItems : List Pod) :
    Moves call shared (resolvedPods call podItems shared) := by
  unfold resolvedPods
  cases podItems.getLast? with
  | none => exact waits_moves call shared rfl
  | some pod => exact waits_moves call shared rfl

theorem succeed_moves (response : Response) : Moves call shared (succeed call response shared) := by
  have hledger : ledger (markInvokeSuccess { shared := shared }).shared =
      settledOnce (ledger shared) := markInvokeSuccess_accounts shared
  unfold succeed
  cases response.sendError with
  | none => exact close_moves call shared rfl hledger rfl
  | some e => exact close_moves call shared rfl hledger rfl

/-- The timeouts are no part of the accounts. -/
theorem allFailed_moves {turn : Turn} (h : Kept shared turn) (attempts : List Bytes) :
    Moves call shared (allFailed call attempts turn) := by
  unfold allFailed
  refine failWith_moves call shared ⟨?_, ?_⟩ _ _
  · exact h.accounts
  · exact h.dropped

theorem portForwarded_moves (attempts : List Bytes)
    (result : Except Bytes (Except Bytes Response)) :
    Moves call shared (portForwarded call attempts result shared) := by
  unfold portForwarded
  cases result with
  | error e => exact allFailed_moves call shared (kept_unmarked shared) _
  | ok read =>
    cases read with
    | error e => exact allFailed_moves call shared (kept_unmarked shared) _
    | ok response =>
      cases hsend : response.sendError with
      | none =>
        simp only [hsend]
        exact close_moves call shared rfl (markInvokeSuccess_accounts shared) rfl
      | some e =>
        simp only [hsend]
        exact allFailed_moves call shared (kept_success shared) _

/-- The exception that nothing catches takes the call out without a mark. -/
theorem lose_effect : Effect shared (.working call.lockKey) True
    (giveBack call shared, .threw (some ⟨false, none⟩)) := by
  refine ⟨?_, ⟨fun _ => trivial, fun _ => rfl⟩, Or.inl (giveBack_dropped call shared)⟩
  rw [giveBack_ledger]
  exact Change.lose call.lockKey

end Working

/-- Behind the lock, a call is at work, or lost if it has no body to send. -/
theorem prepare_effect (invocation : Invocation) (body : RequestBody) {shared shared' : Shared}
    (free : ∀ key ∈ invocation.lockKey, key ∉ shared.inFlightInvokes)
    (h : ledger shared' =
      { ledger shared with
        total := (ledger shared).total + 1
        keys := (ledger shared).keys ∪ invocation.lockKey.toFinset })
    (hdropped : shared'.droppedInFlight = shared.droppedInFlight) :
    Effect shared .idle ((∀ key ∈ invocation.lockKey, key ∉ shared.inFlightInvokes) ∧
      ∃ e, invokeBody invocation.method body = .error e) (prepare invocation body shared') := by
  unfold prepare
  cases invokeBody invocation.method body with
  | error e =>
    refine ⟨?_, ⟨fun _ => ⟨free, e, rfl⟩, fun _ => rfl⟩, Or.inl hdropped⟩
    change Change (ledger shared) .idle (ledger shared') (.lost invocation.lockKey)
    rw [h]
    exact Change.leak invocation.lockKey free
  | ok body =>
    refine ⟨?_, ⟨fun hlost => absurd hlost Bool.false_ne_true, ?_⟩, Or.inl hdropped⟩
    · change Change (ledger shared) .idle (ledger shared') (.working invocation.lockKey)
      rw [h]
      exact Change.enter invocation.lockKey free
    · rintro ⟨-, e, he⟩
      cases he

/-- A call is counted, and takes a lock that is free or is dropped. -/
theorem begin_effect (invocation : Invocation) (body : RequestBody) (shared : Shared) :
    Effect shared .idle ((∀ key ∈ invocation.lockKey, key ∉ shared.inFlightInvokes) ∧
      ∃ e, invokeBody invocation.method body = .error e) (begin invocation body shared) := by
  unfold begin
  cases hkey : invocation.lockKey with
  | none =>
    dsimp only
    rw [← hkey]
    refine prepare_effect invocation body (fun key hmem => ?_) ?_ rfl
    · rw [hkey] at hmem
      cases hmem
    · have hkeys : (ledger shared).keys ∪ (none : Option Bytes).toFinset = (ledger shared).keys :=
        Finset.union_empty _
      rw [hkey, hkeys]
      rfl
  | some lockKey =>
    by_cases hlocked : lockKey ∈ shared.inFlightInvokes
    · dsimp only
      rw [if_pos hlocked]
      refine ⟨?_, ⟨fun hlost => absurd hlost Bool.false_ne_true, ?_⟩, Or.inr rfl⟩
      · have hdrop : Change (ledger shared) .idle _ .closed := Change.drop
        exact hdrop
      · exact fun h => absurd hlocked (h.1 lockKey rfl)
    · dsimp only
      rw [if_neg hlocked, ← hkey]
      refine prepare_effect invocation body (fun key hmem => ?_) ?_ rfl
      · rw [hkey] at hmem
        rw [← Option.some.inj hmem]
        exact hlocked
      · have hkeys : insert lockKey shared.inFlightInvokes =
            (ledger shared).keys ∪ (some lockKey).toFinset := by
          rw [Finset.union_comm]
          exact Finset.insert_eq _ _
        rw [hkey, ← hkeys]
        rfl

/-- What a handler does from one await to the next is a change of the guard. -/
theorem resume_effect {server : OpsServer} {shared : Shared} {stage : Stage} {outcome : Outcome}
    {result : Shared × Stage} (h : resume server shared stage outcome = some result) :
    Effect shared (point stage) (LosesCall server shared stage outcome) result := by
  revert h
  fun_cases resume server shared stage outcome
  all_goals
    intro h
    cases h
  case case1 => exact ⟨Change.refuse, not_lost rfl, Or.inl rfl⟩
  case case2 => exact ⟨Change.refuse, not_lost rfl, Or.inl rfl⟩
  case case3 query payload reply hinvalid =>
    refine ⟨Change.refuse, ⟨fun hlost => absurd hlost Bool.false_ne_true, ?_⟩, Or.inl rfl⟩
    rintro ⟨invocation, hvalid, -⟩
    rw [hinvalid] at hvalid
    cases hvalid
  case case4 query payload invocation hvalid =>
    have heffect := begin_effect invocation payload.body shared
    refine ⟨heffect.change, heffect.lost_iff.trans ⟨fun h => ⟨invocation, hvalid, h⟩, ?_⟩,
      heffect.drops⟩
    rintro ⟨invocation', hvalid', hloses⟩
    rw [hvalid] at hvalid'
    cases hvalid'
    exact hloses
  case case5 call _ => exact waits_moves call shared rfl
  case case6 call _ _ => exact waits_moves call shared rfl
  case case7 call _ _ => exact unresolved_moves call shared
  case case8 call => exact waits_moves call shared rfl
  case case9 call items _ => exact resolvedPods_moves call shared _
  case case10 call _ => exact unresolved_moves call shared
  case case11 call items => exact resolvedPods_moves call shared _
  case case12 call _ => exact unresolved_moves call shared
  case case13 call _ => exact failWith_moves call shared (kept_unmarked shared) _ _
  case case14 call _ => exact lose_effect call shared
  case case15 call _ _ _ => exact failWith_moves call shared (kept_unmarked shared) _ _
  case case16 call _ _ _ _ _ => exact waits_moves call shared rfl
  case case17 call _ _ _ _ response => exact succeed_moves call shared response
  case case18 call _ _ _ _ => exact waits_moves call shared rfl
  case case19 call _ _ _ _ _ _ => exact waits_moves call shared rfl
  case case20 call _ attempts result => exact portForwarded_moves call shared attempts result

end Refinement

section Runs

variable {server : OpsServer} {s s' : State} {event : Event}

/-- An event that takes a call out without a mark. -/
def Loses (server : OpsServer) (s : State) : Event → Prop
  | .request _ _ => False
  | .resume i outcome =>
    ∃ stage, s.handlers[i]? = some stage ∧ LosesCall server s.shared stage outcome

/-- A resumed handler, with its stage before and after. -/
theorem next_resume {i : ℕ} {outcome : Outcome} (h : Step server s (.resume i outcome) s') :
    ∃ stage result, s.handlers[i]? = some stage ∧
      resume server s.shared stage outcome = some result ∧
        s' = ⟨result.1, s.handlers.set i result.2⟩ := by
  unfold Step next at h
  dsimp only at h
  cases hstage : s.handlers[i]? with
  | none =>
    rw [hstage] at h
    cases h
  | some stage =>
    rw [hstage] at h
    dsimp only at h
    cases hresult : resume server s.shared stage outcome with
    | none =>
      rw [hresult] at h
      cases h
    | some result =>
      rw [hresult] at h
      exact ⟨stage, result, rfl, hresult, (Option.some.inj h).symm⟩

theorem accept_unsettled (server : OpsServer) (method : Bytes) (query : Query) :
    (point (accept server method query)).unsettled = false := by
  unfold accept
  split
  · rfl
  · rfl

/-- Every event is a step of the guard. -/
theorem step_guard (h : Step server s event s') : KeyedGuards.Step (guard s) (guard s') := by
  cases event with
  | request method query =>
    cases Option.some.inj h
    have hstep := KeyedGuards.Step.arrive (guard s) (accept_unsettled server method query)
    have hguard : guard { s with handlers := s.handlers ++ [accept server method query] } =
        { guard s with points := (guard s).points ++ [point (accept server method query)] } := by
      simp only [guard, List.map_append, List.map_cons, List.map_nil]
    rw [hguard]
    exact hstep
  | resume i outcome =>
    obtain ⟨stage, result, hstage, hresult, rfl⟩ := next_resume h
    have hat : (guard s).points[i]? = some (point stage) := by
      rw [guard, List.getElem?_map, hstage, Option.map_some]
    have hstep := KeyedGuards.Step.change (guard s) hat (resume_effect hresult).change
    have hguard : guard ⟨result.1, s.handlers.set i result.2⟩ =
        ⟨ledger result.1, (guard s).points.set i (point result.2)⟩ := by
      simp only [guard, List.map_set]
    rw [hguard]
    exact hstep

/-- The locks and the accounts of the server are those of a guard. -/
theorem balanced_of_run {events : List Event} (h : Run (Step server) initial events s) :
    Balanced (guard s) := by
  refine h.invariant (I := fun s => Balanced (guard s)) ?_ fun s event s' hs hstep =>
    (step_guard hstep).balanced hs
  exact ⟨fun k => rfl, rfl⟩

/-- The calls that an exception took out unmarked. -/
def lostCount (s : State) : ℕ := (guard s).points.countP Point.isLost

/-- A handler that awaits something is not lost. -/
theorem awaiting_not_lost {shared : Shared} {stage : Stage} {outcome : Outcome}
    {result : Shared × Stage} (h : resume server shared stage outcome = some result) :
    (point stage).isLost = false := by
  cases stage with
  | threw locals => cases outcome <;> cases h
  | _ => rfl

/-- Exactly the losing events make one more lost call. -/
theorem step_lostCount (h : Step server s event s') :
    (Loses server s event → lostCount s' = lostCount s + 1) ∧
      (¬Loses server s event → lostCount s' = lostCount s) := by
  cases event with
  | request method query =>
    refine ⟨fun hloses => hloses.elim, fun _ => ?_⟩
    cases Option.some.inj h
    have hpoint : (point (accept server method query)).isLost = false := by
      unfold accept
      split
      · rfl
      · rfl
    simp only [lostCount, guard, List.map_append, List.map_cons, List.map_nil,
      List.countP_append, List.countP_singleton, hpoint, Bool.false_eq_true, if_false, Nat.add_zero]
  | resume i outcome =>
    obtain ⟨stage, result, hstage, hresult, rfl⟩ := next_resume h
    have hat : (guard s).points[i]? = some (point stage) := by
      rw [guard, List.getElem?_map, hstage, Option.map_some]
    have hcount := countP_set_add Point.isLost hat (point result.2)
    rw [awaiting_not_lost hresult, if_neg Bool.false_ne_true, Nat.add_zero] at hcount
    have hafter : lostCount ⟨result.1, s.handlers.set i result.2⟩ =
        ((guard s).points.set i (point result.2)).countP Point.isLost := by
      simp only [lostCount, guard, List.map_set]
    have hlost := (resume_effect hresult).lost_iff
    constructor
    · rintro ⟨stage', hstage', hloses⟩
      rw [hstage] at hstage'
      cases hstage'
      rw [hafter, hcount, if_pos (hlost.mpr hloses)]
      rfl
    · intro hkeeps
      have hnot : ¬(point result.2).isLost = true := fun h =>
        hkeeps ⟨stage, hstage, hlost.mp h⟩
      rw [hafter, hcount, if_neg hnot]
      rfl

/-- The steps by which no call is lost. -/
def KeepingStep (server : OpsServer) (s : State) (event : Event) (s' : State) : Prop :=
  Step server s event s' ∧ ¬Loses server s event

/-- No call is lost exactly if no event of the run loses one. -/
theorem lostCount_eq_zero_iff {events : List Event} (h : Run (Step server) initial events s) :
    lostCount s = 0 ↔ Run (KeepingStep server) initial events s := by
  constructor
  · intro hzero
    induction h with
    | start => exact Run.start
    | @next events s s' event hrun hstep ih =>
      obtain ⟨hloses, hkeeps⟩ := step_lostCount hstep
      by_cases hlost : Loses server s event
      · have hone := hloses hlost
        omega
      · exact (ih ((hkeeps hlost).symm.trans hzero)).next ⟨hstep, hlost⟩
  · intro hkeeping
    refine hkeeping.invariant (I := fun s => lostCount s = 0) rfl fun s event s' hs hstep => ?_
    rw [(step_lostCount hstep.1).2 hstep.2, hs]

end Runs

section Claims

variable (server : OpsServer) (s : State)

/-- The call of a handler past the lock. -/
def callOf : Stage → Option Call
  | .readJsonBody _ => none
  | .getDeployment call => some call
  | .getSelectedPods call => some call
  | .getAllPods call => some call
  | .getVisiblePods call => some call
  | .getService call _ => some call
  | .tryHttpCall call _ _ _ _ => some call
  | .tryPortForwardCall call _ _ => some call
  | .replied _ => none
  | .threw _ => none

/-- A long inference call is in progress with this key. -/
def LongCall (stage : Stage) (key : Bytes) : Prop :=
  ∃ call, callOf stage = some call ∧ call.longInferenceCall = true ∧ call.key = key

/-- At most one long inference call is in progress for a key. -/
def Exclusive : Prop :=
  ∀ (i j : ℕ) (stage stage' : Stage) (key : Bytes), s.handlers[i]? = some stage → s.handlers[j]? = some stage' →
    LongCall stage key → LongCall stage' key → i = j

/-- The lock of a long call in progress is in the map, whatever came between. -/
def Locked : Prop :=
  ∀ stage ∈ s.handlers, ∀ key, LongCall stage key → key ∈ s.shared.inFlightInvokes

/-- A call that is dropped leaves the map as it is. -/
def DropsKeepLocks : Prop :=
  ∀ event s', Step server s event s' →
    s'.shared.droppedInFlight = s.shared.droppedInFlight + 1 →
      s'.shared.inFlightInvokes = s.shared.inFlightInvokes

def inProgress : Stage → Bool
  | .replied _ => false
  | .threw _ => false
  | _ => true

/-- No invoke is in progress. -/
def Quiescent : Prop := ∀ stage ∈ s.handlers, inProgress stage = false

/-- The map is empty and every counted call has its outcome. -/
def Even : Prop :=
  s.shared.inFlightInvokes = ∅ ∧ s.shared.totalInvokes =
    s.shared.successfulInvokes + s.shared.failedInvokes + s.shared.droppedInFlight

variable {s}

/-- A handler with a call is at work in the guard, with the key of the call. -/
theorem point_of_callOf {stage : Stage} {call : Call} (h : callOf stage = some call) :
    point stage = .working call.lockKey := by
  cases stage with
  | readJsonBody query => cases h
  | replied reply => cases h
  | threw locals => cases h
  | _ =>
    cases h
    rfl

theorem LongCall.holds {stage : Stage} {key : Bytes} (h : LongCall stage key) :
    (point stage).holds key = true := by
  obtain ⟨call, hcall, hlong, hkey⟩ := h
  have hlock : call.lockKey = some key := by rw [Invocation.lockKey, if_pos hlong, hkey]
  rw [point_of_callOf hcall, hlock]
  exact decide_eq_true rfl

/-- Where no invoke is in progress, a call without an outcome is lost. -/
theorem isLost_of_quiescent (h : Quiescent s) :
    ∀ p ∈ (guard s).points, p.unsettled = true → p.isLost = true := by
  intro p hp hunsettled
  obtain ⟨stage, hstage, rfl⟩ := List.mem_map.mp hp
  have hended := h stage hstage
  cases stage with
  | replied reply => cases hunsettled
  | threw locals =>
    cases locals with
    | none => cases hunsettled
    | some locals =>
      have hpoint : point (.threw (some locals)) =
          if locals.runtimeTerminalMarked then .closed else .lost locals.lockKey := rfl
      rw [hpoint] at hunsettled ⊢
      split at hunsettled
      · cases hunsettled
      · next hmarked =>
        rw [if_neg hmarked]
        rfl
  | _ => cases hended

theorem Balanced.exclusive_calls (h : Balanced (guard s)) : Exclusive s := by
  intro i j stage stage' key hi hj hcall hcall'
  have hpoint : ∀ {k : ℕ} {stage : Stage}, s.handlers[k]? = some stage →
      (guard s).points[k]? = some (point stage) := by
    intro k stage hk
    rw [guard, List.getElem?_map, hk, Option.map_some]
  exact h.exclusive (hpoint hi) (hpoint hj) hcall.holds hcall'.holds

theorem Balanced.locked_calls (h : Balanced (guard s)) : Locked s := by
  intro stage hstage key hcall
  exact h.mem_keys (List.mem_map_of_mem hstage) hcall.holds

/-- Only the drop of a call raises the count of the dropped. -/
theorem dropsKeepLocks (server : OpsServer) (s : State) : DropsKeepLocks server s := by
  intro event s' hstep hdropped
  cases event with
  | request method query =>
    cases Option.some.inj hstep
    rfl
  | resume i outcome =>
    obtain ⟨stage, result, -, hresult, rfl⟩ := next_resume hstep
    cases (resume_effect hresult).drops with
    | inl hsame =>
      have hfalse : s.shared.droppedInFlight + 1 = s.shared.droppedInFlight :=
        hdropped.symm.trans hsame
      omega
    | inr hlocks => exact hlocks

/-- In every run, a lock is with one long call at most and stays with it, drops
leave the locks alone, and a server at rest is even exactly if no event of the
run lost a call. -/
theorem even_iff_keeping {server : OpsServer} {s : State} {events : List Event}
    (h : Run (Step server) initial events s) :
    Exclusive s ∧ Locked s ∧ DropsKeepLocks server s ∧
      (Quiescent s → (Even s ↔ Run (KeepingStep server) initial events s)) := by
  have hbalanced := balanced_of_run h
  refine ⟨Balanced.exclusive_calls hbalanced, Balanced.locked_calls hbalanced,
    dropsKeepLocks server s, fun hrest => ?_⟩
  have heven : Even s ↔ lostCount s = 0 := hbalanced.even_iff (isLost_of_quiescent hrest)
  exact heven.trans (lostCount_eq_zero_iff h)

/-- An invoke of the gateway that finds no pod, and then cannot list the pods. -/
def noPodEvents : List Event :=
  [.request (ascii "POST") ⟨[], [], []⟩,
    .resume 0 (.body (.ok (some ⟨none, none, none, none, none, none, .undefined⟩))),
    .resume 0 (.deployment (.ok ())),
    .resume 0 (.pods (.ok [])),
    .resume 0 (.pods (.ok [])),
    .resume 0 (.pods (.error (ascii "connection refused")))]

/-- The call is counted and never gets an outcome. -/
theorem no_pod_not_even : ∃ s, Run (Step opsServer) initial noPodEvents s ∧
    Quiescent s ∧ ¬Even s := by
  have hview : ((noPodEvents.foldlM (next opsServer) initial).map fun s =>
      (s.shared.totalInvokes, s.shared.successfulInvokes + s.shared.failedInvokes +
        s.shared.droppedInFlight, s.handlers.all fun stage => !inProgress stage)) =
      some (1, 0, true) := by
    decide +kernel
  obtain ⟨s, hs, hparts⟩ := Option.map_eq_some_iff.mp hview
  obtain ⟨htotal, hrest⟩ := Prod.mk.inj hparts
  obtain ⟨hsettled, hended⟩ := Prod.mk.inj hrest
  refine ⟨s, Run.of_foldlM hs, fun stage hstage => ?_, fun heven => ?_⟩
  · have hnot := List.all_eq_true.mp hended stage hstage
    rw [Bool.not_eq_true'] at hnot
    exact hnot
  · rw [Even, htotal, hsettled] at heven
    exact absurd heven.2 (by decide)

/-- An invoke whose body cannot be read. -/
def refusedEvents : List Event :=
  [.request (ascii "POST") ⟨[], [], []⟩,
    .resume 0 (.body (.error (ascii "Invalid JSON body")))]

theorem even_iff_keeping_refused : ∃ s, Run (Step opsServer) initial refusedEvents s ∧ Even s ∧
    Run (KeepingStep opsServer) initial refusedEvents s := by
  have hview : refusedEvents.foldlM (next opsServer) initial =
      some ⟨initial.shared, [.replied ⟨400, ascii "Invalid JSON body"⟩]⟩ := rfl
  have hrun : Run (Step opsServer) initial refusedEvents _ := Run.of_foldlM hview
  have hquiet : Quiescent ⟨initial.shared, [.replied ⟨400, ascii "Invalid JSON body"⟩]⟩ := by
    intro stage hstage
    rw [List.mem_singleton.mp hstage]
    rfl
  exact ⟨_, hrun, ⟨rfl, rfl⟩, ((even_iff_keeping hrun).2.2.2 hquiet).mp ⟨rfl, rfl⟩⟩

end Claims

end LayerInference.InvokeAccounting
