import LayerInference.FallibleRuns
import LayerInference.HttpMessages
import LayerInference.Runs
import Mathlib.Tactic.IntervalCases

/-!
# The forward broker

A native stage runs its frames on one worker thread behind a bounded queue.
Members are initialised in declaration order, and the thread is declared
before the flag that its wait condition reads. If every early read of the flag
sees it cleared, each submission has exactly one outcome: it is rejected at
once, or its job runs in its turn and the worker leaves only behind the last
one. The flag holds an arbitrary value until then; set, it makes the worker
leave before the first submission.
-/

namespace LayerInference.ForwardBroker

open ByteStrings FallibleRuns JsonText HttpMessages Runs

variable {σ : Type}

/-- The members in the order of their declarations. -/
inductive Member where
  | config
  | runtime
  | maxQueueSize
  | mutex
  | cv
  | queue
  | worker
  | stopRequested
  deriving DecidableEq

def declarationOrder : List Member :=
  [.config, .runtime, .maxQueueSize, .mutex, .cv, .queue, .worker, .stopRequested]

/-- A job, with the number of the submission that holds its future. -/
structure ForwardJob where
  promise : ℕ
  request : HttpRequest
  deriving DecidableEq

inductive WorkerState where
  /-- The thread does not run yet. -/
  | absent
  /-- About to lock the mutex and evaluate the wait condition. -/
  | checking
  /-- Blocked on the condition variable. -/
  | waiting
  | executing (job : ForwardJob)
  /-- Left its loop. -/
  | finished
  deriving DecidableEq

/-- The broker with the runtime it serves. The fields from `submitted` on are
not stored: they record what happened. -/
structure BrokerState (σ : Type) where
  /-- The number of members initialised so far. -/
  initialised : ℕ
  runtime : σ
  maxQueueSize : ℤ
  queue : List ForwardJob
  worker : WorkerState
  stopRequested : Bool
  /-- Notifications of the condition variable that were not given yet. -/
  notifications : ℕ
  submitted : ℕ
  accepted : List ForwardJob
  stopCalled : Bool
  /-- The values that the promise of each submission was given. -/
  outcomes : ℕ → List HttpResponse

def stoppingResponse : HttpResponse :=
  makeJsonResponse 503 (ascii "Service Unavailable")
    (httpErrorJson (ascii "native forward broker is stopping"))

def queueFullResponse : HttpResponse :=
  makeJsonResponse 429 (ascii "Too Many Requests")
    (httpErrorJson (ascii "native forward queue is full"))

/-- The handler of a frame; it may throw, with a message if the exception has
one. -/
abbrev Handler (σ : Type) := HttpRequest → EStateM (Option Bytes) σ HttpResponse

/-- The response that a job is given, whatever its handler does. -/
def execute (handleForwardBinary : Handler σ) (request : HttpRequest) (runtime : σ) :
    HttpResponse × σ :=
  match handleForwardBinary request runtime with
  | .ok response runtime => (response, runtime)
  | .error message runtime =>
    (makeJsonResponse 500 (ascii "Internal Server Error")
      (httpErrorJson (message.getD (ascii "unknown native forward broker failure"))), runtime)

namespace BrokerState

/-- The constructor is done. -/
def Constructed (s : BrokerState σ) : Prop := s.initialised = declarationOrder.length

/-- Memory before the constructor runs: arbitrary values, and no thread. -/
structure Raw (s : BrokerState σ) : Prop where
  initialised : s.initialised = 0
  worker : s.worker = .absent
  notifications : s.notifications = 0
  submitted : s.submitted = 0
  accepted : s.accepted = []
  stopCalled : s.stopCalled = false
  outcomes : s.outcomes = fun _ => []

/-- Give a value to a promise. -/
def setValue (s : BrokerState σ) (promise : ℕ) (response : HttpResponse) : BrokerState σ :=
  { s with outcomes := Function.update s.outcomes promise (s.outcomes promise ++ [response]) }

/-- Run the initialiser of a member; the worker starts with its thread. -/
def initialise (limit : ℤ) (member : Member) (s : BrokerState σ) : BrokerState σ :=
  let s := { s with initialised := s.initialised + 1 }
  match member with
  | .maxQueueSize => { s with maxQueueSize := max 1 limit }
  | .queue => { s with queue := [] }
  | .worker => { s with worker := .checking }
  | .stopRequested => { s with stopRequested := false }
  | _ => s

/-- The locked block of `submit`. The size of the queue is compared with a
positive `int`, so the conversion of the source changes nothing. -/
def submit (request : HttpRequest) (s : BrokerState σ) : BrokerState σ :=
  let job : ForwardJob := ⟨s.submitted, request⟩
  let s := { s with submitted := s.submitted + 1 }
  if s.stopRequested then s.setValue job.promise stoppingResponse
  else if (s.queue.length : ℤ) ≥ s.maxQueueSize then s.setValue job.promise queueFullResponse
  else
    { s with
      queue := s.queue ++ [job]
      accepted := s.accepted ++ [job]
      notifications := s.notifications + 1 }

/-- The locked block of the worker. -/
def workerCheck (s : BrokerState σ) : BrokerState σ :=
  if s.stopRequested || !s.queue.isEmpty then
    match s.queue with
    | [] => { s with worker := .finished }
    | job :: rest => { s with worker := .executing job, queue := rest }
  else { s with worker := .waiting }

/-- Run a job and give its response to its promise. -/
def workerComplete (handleForwardBinary : Handler σ) (job : ForwardJob) (s : BrokerState σ) :
    BrokerState σ :=
  let result := execute handleForwardBinary job.request s.runtime
  { s with runtime := result.2, worker := .checking }.setValue job.promise result.1

/-- Wake the worker if it is blocked. -/
def wakeWorker (s : BrokerState σ) : BrokerState σ :=
  { s with worker := if s.worker = .waiting then .checking else s.worker }

/-- The locked block of `stop`. -/
def stop (s : BrokerState σ) : BrokerState σ :=
  if s.stopRequested then { s with stopCalled := true }
  else { s with stopRequested := true, stopCalled := true, notifications := s.notifications + 1 }

end BrokerState

/-- What happens next: in the constructor, in a caller or in the worker. -/
inductive BrokerEvent where
  | init
  | submit (request : HttpRequest)
  | notify
  | wake
  | check
  | complete
  | stop
  deriving DecidableEq

open BrokerState in
/-- One step of the constructor, of a caller or of the worker. The condition
variable may wake its waiter without a notification. -/
inductive BrokerStep (handleForwardBinary : Handler σ) (limit : ℤ) :
    BrokerState σ → BrokerEvent → BrokerState σ → Prop where
  | init {s : BrokerState σ} {member : Member} :
      declarationOrder[s.initialised]? = some member →
      BrokerStep handleForwardBinary limit s .init (s.initialise limit member)
  | submit {s : BrokerState σ} (request : HttpRequest) : s.Constructed →
      BrokerStep handleForwardBinary limit s (.submit request) (s.submit request)
  | notify {s : BrokerState σ} : 0 < s.notifications →
      BrokerStep handleForwardBinary limit s .notify
        { s with notifications := s.notifications - 1 }.wakeWorker
  | wake {s : BrokerState σ} : s.worker = .waiting →
      BrokerStep handleForwardBinary limit s .wake s.wakeWorker
  | check {s : BrokerState σ} : s.worker = .checking →
      BrokerStep handleForwardBinary limit s .check s.workerCheck
  | complete {s : BrokerState σ} {job : ForwardJob} : s.worker = .executing job →
      BrokerStep handleForwardBinary limit s .complete (s.workerComplete handleForwardBinary job)
  | stop {s : BrokerState σ} : s.Constructed → BrokerStep handleForwardBinary limit s .stop s.stop

/-- If the worker looks at its wait condition before the flag is initialised,
the flag happens to be cleared. -/
def SeesFlagCleared (s : BrokerState σ) (event : BrokerEvent) : Prop :=
  event = .check → ¬s.Constructed → s.stopRequested = false

/-- A step with this condition. -/
def TimelyStep (handleForwardBinary : Handler σ) (limit : ℤ) (s : BrokerState σ)
    (event : BrokerEvent) (s' : BrokerState σ) : Prop :=
  BrokerStep handleForwardBinary limit s event s' ∧ SeesFlagCleared s event

/-- The job that the worker has taken off the queue. -/
def WorkerState.running : WorkerState → List ForwardJob
  | .executing job => [job]
  | _ => []

/-- Run jobs one after the other: the response of each, and the final runtime. -/
def serveAll (handleForwardBinary : Handler σ) :
    List ForwardJob → σ → List (ℕ × HttpResponse) × σ
  | [], runtime => ([], runtime)
  | job :: jobs, runtime =>
    let result := execute handleForwardBinary job.request runtime
    let rest := serveAll handleForwardBinary jobs result.2
    ((job.promise, result.1) :: rest.1, rest.2)

/-- The accepted jobs are the finished ones, the one that runs and the queue,
in this order. Each finished job has the response of a run in this order, and
no other has any. -/
def JobsInOrder (handleForwardBinary : Handler σ) (runtime : σ) (s : BrokerState σ) : Prop :=
  ∃ done, s.accepted = done ++ (s.worker.running ++ s.queue) ∧
    (serveAll handleForwardBinary done runtime).2 = s.runtime ∧
    (∀ answer ∈ (serveAll handleForwardBinary done runtime).1,
      s.outcomes answer.1 = [answer.2]) ∧
    ∀ job ∈ s.worker.running ++ s.queue, s.outcomes job.promise = []

/-- A submission that was turned away. -/
def Rejected (s : BrokerState σ) (promise : ℕ) : Prop :=
  s.outcomes promise = [stoppingResponse] ∨ s.outcomes promise = [queueFullResponse]

/-- The broker under construction. -/
structure Building (limit : ℤ) (runtime : σ) (s : BrokerState σ) : Prop where
  size : 2 < s.initialised → s.maxQueueSize = max 1 limit
  queue : 5 < s.initialised → s.queue = []
  worker : (s.initialised ≤ 6 ∧ s.worker = .absent) ∨
    (s.initialised = 7 ∧ (s.worker = .checking ∨ s.worker = .waiting))
  served : s.runtime = runtime
  notifications : s.notifications = 0
  submitted : s.submitted = 0
  accepted : s.accepted = []
  stopCalled : s.stopCalled = false
  outcomes : s.outcomes = fun _ => []

/-- The invariant of a constructed broker. -/
structure Consistent (handleForwardBinary : Handler σ) (limit : ℤ) (runtime : σ)
    (s : BrokerState σ) : Prop where
  constructed : s.Constructed
  size : s.maxQueueSize = max 1 limit
  flag : s.stopRequested = s.stopCalled
  capacity : (s.queue.length : ℤ) ≤ max 1 limit
  started : s.worker ≠ .absent
  jobs : JobsInOrder handleForwardBinary runtime s
  ordered : s.accepted.Pairwise fun a b => a.promise < b.promise
  issued : ∀ job ∈ s.accepted, job.promise < s.submitted
  rejected : ∀ promise < s.submitted, (∀ job ∈ s.accepted, job.promise ≠ promise) →
    Rejected s promise
  unissued : ∀ promise, s.submitted ≤ promise → s.outcomes promise = []
  left : s.worker = .finished → s.stopCalled = true ∧ s.queue = []
  awake : s.worker = .waiting → s.queue ≠ [] ∨ s.stopCalled = true → 0 < s.notifications

variable {handleForwardBinary : Handler σ} {limit : ℤ} {runtime : σ} {s s' : BrokerState σ}

theorem serveAll_append (done : List ForwardJob) (job : ForwardJob) (runtime : σ) :
    serveAll handleForwardBinary (done ++ [job]) runtime =
      ((serveAll handleForwardBinary done runtime).1 ++ [(job.promise,
          (execute handleForwardBinary job.request
            (serveAll handleForwardBinary done runtime).2).1)],
        (execute handleForwardBinary job.request
          (serveAll handleForwardBinary done runtime).2).2) := by
  induction done generalizing runtime with
  | nil => rfl
  | cons first done ih => simp only [List.cons_append, serveAll, ih]

/-- The responses belong to the jobs that were run. -/
theorem serveAll_promise {done : List ForwardJob} {runtime : σ} {answer : ℕ × HttpResponse}
    (h : answer ∈ (serveAll handleForwardBinary done runtime).1) :
    ∃ job ∈ done, job.promise = answer.1 := by
  induction done generalizing runtime with
  | nil => cases h
  | cons first done ih =>
    rcases List.mem_cons.mp h with rfl | h
    · exact ⟨first, List.mem_cons_self, rfl⟩
    · obtain ⟨job, hjob, heq⟩ := ih h
      exact ⟨job, List.mem_cons_of_mem _ hjob, heq⟩

section Check

theorem workerCheck_take {job : ForwardJob} {rest : List ForwardJob} (h : s.queue = job :: rest) :
    s.workerCheck = { s with worker := .executing job, queue := rest } := by
  simp [BrokerState.workerCheck, h]

theorem workerCheck_leave (h : s.queue = []) (hflag : s.stopRequested = true) :
    s.workerCheck = { s with worker := .finished } := by
  simp [BrokerState.workerCheck, h, hflag]

theorem workerCheck_wait (h : s.queue = []) (hflag : s.stopRequested = false) :
    s.workerCheck = { s with worker := .waiting } := by
  simp [BrokerState.workerCheck, h, hflag]

end Check

section Construction

/-- With its last member the broker is an empty one. -/
theorem Building.consistent (h : Building limit runtime s) (hseven : s.initialised = 7)
    (hworker : s.worker = .checking ∨ s.worker = .waiting) :
    Consistent handleForwardBinary limit runtime (s.initialise limit .stopRequested) := by
  have hqueue : s.queue = [] := h.queue (by omega)
  have hrunning : s.worker.running = [] := by
    rcases hworker with hw | hw <;> rw [hw] <;> rfl
  refine
    { constructed := congrArg (· + 1) hseven
      size := h.size (by omega)
      flag := h.stopCalled.symm
      capacity := ?_
      started := ?_
      jobs := ⟨[], ?_, h.served.symm, fun _ hanswer => absurd hanswer List.not_mem_nil, ?_⟩
      ordered := ?_
      issued := ?_
      rejected := ?_
      unissued := fun _ _ => congrFun h.outcomes _
      left := ?_
      awake := ?_ }
  · change (s.queue.length : ℤ) ≤ _
    rw [hqueue]
    exact le_trans Int.one_nonneg (le_max_left 1 limit)
  · change s.worker ≠ .absent
    rcases hworker with hw | hw <;> rw [hw] <;> exact fun heq => by cases heq
  · change s.accepted = [] ++ (s.worker.running ++ s.queue)
    rw [h.accepted, hrunning, hqueue]
    rfl
  · intro job hjob
    change job ∈ s.worker.running ++ s.queue at hjob
    rw [hrunning, hqueue] at hjob
    cases hjob
  · change s.accepted.Pairwise _
    rw [h.accepted]
    exact .nil
  · intro job hjob
    change job ∈ s.accepted at hjob
    rw [h.accepted] at hjob
    cases hjob
  · intro promise hpromise
    change promise < s.submitted at hpromise
    rw [h.submitted] at hpromise
    exact absurd hpromise (Nat.not_lt_zero _)
  · intro hfinished
    change s.worker = .finished at hfinished
    rcases hworker with hw | hw <;> rw [hw] at hfinished <;> cases hfinished
  · rintro - (hne | hcalled)
    · exact absurd hqueue hne
    · change s.stopCalled = true at hcalled
      rw [h.stopCalled] at hcalled
      cases hcalled

/-- The constructor, and a worker that already runs, keep the picture of an
empty broker until all members are there. -/
theorem building_step (h : Building limit runtime s) {event : BrokerEvent}
    (hstep : TimelyStep handleForwardBinary limit s event s') :
    Building limit runtime s' ∨ Consistent handleForwardBinary limit runtime s' := by
  obtain ⟨hstep, hcleared⟩ := hstep
  have hsmall : s.initialised < declarationOrder.length := by
    rcases h.worker with hw | hw
    · exact Nat.lt_succ_of_lt (Nat.lt_succ_of_le hw.1)
    · rw [hw.1]
      decide
  cases hstep with
  | @init member hmember =>
    rcases h.worker with ⟨hle, hw⟩ | ⟨hseven, hw⟩
    · left
      obtain ⟨n, hn⟩ : ∃ n, s.initialised = n := ⟨_, rfl⟩
      rw [hn] at hmember hle
      -- one case for each member before the flag
      interval_cases n <;> cases hmember <;>
        refine
          { size := fun hlt => ?_
            queue := fun hlt => ?_
            worker := ?_
            served := h.served
            notifications := h.notifications
            submitted := h.submitted
            accepted := h.accepted
            stopCalled := h.stopCalled
            outcomes := h.outcomes }
      all_goals first
        | rfl
        | exact h.size (by have hlt' : 2 < s.initialised + 1 := hlt; omega)
        | exact h.queue (by have hlt' : 5 < s.initialised + 1 := hlt; omega)
        | exact .inl ⟨show s.initialised + 1 ≤ 6 by omega, hw⟩
        | exact .inr ⟨show s.initialised + 1 = 7 by omega, .inl rfl⟩
    · right
      rw [hseven] at hmember
      cases hmember
      exact h.consistent hseven hw
  | submit request hconstructed => exact absurd hconstructed hsmall.ne
  | notify hpos =>
    rw [h.notifications] at hpos
    exact absurd hpos (lt_irrefl 0)
  | wake hwaiting =>
    left
    rcases h.worker with ⟨-, hw⟩ | ⟨hseven, -⟩
    · rw [hwaiting] at hw
      cases hw
    · exact { h with worker := .inr ⟨hseven, .inl (if_pos hwaiting)⟩ }
  | check hchecking =>
    left
    rcases h.worker with ⟨-, hw⟩ | ⟨hseven, -⟩
    · rw [hchecking] at hw
      cases hw
    · rw [workerCheck_wait (h.queue (by omega)) (hcleared rfl hsmall.ne)]
      exact { h with worker := .inr ⟨hseven, .inr rfl⟩ }
  | @complete job hexecuting =>
    rcases h.worker with ⟨-, hw⟩ | ⟨-, hw | hw⟩ <;>
    · rw [hexecuting] at hw
      cases hw
  | stop hconstructed => exact absurd hconstructed hsmall.ne

end Construction

section Operation

theorem setValue_self (s : BrokerState σ) (promise : ℕ) (response : HttpResponse) :
    (s.setValue promise response).outcomes promise = s.outcomes promise ++ [response] :=
  Function.update_self _ _ _

theorem setValue_other (s : BrokerState σ) {promise other : ℕ} (response : HttpResponse)
    (h : other ≠ promise) : (s.setValue promise response).outcomes other = s.outcomes other :=
  Function.update_of_ne h _ _

/-- No two accepted jobs share a promise. -/
theorem promise_inj {accepted : List ForwardJob}
    (h : accepted.Pairwise fun a b => a.promise < b.promise) {first last : List ForwardJob}
    (hsplit : accepted = first ++ last) {a b : ForwardJob} (ha : a ∈ first) (hb : b ∈ last) :
    a.promise ≠ b.promise := by
  subst hsplit
  exact (List.pairwise_append.mp h).2.2 a ha b hb |>.ne

/-- Turning a submission away gives its promise one value. -/
theorem Consistent.reject (h : Consistent handleForwardBinary limit runtime s)
    {response : HttpResponse}
    (hresponse : response = stoppingResponse ∨ response = queueFullResponse) :
    Consistent handleForwardBinary limit runtime
      ({ s with submitted := s.submitted + 1 }.setValue s.submitted response) := by
  have hnew : ({ s with submitted := s.submitted + 1 }.setValue s.submitted response).outcomes
      s.submitted = [response] := by
    rw [setValue_self]
    change s.outcomes s.submitted ++ [response] = _
    rw [h.unissued _ le_rfl, List.nil_append]
  have hold {promise : ℕ} (hne : promise ≠ s.submitted) :
      ({ s with submitted := s.submitted + 1 }.setValue s.submitted response).outcomes promise =
        s.outcomes promise := setValue_other _ _ hne
  obtain ⟨done, haccepted, hruntime, hanswers, hpending⟩ := h.jobs
  refine
    { h with
      jobs := ⟨done, haccepted, hruntime, fun answer hanswer => ?_, fun job hjob => ?_⟩
      issued := fun job hjob => Nat.lt_succ_of_lt (h.issued job hjob)
      rejected := fun promise hpromise hnot => ?_
      unissued := fun promise hpromise => ?_ }
  · obtain ⟨job, hjob, heq⟩ := serveAll_promise hanswer
    have hlt := h.issued job (haccepted ▸ List.mem_append_left _ hjob)
    rw [hold (by omega)]
    exact hanswers answer hanswer
  · have hlt := h.issued job (haccepted ▸ List.mem_append_right _ hjob)
    rw [hold (by omega)]
    exact hpending job hjob
  · change promise < s.submitted + 1 at hpromise
    by_cases heq : promise = s.submitted
    · subst heq
      unfold Rejected
      rw [hnew]
      rcases hresponse with rfl | rfl
      · exact .inl rfl
      · exact .inr rfl
    · unfold Rejected
      rw [hold heq]
      exact h.rejected promise (by omega) hnot
  · change s.submitted + 1 ≤ promise at hpromise
    rw [hold (by omega)]
    exact h.unissued promise (by omega)

/-- A submission that is accepted waits behind all others. -/
theorem Consistent.accept (h : Consistent handleForwardBinary limit runtime s)
    (request : HttpRequest) (hopen : s.stopRequested = false)
    (hroom : (s.queue.length : ℤ) < s.maxQueueSize) :
    Consistent handleForwardBinary limit runtime
      { s with
        submitted := s.submitted + 1
        queue := s.queue ++ [⟨s.submitted, request⟩]
        accepted := s.accepted ++ [⟨s.submitted, request⟩]
        notifications := s.notifications + 1 } := by
  obtain ⟨done, haccepted, hruntime, hanswers, hpending⟩ := h.jobs
  refine
    { h with
      capacity := ?_
      jobs := ⟨done, ?_, hruntime, hanswers, fun job hjob => ?_⟩
      ordered := ?_
      issued := fun job hjob => ?_
      rejected := fun promise hpromise hnot => ?_
      unissued := fun promise hpromise => ?_
      left := ?_
      awake := fun _ _ => Nat.succ_pos _ }
  · rw [h.size] at hroom
    simp only [List.length_append, List.length_singleton]
    push_cast
    omega
  · simp only [haccepted, List.append_assoc]
  · simp only [List.mem_append, List.mem_singleton] at hjob
    rcases hjob with hjob | hjob | rfl
    · exact hpending job (List.mem_append_left _ hjob)
    · exact hpending job (List.mem_append_right _ hjob)
    · exact h.unissued _ le_rfl
  · refine List.pairwise_append.mpr ⟨h.ordered, List.pairwise_singleton _ _, ?_⟩
    intro a ha b hb
    rw [List.mem_singleton.mp hb]
    exact h.issued a ha
  · simp only [List.mem_append, List.mem_singleton] at hjob
    rcases hjob with hjob | rfl
    · exact Nat.lt_succ_of_lt (h.issued job hjob)
    · exact Nat.lt_succ_self _
  · simp only [List.mem_append, List.mem_singleton] at hnot
    have hne : s.submitted ≠ promise := hnot _ (.inr rfl)
    change promise < s.submitted + 1 at hpromise
    exact h.rejected promise (by omega) fun job hjob => hnot job (.inl hjob)
  · change s.submitted + 1 ≤ promise at hpromise
    exact h.unissued promise (by omega)
  · intro hfinished
    rw [h.flag, (h.left hfinished).1] at hopen
    cases hopen

theorem Consistent.submit (h : Consistent handleForwardBinary limit runtime s)
    (request : HttpRequest) : Consistent handleForwardBinary limit runtime (s.submit request) := by
  unfold BrokerState.submit
  dsimp only
  split
  · exact h.reject (.inl rfl)
  · next hopen =>
    split
    · exact h.reject (.inr rfl)
    · next hroom => exact h.accept request (Bool.eq_false_of_not_eq_true hopen) (lt_of_not_ge hroom)

/-- The worker takes the first job, leaves, or blocks. -/
theorem Consistent.check (h : Consistent handleForwardBinary limit runtime s)
    (hchecking : s.worker = .checking) :
    Consistent handleForwardBinary limit runtime s.workerCheck := by
  obtain ⟨done, haccepted, hruntime, hanswers, hpending⟩ := h.jobs
  have hnone : s.worker.running = [] := by
    rw [hchecking]
    rfl
  rw [hnone, List.nil_append] at haccepted hpending
  cases hqueue : s.queue with
  | nil =>
    cases hflag : s.stopRequested with
    | true =>
      rw [workerCheck_leave hqueue hflag]
      exact
        { h with
          started := fun heq => by cases heq
          jobs := ⟨done, haccepted, hruntime, hanswers, hpending⟩
          left := fun _ => ⟨h.flag ▸ hflag, hqueue⟩
          awake := fun heq => by cases heq }
    | false =>
      rw [workerCheck_wait hqueue hflag]
      refine
        { h with
          started := fun heq => by cases heq
          jobs := ⟨done, haccepted, hruntime, hanswers, hpending⟩
          left := fun heq => by cases heq
          awake := ?_ }
      rintro - (hne | hcalled)
      · exact absurd hqueue hne
      · rw [h.flag] at hflag
        rw [hflag] at hcalled
        cases hcalled
  | cons job rest =>
    rw [workerCheck_take hqueue]
    rw [hqueue] at haccepted hpending
    have hcapacity : (rest.length : ℤ) ≤ max 1 limit := by
      have hbound := h.capacity
      rw [hqueue, List.length_cons] at hbound
      push_cast at hbound
      omega
    exact
      { h with
        capacity := hcapacity
        started := fun heq => by cases heq
        jobs := ⟨done, haccepted, hruntime, hanswers, hpending⟩
        left := fun heq => by cases heq
        awake := fun heq => by cases heq }

/-- The job that ran joins the finished ones. -/
theorem Consistent.complete (h : Consistent handleForwardBinary limit runtime s)
    {job : ForwardJob} (hexecuting : s.worker = .executing job) :
    Consistent handleForwardBinary limit runtime (s.workerComplete handleForwardBinary job) := by
  obtain ⟨done, haccepted, hruntime, hanswers, hpending⟩ := h.jobs
  have hone : s.worker.running = [job] := by
    rw [hexecuting]
    rfl
  rw [hone] at haccepted hpending
  have hhead : job ∈ [job] ++ s.queue := List.mem_append_left _ (List.mem_singleton_self job)
  have hjob : job ∈ s.accepted := haccepted ▸ List.mem_append_right _ hhead
  have hqueued {other : ForwardJob} (hother : other ∈ s.queue) : other.promise ≠ job.promise := by
    have hsplit : s.accepted = (done ++ [job]) ++ s.queue := by
      rw [haccepted, List.append_assoc]
    exact (promise_inj h.ordered hsplit
      (List.mem_append_right _ (List.mem_singleton_self job)) hother).symm
  refine
    { h with
      started := fun heq => by cases heq
      jobs := ⟨done ++ [job], ?_, ?_, fun answer hanswer => ?_, fun other hother => ?_⟩
      rejected := fun promise hpromise hnot => ?_
      unissued := fun promise hpromise => ?_
      left := fun heq => by cases heq
      awake := fun heq => by cases heq }
  · change s.accepted = done ++ [job] ++ ([] ++ s.queue)
    rw [haccepted, List.append_assoc, List.nil_append]
  · rw [serveAll_append, hruntime]
    rfl
  · rw [serveAll_append, hruntime] at hanswer
    rcases List.mem_append.mp hanswer with hbefore | hlast
    · obtain ⟨earlier, hearlier, heq⟩ := serveAll_promise hbefore
      have hne := promise_inj h.ordered haccepted hearlier hhead
      rw [BrokerState.workerComplete, setValue_other _ _ (heq ▸ hne)]
      exact hanswers answer hbefore
    · rw [List.mem_singleton.mp hlast, BrokerState.workerComplete, setValue_self]
      change s.outcomes job.promise ++ _ = _
      rw [hpending job hhead, List.nil_append]
  · change other ∈ [] ++ s.queue at hother
    rw [List.nil_append] at hother
    rw [BrokerState.workerComplete, setValue_other _ _ (hqueued hother)]
    exact hpending other (List.mem_append_right _ hother)
  · change ∀ job ∈ s.accepted, job.promise ≠ promise at hnot
    unfold Rejected
    rw [BrokerState.workerComplete, setValue_other _ _ (hnot job hjob).symm]
    exact h.rejected promise hpromise hnot
  · change s.submitted ≤ promise at hpromise
    have hlt := h.issued job hjob
    rw [BrokerState.workerComplete, setValue_other _ _ (by omega)]
    exact h.unissued promise hpromise

/-- A woken worker looks at the queue again. -/
theorem Consistent.wake (h : Consistent handleForwardBinary limit runtime s)
    (notifications : ℕ) :
    Consistent handleForwardBinary limit runtime
      { s with notifications := notifications }.wakeWorker := by
  unfold BrokerState.wakeWorker
  dsimp only
  by_cases hwaiting : s.worker = .waiting
  · rw [if_pos hwaiting]
    have hjobs := h.jobs
    unfold JobsInOrder at hjobs
    rw [hwaiting] at hjobs
    exact
      { h with
        started := fun heq => by cases heq
        jobs := hjobs
        left := fun heq => by cases heq
        awake := fun heq => by cases heq }
  · rw [if_neg hwaiting]
    exact { h with awake := fun heq => absurd heq hwaiting }

theorem Consistent.stop (h : Consistent handleForwardBinary limit runtime s) :
    Consistent handleForwardBinary limit runtime s.stop := by
  unfold BrokerState.stop
  split
  · next hflag =>
    have hcalled : s.stopCalled = true := h.flag ▸ hflag
    exact
      { h with
        flag := hflag
        left := fun heq => ⟨rfl, (h.left heq).2⟩
        awake := fun heq _ => h.awake heq (.inr hcalled) }
  · exact
      { h with
        flag := rfl
        left := fun heq => ⟨rfl, (h.left heq).2⟩
        awake := fun _ _ => Nat.succ_pos _ }

/-- Every step of a constructed broker keeps it consistent. -/
theorem consistent_step (h : Consistent handleForwardBinary limit runtime s) {event : BrokerEvent}
    (hstep : BrokerStep handleForwardBinary limit s event s') :
    Consistent handleForwardBinary limit runtime s' := by
  cases hstep with
  | init hmember =>
    rw [h.constructed] at hmember
    cases hmember
  | submit request => exact h.submit request
  | notify => exact h.wake _
  | wake => exact h.wake s.notifications
  | check hchecking => exact h.check hchecking
  | complete hexecuting => exact h.complete hexecuting
  | stop => exact h.stop

end Operation

/-- Steps that go on without any caller: a pending notification is given, and
the worker moves. -/
def Internal (event : BrokerEvent) : Prop :=
  event = .notify ∨ event = .check ∨ event = .complete

/-- What is left of these steps. -/
def BrokerState.work (s : BrokerState σ) : ℕ :=
  3 * s.queue.length + 2 * s.notifications +
    match s.worker with
    | .executing _ => 2
    | .checking => 1
    | _ => 0

theorem work_lt {event : BrokerEvent} (hinternal : Internal event)
    (hstep : BrokerStep handleForwardBinary limit s event s') : s'.work < s.work := by
  unfold BrokerState.work
  cases hstep with
  | init => rcases hinternal with h | h | h <;> cases h
  | submit => rcases hinternal with h | h | h <;> cases h
  | stop => rcases hinternal with h | h | h <;> cases h
  | wake => rcases hinternal with h | h | h <;> cases h
  | notify hpos =>
    unfold BrokerState.wakeWorker
    by_cases hwaiting : s.worker = .waiting
    · simp only [hwaiting, if_true]
      omega
    · simp only [hwaiting, if_false]
      omega
  | check hchecking =>
    cases hqueue : s.queue with
    | nil =>
      cases hflag : s.stopRequested with
      | true =>
        rw [workerCheck_leave hqueue hflag]
        simp [hchecking, hqueue]
      | false =>
        rw [workerCheck_wait hqueue hflag]
        simp [hchecking, hqueue]
    | cons job rest =>
      rw [workerCheck_take hqueue]
      simp only [hchecking, List.length_cons]
      omega
  | complete hexecuting =>
    rw [hexecuting]
    exact Nat.lt_succ_self _

/-- Every submission has at most one outcome, and what it is or waits for is
decided by its order. -/
structure BrokerOk (handleForwardBinary : Handler σ) (limit : ℤ) (runtime : σ)
    (s : BrokerState σ) : Prop where
  capacity : 5 < s.initialised → (s.queue.length : ℤ) ≤ max 1 limit
  inOrder : 5 < s.initialised → JobsInOrder handleForwardBinary runtime s
  distinct : s.accepted.Pairwise fun a b => a.promise < b.promise
  rejected : ∀ promise < s.submitted, (∀ job ∈ s.accepted, job.promise ≠ promise) →
    Rejected s promise
  atMostOne : ∀ promise, (s.outcomes promise).length ≤ 1
  /-- The worker leaves behind the last job, once stop was requested. -/
  leaves : s.worker = .finished → s.stopCalled = true ∧ s.queue = [] ∧
    ∀ promise < s.submitted, (s.outcomes promise).length = 1
  /-- While an outcome is missing, the broker goes on by itself, -/
  progress : ∀ promise < s.submitted, s.outcomes promise = [] →
    ∃ event s', Internal event ∧ BrokerStep handleForwardBinary limit s event s'
  /-- and it cannot go on forever. -/
  shrinks : ∀ event s', Internal event → BrokerStep handleForwardBinary limit s event s' →
    s'.work < s.work

section Guarantees

theorem serveAll_answers {done : List ForwardJob} {runtime : σ} {job : ForwardJob}
    (h : job ∈ done) :
    ∃ answer ∈ (serveAll handleForwardBinary done runtime).1, answer.1 = job.promise := by
  induction done generalizing runtime with
  | nil => cases h
  | cons first done ih =>
    rcases List.mem_cons.mp h with rfl | h
    · exact ⟨_, List.mem_cons_self, rfl⟩
    · obtain ⟨answer, hanswer, heq⟩ := ih h
      exact ⟨answer, List.mem_cons_of_mem _ hanswer, heq⟩

/-- A submission has its outcome, or its job runs or waits. -/
theorem Consistent.outcome (h : Consistent handleForwardBinary limit runtime s) {promise : ℕ}
    (hissued : promise < s.submitted) : (s.outcomes promise).length = 1 ∨
      (s.outcomes promise = [] ∧
        ∃ job ∈ s.worker.running ++ s.queue, job.promise = promise) := by
  by_cases haccepted : ∀ job ∈ s.accepted, job.promise ≠ promise
  · left
    rcases h.rejected promise hissued haccepted with heq | heq <;> rw [heq] <;> rfl
  · simp only [not_forall, not_not] at haccepted
    obtain ⟨job, hjob, rfl⟩ := haccepted
    obtain ⟨done, hsplit, -, hanswers, hpending⟩ := h.jobs
    rw [hsplit] at hjob
    rcases List.mem_append.mp hjob with hdone | hrest
    · left
      obtain ⟨answer, hanswer, heq⟩ := serveAll_answers hdone
      rw [← heq, hanswers answer hanswer]
      rfl
    · exact .inr ⟨hpending job hrest, job, hrest, rfl⟩

theorem Consistent.ok (h : Consistent handleForwardBinary limit runtime s) :
    BrokerOk handleForwardBinary limit runtime s := by
  refine
    { capacity := fun _ => h.capacity
      inOrder := fun _ => h.jobs
      distinct := h.ordered
      rejected := h.rejected
      atMostOne := fun promise => ?_
      leaves := fun hfinished => ?_
      progress := fun promise hissued hmissing => ?_
      shrinks := fun _ _ => work_lt }
  · by_cases hissued : promise < s.submitted
    · rcases h.outcome hissued with hone | ⟨hnone, -⟩
      · exact hone.le
      · rw [hnone]
        exact Nat.zero_le 1
    · rw [h.unissued promise (not_lt.mp hissued)]
      exact Nat.zero_le 1
  · obtain ⟨hcalled, hqueue⟩ := h.left hfinished
    refine ⟨hcalled, hqueue, fun promise hissued => ?_⟩
    rcases h.outcome hissued with hone | ⟨-, job, hjob, -⟩
    · exact hone
    · rw [hfinished, hqueue] at hjob
      cases hjob
  · rcases h.outcome hissued with hone | ⟨-, job, hjob, -⟩
    · rw [hmissing] at hone
      cases hone
    · cases hworker : s.worker with
      | absent => exact absurd hworker h.started
      | checking => exact ⟨.check, _, .inr (.inl rfl), .check hworker⟩
      | executing running => exact ⟨.complete, _, .inr (.inr rfl), .complete hworker⟩
      | waiting =>
        rw [hworker] at hjob
        have hqueue : s.queue ≠ [] := List.ne_nil_of_mem hjob
        exact ⟨.notify, _, .inl rfl, .notify (h.awake hworker (.inl hqueue))⟩
      | finished =>
        rw [hworker, (h.left hworker).2] at hjob
        cases hjob

theorem Building.ok (h : Building limit runtime s) :
    BrokerOk handleForwardBinary limit runtime s := by
  have hrunning : s.worker.running = [] := by
    rcases h.worker with ⟨-, hw⟩ | ⟨-, hw | hw⟩ <;> rw [hw] <;> rfl
  have hnone {promise : ℕ} (hissued : promise < s.submitted) : False := by
    rw [h.submitted] at hissued
    exact Nat.not_lt_zero _ hissued
  refine
    { capacity := fun hready => ?_
      inOrder := fun hready => ⟨[], ?_, h.served.symm, fun _ hanswer => (by cases hanswer), ?_⟩
      distinct := h.accepted ▸ .nil
      rejected := fun _ hissued => (hnone hissued).elim
      atMostOne := fun promise => ?_
      leaves := fun hfinished => ?_
      progress := fun _ hissued => (hnone hissued).elim
      shrinks := fun _ _ => work_lt }
  · rw [h.queue hready]
    exact le_trans Int.one_nonneg (le_max_left 1 limit)
  · rw [h.accepted, hrunning, h.queue hready]
    rfl
  · intro job hjob
    rw [hrunning, h.queue hready] at hjob
    cases hjob
  · rw [h.outcomes]
    exact Nat.zero_le 1
  · rcases h.worker with ⟨-, hw⟩ | ⟨-, hw | hw⟩ <;> rw [hw] at hfinished <;> cases hfinished

theorem building_of_raw (h : s.Raw) : Building limit s.runtime s where
  size hlt := by
    rw [h.initialised] at hlt
    exact absurd hlt (by decide)
  queue hlt := by
    rw [h.initialised] at hlt
    exact absurd hlt (by decide)
  worker := .inl ⟨by rw [h.initialised]; exact Nat.zero_le 6, h.worker⟩
  served := rfl
  notifications := h.notifications
  submitted := h.submitted
  accepted := h.accepted
  stopCalled := h.stopCalled
  outcomes := h.outcomes

end Guarantees

/-- In every run in which the worker never reads a set flag before it is
initialised, the broker keeps its guarantees. -/
theorem broker_ok (handleForwardBinary : Handler σ) (limit : ℤ) {start s : BrokerState σ}
    (hraw : start.Raw) {events : List BrokerEvent}
    (hrun : Run (TimelyStep handleForwardBinary limit) start events s) :
    BrokerOk handleForwardBinary limit start.runtime s := by
  have hinvariant : Building limit start.runtime s ∨
      Consistent handleForwardBinary limit start.runtime s := by
    refine hrun.invariant (I := fun s => Building limit start.runtime s ∨
      Consistent handleForwardBinary limit start.runtime s) (.inl (building_of_raw hraw)) ?_
    rintro s event s' (hbuilding | hconsistent) hstep
    · exact building_step hbuilding hstep
    · exact .inr (consistent_step hconsistent hstep.1)
  rcases hinvariant with hbuilding | hconsistent
  · exact hbuilding.ok
  · exact hconsistent.ok

section Flag

/-- Memory before the constructor, with some value where the flag will be. -/
def rawBroker (flag : Bool) : BrokerState Unit where
  initialised := 0
  runtime := ()
  maxQueueSize := 0
  queue := []
  worker := .absent
  stopRequested := flag
  notifications := 0
  submitted := 0
  accepted := []
  stopCalled := false
  outcomes := fun _ => []

/-- All members up to the worker thread are initialised. -/
def startedBroker (flag : Bool) : BrokerState Unit :=
  (declarationOrder.take 7).foldl (fun s member => s.initialise 1 member) (rawBroker flag)

/-- A handler that answers with the body of its request. -/
def echo : Handler Unit := fun request => pure { body := request.body }

theorem rawBroker_raw (flag : Bool) : (rawBroker flag).Raw := ⟨rfl, rfl, rfl, rfl, rfl, rfl, rfl⟩

theorem init_step {s : BrokerState Unit} {member : Member}
    (h : declarationOrder[s.initialised]? = some member) :
    TimelyStep echo 1 s .init (s.initialise 1 member) :=
  ⟨.init h, fun heq => by cases heq⟩

theorem run_started (flag : Bool) :
    Run (TimelyStep echo 1) (rawBroker flag) (List.replicate 7 .init) (startedBroker flag) := by
  have hstart : Run (TimelyStep echo 1) (rawBroker flag) [] (rawBroker flag) := .start
  have hconfig := hstart.next (init_step rfl)
  have hmutex := ((hconfig.next (init_step rfl)).next (init_step rfl)).next (init_step rfl)
  have hworker := ((hmutex.next (init_step rfl)).next (init_step rfl)).next (init_step rfl)
  exact hworker

/-- With a cleared flag the worker may look before the flag is initialised. -/
theorem broker_ok_early_check :
    BrokerOk echo 1 () ((startedBroker false).workerCheck.initialise 1 .stopRequested) :=
  broker_ok echo 1 (rawBroker_raw false)
    (((run_started false).next ⟨.check rfl, fun _ _ => rfl⟩).next (init_step rfl))

/-- With a set flag it leaves at once. A job that is accepted afterwards stays
in the queue of a broker that nobody stopped. -/
theorem early_check_leaves :
    let request : HttpRequest := { method := ascii "POST", path := ascii "/forward-binary" }
    let s := ((startedBroker true).workerCheck.initialise 1 .stopRequested).submit request
    Run (BrokerStep echo 1) (rawBroker true)
        (List.replicate 7 .init ++ [.check] ++ [.init] ++ [.submit request]) s ∧
      s.worker = .finished ∧ s.stopCalled = false ∧ s.queue = [⟨0, request⟩] ∧
      s.outcomes 0 = [] ∧ ¬BrokerOk echo 1 () s := by
  intro request
  refine ⟨?_, rfl, rfl, rfl, rfl, fun h => ?_⟩
  · have hstarted := (run_started true).mono fun _ _ _ hstep => hstep.1
    exact ((hstarted.next (.check rfl)).next (.init rfl)).next (.submit request rfl)
  · obtain ⟨hcalled, -⟩ := h.leaves rfl
    cases hcalled

end Flag

end LayerInference.ForwardBroker
