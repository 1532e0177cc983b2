import Shabdiz.Concurrency.CompletableFuture
import Shabdiz.Concurrency.Interleaving
import Mathlib.Tactic.Simps.Basic

/-!
# A worker

`DefaultWorkerRemote` keeps the pending result of each job in `submitted_jobs`, under the job's id,
and hands the job itself, as a task, to an executor. The pool threads of the executor take tasks
in any order; an executor may queue tasks for as long as it likes, and may reject them.

Requests run concurrently with the pool threads and with each other. Each is a call of the
interleaving: a `submit`, the handler of a `cancel`, the handler of a `shutdown`, or a pool thread
that executes one task. A job has the id of the call that submits it, so job ids are distinct.

A request that arrives after the server is unexposed is not told apart from an earlier one.

## Main definitions

* `DefaultWorkerRemote` — what the threads of a worker share
* `DefaultWorkerRemote.submit`, `run`, `cancel`, `shutdown` — the calls
* `workerMachine` — the calls, interleaved

## Main results

* `workerStep_of_next` — everything a step of a worker can do
* `worker_invariant` — the invariant rule
-/

namespace Shabdiz

/-- What jobs, workers and the launcher complete futures exceptionally with. -/
inductive JobException (ι E : Type) where
  /-- "Unable to cancel job, worker does not know of any job with the id `id`". -/
  | unknownJobException (id : ι)
  | rejectedExecutionException
  | transportException (message : String)
  /-- Anything else; `e` is thrown by a job. -/
  | thrown (e : E)
deriving DecidableEq

/-- The result of a job, or what it ended in. -/
abbrev JobOutcome (ι V E : Type) := Outcome V (JobException ι E)

/-- What a step of a worker records. -/
inductive WorkerEvent (ι J V E : Type) where
  /-- The result of job `id` is put into `submitted_jobs`. -/
  | submitted (id : ι) (job : J)
  /-- The executor has accepted the task of job `id`. -/
  | accepted (id : ι)
  /-- The executor has rejected the task of job `id`. -/
  | rejected (id : ι)
  /-- A pool thread has taken the task of job `id`. -/
  | began (id : ι)
  /-- `job.call()` is invoked. -/
  | called (id : ι) (job : J)
  /-- `job.call()` has returned or thrown. -/
  | ended (id : ι) (job : J) (outcome : JobOutcome ι V E)
  /-- The launcher is sent `notifyCompletion` or `notifyException`. -/
  | notified (id : ι) (outcome : JobOutcome ι V E)
  /-- The answer to cancel request `request` for job `id`. -/
  | answered (request id : ι) (answer : JobOutcome ι Bool E)
deriving DecidableEq

/-- What the threads of a worker share. -/
structure DefaultWorkerRemote (ι J V E : Type) where
  /-- The ids in `submitted_jobs`. -/
  submittedJobs : ι → Bool
  /-- The `future_result` of each job. -/
  futureResults : ι → CompletableFuture V (JobException ι E)
  /-- The tasks that the executor has accepted and no thread has taken. -/
  queue : List (ι × J)
  executorShutDown : Bool
  /-- The `future_cancellation` of each cancel request. -/
  cancellations : ι → CompletableFuture Bool (JobException ι E)
  log : List (WorkerEvent ι J V E)

/-- What the environment decides in a step. -/
inductive WorkerRemoteAnswer (ι V E : Type) where
  | go
  /-- The executor rejects the task. -/
  | reject
  /-- The pool thread takes the task of job `id`. -/
  | take (id : ι)
  /-- `job.call()` ends. -/
  | ends (outcome : JobOutcome ι V E)

namespace DefaultWorkerRemote

variable {ι J V E : Type} [DecidableEq ι]

/-- A new worker. -/
@[simps]
def new : DefaultWorkerRemote ι J V E where
  submittedJobs _ := false
  futureResults _ := .pending
  queue := []
  executorShutDown := false
  cancellations _ := .pending
  log := []

/-! ### Atomic steps -/

/-- `submitted_jobs.put(job_id, future_result)`. -/
@[simps]
def put (id : ι) (job : J) (w : DefaultWorkerRemote ι J V E) : DefaultWorkerRemote ι J V E :=
  { w with submittedJobs := Function.update w.submittedJobs id true
           log := w.log ++ [.submitted id job] }

/-- `submitted_jobs.remove(job_id)`. -/
@[simps]
def remove (id : ι) (w : DefaultWorkerRemote ι J V E) : DefaultWorkerRemote ι J V E :=
  { w with submittedJobs := Function.update w.submittedJobs id false }

/-- The executor accepts a task. -/
@[simps]
def enqueue (id : ι) (job : J) (w : DefaultWorkerRemote ι J V E) : DefaultWorkerRemote ι J V E :=
  { w with queue := w.queue ++ [(id, job)], log := w.log ++ [.accepted id] }

/-- A pool thread takes a task out of the queue. -/
@[simps]
def dequeue [DecidableEq J] (task : ι × J) (w : DefaultWorkerRemote ι J V E) :
    DefaultWorkerRemote ι J V E :=
  { w with queue := w.queue.erase task, log := w.log ++ [.began task.1] }

/-- Append an event to the log. -/
@[simps]
def record (e : WorkerEvent ι J V E) (w : DefaultWorkerRemote ι J V E) :
    DefaultWorkerRemote ι J V E :=
  { w with log := w.log ++ [e] }

/-- Complete or cancel the `future_result` of a job. -/
@[simps]
def settleResult (id : ι) (outcome : JobOutcome ι V E) (w : DefaultWorkerRemote ι J V E) :
    DefaultWorkerRemote ι J V E :=
  { w with futureResults :=
      Function.update w.futureResults id ((w.futureResults id).settle outcome) }

/-- Complete the `future_cancellation` of a request. -/
@[simps]
def answer (request id : ι) (outcome : JobOutcome ι Bool E) (w : DefaultWorkerRemote ι J V E) :
    DefaultWorkerRemote ι J V E :=
  { w with
    cancellations := Function.update w.cancellations request
      ((w.cancellations request).settle outcome)
    log := w.log ++ [.answered request id outcome] }

/-- `executor.shutdownNow()`: the queue is discarded, and tasks are rejected from now on. -/
@[simps]
def shutdownNow (w : DefaultWorkerRemote ι J V E) : DefaultWorkerRemote ι J V E :=
  { w with queue := [], executorShutDown := true }

/-! ### `submit` -/

/-- Control points of `submit`. -/
inductive SubmitPoint where
  | entry
  /-- The task is yet to be handed to the executor. -/
  | registered
  | returned
  /-- The executor has rejected the task, and `submit` has thrown. -/
  | rejected
deriving DecidableEq

/-- The next step of `submit`: the future is put into the map, the task is given to the executor,
and the id is answered. -/
def submit (id : ι) (job : J) (answer : WorkerRemoteAnswer ι V E)
    (w : DefaultWorkerRemote ι J V E) :
    SubmitPoint → Option (DefaultWorkerRemote ι J V E × SubmitPoint)
  | .entry => some (w.put id job, .registered)
  | .registered =>
    match answer with
    | .reject => some (w.record (.rejected id), .rejected)
    | _ =>
      if w.executorShutDown then some (w.record (.rejected id), .rejected)
      else some (w.enqueue id job, .returned)
  | .returned => none
  | .rejected => none

/-! ### The task of a job -/

/-- Control points of a pool thread that executes one task. -/
inductive RunPoint (ι J V E : Type) where
  | idle
  | begun (id : ι) (job : J)
  /-- Inside `job.call()`. -/
  | calling (id : ι) (job : J)
  /-- `job.call()` has ended; `future_result` is yet to be completed. -/
  | ended (id : ι) (outcome : JobOutcome ι V E)
  /-- The launcher is yet to be notified. -/
  | completed (id : ι) (outcome : JobOutcome ι V E)
  /-- In the `finally` block. -/
  | removing (id : ι)
  | finished
deriving DecidableEq

/-- The next step of a thread of the pool: take a task, call the job, notify the network, and take
the future out of the map. -/
def run [DecidableEq J] (answer : WorkerRemoteAnswer ι V E) (w : DefaultWorkerRemote ι J V E) :
    RunPoint ι J V E → Option (DefaultWorkerRemote ι J V E × RunPoint ι J V E)
  | .idle =>
    match answer with
    | .take id => (w.queue.find? fun task => task.1 = id).map fun task =>
      (w.dequeue task, .begun task.1 task.2)
    | _ => none
  | .begun id job => some (w.record (.called id job), .calling id job)
  | .calling id job =>
    match answer with
    | .ends outcome => some (w.record (.ended id job outcome), .ended id outcome)
    | _ => none
  | .ended id outcome => some (w.settleResult id outcome, .completed id outcome)
  | .completed id outcome => some (w.record (.notified id outcome), .removing id)
  | .removing id => some (w.remove id, .finished)
  | .finished => none

/-! ### `cancel` -/

/-- Control points of the handler of a cancel request. -/
inductive CancelPoint where
  | entry
  /-- `submitted_jobs` contains the id; the future is yet to be got. -/
  | found
  /-- The future is got and yet to be cancelled. -/
  | got
  | decided (cancelled : Bool)
  | answering (cancelled : Bool)
  | unknown
  | answered
  /-- The handler has ended with a `NullPointerException`. -/
  | thrown
deriving DecidableEq

/-- A `CompletableFuture` takes no notice of `may_interrupt`. -/
def cancel (request id : ι) (_may_interrupt : Bool) (w : DefaultWorkerRemote ι J V E) :
    CancelPoint → Option (DefaultWorkerRemote ι J V E × CancelPoint)
  | .entry => some (w, if w.submittedJobs id then .found else .unknown)
  | .found => some (w, if w.submittedJobs id then .got else .thrown)
  | .got =>
    let w' := w.settleResult id (.completedExceptionally .cancellationException)
    some (w', .decided (w'.futureResults id).isCancelled)
  | .decided cancelled =>
    some (if cancelled then w.remove id else w, .answering cancelled)
  | .answering cancelled => some (w.answer request id (.completed cancelled), .answered)
  | .unknown =>
    some (w.answer request id (.completedExceptionally (.exception (.unknownJobException id))),
      .answered)
  | .answered => none
  | .thrown => none

/-! ### `shutdown` -/

/-- Control points of the handler of a shutdown request. -/
inductive ShutdownPoint where
  | entry
  /-- The server is yet to be unexposed. -/
  | drained
  | finished
deriving DecidableEq

/-- The next step of `shutdown`, which drains the queue of the executor. -/
def shutdown (w : DefaultWorkerRemote ι J V E) :
    ShutdownPoint → Option (DefaultWorkerRemote ι J V E × ShutdownPoint)
  | .entry => some (w.shutdownNow, .drained)
  | .drained => some (w, .finished)
  | .finished => none

end DefaultWorkerRemote

open DefaultWorkerRemote

/-! ### The machine -/

variable {ι J V E : Type}

/-- A request to a worker, or the work of a pool thread, before it begins. -/
inductive WorkerOperation (ι J : Type) where
  | submit (job : J)
  | run
  | cancel (id : ι) (may_interrupt : Bool)
  | shutdown
deriving DecidableEq

/-- A call in progress, with its control point. -/
inductive WorkerCall (ι J V E : Type) where
  | submit (job : J) (p : SubmitPoint)
  | run (p : RunPoint ι J V E)
  | cancel (id : ι) (may_interrupt : Bool) (p : CancelPoint)
  | shutdown (p : ShutdownPoint)
deriving DecidableEq

/-- The first control point of a call. -/
def WorkerOperation.start : WorkerOperation ι J → WorkerCall ι J V E
  | submit job => .submit job .entry
  | run => .run .idle
  | cancel id may_interrupt => .cancel id may_interrupt .entry
  | shutdown => .shutdown .entry

namespace WorkerCall

/-- The operation that a call carries out. -/
def operation : WorkerCall ι J V E → WorkerOperation ι J
  | submit job _ => .submit job
  | run _ => .run
  | cancel id may_interrupt _ => .cancel id may_interrupt
  | shutdown _ => .shutdown

variable [DecidableEq ι] [DecidableEq J]

/-- One atomic step of call `i`. -/
def next (i : ι) (answer : WorkerRemoteAnswer ι V E) (w : DefaultWorkerRemote ι J V E) :
    WorkerCall ι J V E → Option (DefaultWorkerRemote ι J V E × WorkerCall ι J V E)
  | submit job p =>
    (DefaultWorkerRemote.submit i job answer w p).map fun r => (r.1, submit job r.2)
  | run p => (DefaultWorkerRemote.run answer w p).map fun r => (r.1, run r.2)
  | cancel id may_interrupt p =>
    (DefaultWorkerRemote.cancel i id may_interrupt w p).map fun r =>
      (r.1, cancel id may_interrupt r.2)
  | shutdown p => (DefaultWorkerRemote.shutdown w p).map fun r => (r.1, shutdown r.2)

omit [DecidableEq ι] [DecidableEq J] in
theorem operation_start (o : WorkerOperation ι J) :
    (o.start : WorkerCall ι J V E).operation = o := by
  cases o <;> rfl

theorem operation_next {i : ι} {answer : WorkerRemoteAnswer ι V E}
    {w w' : DefaultWorkerRemote ι J V E} {k k' : WorkerCall ι J V E}
    (h : k.next i answer w = some (w', k')) : k'.operation = k.operation := by
  cases k <;> obtain ⟨r, -, hr⟩ := Option.map_eq_some_iff.mp h <;>
    obtain rfl := congrArg Prod.snd hr <;> rfl

end WorkerCall

section Machine

variable [DecidableEq ι] [DecidableEq J]

/-- The calls on one worker. -/
@[simps]
def workerCalls (ι J V E : Type) [DecidableEq ι] [DecidableEq J] :
    Interleaving ι (DefaultWorkerRemote ι J V E) (WorkerOperation ι J) (WorkerCall ι J V E)
      (WorkerRemoteAnswer ι V E) where
  initial := .new
  start := WorkerOperation.start
  next i answer w k := k.next i answer w
  op := WorkerCall.operation
  op_start := WorkerCall.operation_start
  op_next := WorkerCall.operation_next

/-- A worker, and all calls made on it. -/
abbrev WorkerConfig (ι J V E : Type) :=
  Config ι (DefaultWorkerRemote ι J V E) (WorkerOperation ι J) (WorkerCall ι J V E)

/-- The calls on one worker, in any order. -/
def workerMachine (ι J V E : Type) [DecidableEq ι] [DecidableEq J] :
    Machine (WorkerConfig ι J V E) (ι × WorkerRemoteAnswer ι V E) :=
  (workerCalls ι J V E).machine

/-! ### Everything a step can do -/

/-- The steps of call `i`, with what each does to the worker. -/
inductive WorkerStep (i : ι) (answer : WorkerRemoteAnswer ι V E) (w : DefaultWorkerRemote ι J V E) :
    WorkerCall ι J V E → DefaultWorkerRemote ι J V E → WorkerCall ι J V E → Prop where
  | put {job} : WorkerStep i answer w (.submit job .entry) (w.put i job) (.submit job .registered)
  | reject {job} :
      WorkerStep i answer w (.submit job .registered) (w.record (.rejected i))
        (.submit job .rejected)
  | enqueue {job} (h : w.executorShutDown = false) :
      WorkerStep i answer w (.submit job .registered) (w.enqueue i job) (.submit job .returned)
  | take {id job} (h : (id, job) ∈ w.queue) :
      WorkerStep i answer w (.run .idle) (w.dequeue (id, job)) (.run (.begun id job))
  | call {id job} :
      WorkerStep i answer w (.run (.begun id job)) (w.record (.called id job))
        (.run (.calling id job))
  | ends {id job outcome} :
      WorkerStep i answer w (.run (.calling id job)) (w.record (.ended id job outcome))
        (.run (.ended id outcome))
  | complete {id outcome} :
      WorkerStep i answer w (.run (.ended id outcome)) (w.settleResult id outcome)
        (.run (.completed id outcome))
  | notify {id outcome} :
      WorkerStep i answer w (.run (.completed id outcome)) (w.record (.notified id outcome))
        (.run (.removing id))
  | remove {id} : WorkerStep i answer w (.run (.removing id)) (w.remove id) (.run .finished)
  | find {id b} (h : w.submittedJobs id = true) :
      WorkerStep i answer w (.cancel id b .entry) w (.cancel id b .found)
  | miss {id b} (h : w.submittedJobs id = false) :
      WorkerStep i answer w (.cancel id b .entry) w (.cancel id b .unknown)
  | get {id b} (h : w.submittedJobs id = true) :
      WorkerStep i answer w (.cancel id b .found) w (.cancel id b .got)
  | throw {id b} (h : w.submittedJobs id = false) :
      WorkerStep i answer w (.cancel id b .found) w (.cancel id b .thrown)
  | cancel {id b} :
      WorkerStep i answer w (.cancel id b .got)
        (w.settleResult id (.completedExceptionally .cancellationException))
        (.cancel id b (.decided ((w.futureResults id).settle
          (.completedExceptionally .cancellationException)).isCancelled))
  | forget {id b} :
      WorkerStep i answer w (.cancel id b (.decided true)) (w.remove id)
        (.cancel id b (.answering true))
  | keep {id b} :
      WorkerStep i answer w (.cancel id b (.decided false)) w (.cancel id b (.answering false))
  | answer {id b cancelled} :
      WorkerStep i answer w (.cancel id b (.answering cancelled))
        (w.answer i id (.completed cancelled)) (.cancel id b .answered)
  | refuse {id b} :
      WorkerStep i answer w (.cancel id b .unknown)
        (w.answer i id (.completedExceptionally (.exception (.unknownJobException id))))
        (.cancel id b .answered)
  | drain : WorkerStep i answer w (.shutdown .entry) w.shutdownNow (.shutdown .drained)
  | unexpose : WorkerStep i answer w (.shutdown .drained) w (.shutdown .finished)

variable {i : ι} {answer : WorkerRemoteAnswer ι V E} {w w' : DefaultWorkerRemote ι J V E}

theorem workerStep_of_submit {job : J} {p p' : SubmitPoint}
    (h : DefaultWorkerRemote.submit i job answer w p = some (w', p')) :
    WorkerStep i answer w (.submit job p) w' (.submit job p') := by
  cases p with
  | entry =>
    obtain ⟨rfl, rfl⟩ := Prod.mk.inj (Option.some.inj h)
    exact .put
  | registered =>
    simp only [DefaultWorkerRemote.submit] at h
    split at h
    · obtain ⟨rfl, rfl⟩ := Prod.mk.inj (Option.some.inj h)
      exact .reject
    · split at h
      · obtain ⟨rfl, rfl⟩ := Prod.mk.inj (Option.some.inj h)
        exact .reject
      · rename_i hs
        obtain ⟨rfl, rfl⟩ := Prod.mk.inj (Option.some.inj h)
        exact .enqueue (by simpa using hs)
  | returned => cases h
  | rejected => cases h

theorem workerStep_of_run {p p' : RunPoint ι J V E}
    (h : DefaultWorkerRemote.run answer w p = some (w', p')) :
    WorkerStep i answer w (.run p) w' (.run p') := by
  cases p with
  | idle =>
    simp only [DefaultWorkerRemote.run] at h
    split at h
    · obtain ⟨⟨id, job⟩, htask, heq⟩ := Option.map_eq_some_iff.mp h
      obtain ⟨rfl, rfl⟩ := Prod.mk.inj heq
      exact .take (List.mem_of_find?_eq_some htask)
    · cases h
  | begun id job =>
    obtain ⟨rfl, rfl⟩ := Prod.mk.inj (Option.some.inj h)
    exact .call
  | calling id job =>
    simp only [DefaultWorkerRemote.run] at h
    split at h
    · obtain ⟨rfl, rfl⟩ := Prod.mk.inj (Option.some.inj h)
      exact .ends
    · cases h
  | ended id outcome =>
    obtain ⟨rfl, rfl⟩ := Prod.mk.inj (Option.some.inj h)
    exact .complete
  | completed id outcome =>
    obtain ⟨rfl, rfl⟩ := Prod.mk.inj (Option.some.inj h)
    exact .notify
  | removing id =>
    obtain ⟨rfl, rfl⟩ := Prod.mk.inj (Option.some.inj h)
    exact .remove
  | finished => cases h

theorem workerStep_of_cancel {id : ι} {b : Bool} {p p' : CancelPoint}
    (h : DefaultWorkerRemote.cancel i id b w p = some (w', p')) :
    WorkerStep i answer w (.cancel id b p) w' (.cancel id b p') := by
  cases p with
  | entry =>
    obtain ⟨rfl, rfl⟩ := Prod.mk.inj (Option.some.inj h)
    split
    · exact .find ‹_›
    · exact .miss (Bool.eq_false_iff.mpr ‹_›)
  | found =>
    obtain ⟨rfl, rfl⟩ := Prod.mk.inj (Option.some.inj h)
    split
    · exact .get ‹_›
    · exact .throw (Bool.eq_false_iff.mpr ‹_›)
  | got =>
    obtain ⟨rfl, rfl⟩ := Prod.mk.inj (Option.some.inj h)
    simp only [settleResult_futureResults, Function.update_self]
    exact .cancel
  | decided cancelled =>
    obtain ⟨rfl, rfl⟩ := Prod.mk.inj (Option.some.inj h)
    cases cancelled with
    | true => exact .forget
    | false => exact .keep
  | answering cancelled =>
    obtain ⟨rfl, rfl⟩ := Prod.mk.inj (Option.some.inj h)
    exact .answer
  | unknown =>
    obtain ⟨rfl, rfl⟩ := Prod.mk.inj (Option.some.inj h)
    exact .refuse
  | answered => cases h
  | thrown => cases h

theorem workerStep_of_shutdown {p p' : ShutdownPoint}
    (h : DefaultWorkerRemote.shutdown w p = some (w', p')) :
    WorkerStep i answer w (.shutdown p) w' (.shutdown p') := by
  cases p with
  | entry =>
    obtain ⟨rfl, rfl⟩ := Prod.mk.inj (Option.some.inj h)
    exact .drain
  | drained =>
    obtain ⟨rfl, rfl⟩ := Prod.mk.inj (Option.some.inj h)
    exact .unexpose
  | finished => cases h

/-- **The list of steps is complete.** -/
theorem workerStep_of_next {k k' : WorkerCall ι J V E} (h : k.next i answer w = some (w', k')) :
    WorkerStep i answer w k w' k' := by
  cases k <;> obtain ⟨⟨w₁, p₁⟩, hp, heq⟩ := Option.map_eq_some_iff.mp h <;>
    obtain ⟨rfl, rfl⟩ := Prod.mk.inj heq
  case submit => exact workerStep_of_submit hp
  case run => exact workerStep_of_run hp
  case cancel => exact workerStep_of_cancel hp
  case shutdown => exact workerStep_of_shutdown hp

/-- The log only grows. -/
theorem WorkerStep.log_eq {k k' : WorkerCall ι J V E} (h : WorkerStep i answer w k w' k') :
    w'.log = w.log ∨ ∃ e, w'.log = w.log ++ [e] := by
  cases h <;> first | exact Or.inl rfl | exact Or.inr ⟨_, rfl⟩

theorem WorkerStep.log_mono {k k' : WorkerCall ι J V E}
    (h : WorkerStep i answer w k w' k') {e : WorkerEvent ι J V E} (he : e ∈ w.log) :
    e ∈ w'.log := by
  obtain heq | ⟨e', heq⟩ := h.log_eq
  · rwa [heq]
  · rw [heq]
    exact List.mem_append_left _ he

/-- One action records one event at most. -/
theorem log_step {c c' : WorkerConfig ι J V E} {a : ι × WorkerRemoteAnswer ι V E}
    (h : (workerMachine ι J V E).step c a = some c') :
    c'.shared.log = c.shared.log ∨ ∃ e, c'.shared.log = c.shared.log ++ [e] := by
  obtain ⟨o, ho, rfl⟩ | ⟨k, w', k', hk, hn, rfl⟩ := Interleaving.step_cases h
  · exact Or.inl rfl
  · exact (workerStep_of_next hn).log_eq

variable {G : DefaultWorkerRemote ι J V E → Prop}
  {A : ι → DefaultWorkerRemote ι J V E → Thread (WorkerOperation ι J) (WorkerCall ι J V E) → Prop}
  {P : WorkerConfig ι J V E → ι × WorkerRemoteAnswer ι V E → Prop} {c : WorkerConfig ι J V E}

/-- **The invariant rule for a worker.** -/
theorem worker_invariant (h : (workerMachine ι J V E).ReachableOf P c)
    (hinit : G .new ∧ ∀ i o, A i .new (.ready o))
    (hstart : ∀ (c : WorkerConfig ι J V E) i o, G c.shared → (∀ j, A j c.shared (c.thread j)) →
      c.thread i = .ready o → A i c.shared (.running o.start))
    (hown : ∀ c i e k w' k', (workerMachine ι J V E).ReachableOf P c → G c.shared →
      (∀ j, A j c.shared (c.thread j)) → P c (i, e) → c.thread i = .running k →
      WorkerStep i e c.shared k w' k' → G w' ∧ A i w' (.running k'))
    (hother : ∀ c i e k w' k' j, (workerMachine ι J V E).ReachableOf P c → G c.shared →
      (∀ j, A j c.shared (c.thread j)) → P c (i, e) → c.thread i = .running k →
      WorkerStep i e c.shared k w' k' → j ≠ i → A j w' (c.thread j)) :
    G c.shared ∧ ∀ i, A i c.shared (c.thread i) := by
  refine Interleaving.owickiGries_next h hinit ?_ ?_ ?_
  · intro c i e o _ hc _ ho
    exact hstart c i o hc.1 hc.2 ho
  · intro c i e k w' k' hr hc hP hk hn
    exact hown c i e k w' k' hr hc.1 hc.2 hP hk (workerStep_of_next hn)
  · intro c i e k w' k' j hr hc hP hk hn hj
    exact hother c i e k w' k' j hr hc.1 hc.2 hP hk (workerStep_of_next hn) hj

end Machine

end Shabdiz
