import Shabdiz.Job.DefaultWorkerRemote
import Shabdiz.Job.WorkerManager

/-!
# The launcher

The launcher registers a future under a fresh job id, ships the job to a worker, and completes the
future when the worker calls back. It is an interleaving of calls, like a worker: submissions,
cancellations, the handlers of callbacks, shutdowns of the network and kills of its workers.

A job has the id of the `Worker.submit` call that makes it, so job ids are distinct.

## Main definitions

* `WorkerNetwork` — what the threads of the launcher share
* `WorkerNetwork.submit`, `cancel`, `notify`, `shutdown`, `kill` — the calls
* `WorkerNetwork.whenComplete` — the continuation of a submission
* `launcherCalls` — the calls, interleaved

## Main results

* `launcherStep_of_next` — everything a step of the launcher can do
-/

namespace Shabdiz

/-- A callback on its way to the launcher. -/
structure Callback (ω ι V E : Type) where
  /-- The worker that has sent it; `none` if it is not one of the network's. -/
  sender : Option ω
  id : ι
  outcome : JobOutcome ι V E
deriving DecidableEq

/-- How far the RPC that submits a job has come. -/
inductive Submission (ι E : Type) where
  | unsent
  | sent
  /-- `job_submission` is completed, exceptionally if there is an error. -/
  | replied (error : Option (Cause (JobException ι E)))
  /-- The continuation of `job_submission` has run. -/
  | handled
deriving DecidableEq

/-- What a step of the launcher records. -/
inductive NetworkEvent (ι E : Type) where
  /-- The caller has cancelled the future of job `id`. -/
  | cancelled (id : ι)
  /-- The submission of job `id` has failed with `cause`. -/
  | submissionFailed (id : ι) (cause : Cause (JobException ι E))
  /-- The network, shutting down, has released the future of job `id`. -/
  | released (id : ι)
deriving DecidableEq

/-- What the threads of the launcher share. -/
structure WorkerNetwork (ω ι J V E : Type) where
  /-- The ids in `id_future_map`. -/
  idFutureMap : List ι
  /-- The `FutureRemote` of each job. -/
  futures : ι → CompletableFuture V (JobException ι E)
  /-- Where each job is shipped to. -/
  requests : ι → Option (ω × J)
  submissions : ι → Submission ι E
  /-- Whether `Worker.submit` has returned the future. -/
  returned : ι → Bool
  inFlight : List (Callback ω ι V E)
  /-- Whether the process of a worker is destroyed. -/
  destroyed : ω → Bool
  log : List (NetworkEvent ι E)

/-- What the environment decides in a step of the launcher. -/
inductive LauncherAnswer (ω ι V E : Type) where
  | go
  /-- The handler receives `callback`. -/
  | receive (callback : Callback ω ι V E)
  /-- The worker's answer to a cancel request; `none` if there is none. -/
  | cancelled (answer : Option Bool)
  /-- The call that the thread is in throws. -/
  | throws
  /-- The iteration over `id_future_map` comes to `id`. -/
  | visit (id : ι)
  | shutdown (outcome : ShutdownOutcome)
  /-- The command that kills a process, executed on the host if there is a process id. -/
  | execute (result : Except Throwable Unit)

/-- "Launcher is been shut down, no longer can receive notifications from workers". -/
def unexposedLauncherException {ι E : Type} : JobException ι E :=
  .transportException
    "Launcher is been shut down, no longer can receive notifications from workers"

namespace WorkerNetwork

variable {ω ι J V E : Type} [DecidableEq ω] [DecidableEq ι]

omit [DecidableEq ω] [DecidableEq ι] in

/-- The network that the constructor makes. -/
@[simps]
def new : WorkerNetwork ω ι J V E where
  idFutureMap := []
  futures _ := .pending
  requests _ := none
  submissions _ := .unsent
  returned _ := false
  inFlight := []
  destroyed _ := false
  log := []

/-! ### Atomic steps -/

/-- `id_future_map.put(job_id, future_remote)`. -/
@[simps]
def notifyJobSubmission (id : ι) (n : WorkerNetwork ω ι J V E) : WorkerNetwork ω ι J V E :=
  { n with idFutureMap := id :: n.idFutureMap }

/-- `proxy.submit(job_id, job)`: the request is on its way. -/
@[simps]
def ship (id : ι) (w : ω) (job : J) (n : WorkerNetwork ω ι J V E) : WorkerNetwork ω ι J V E :=
  { n with
    requests := Function.update n.requests id (some (w, job))
    submissions := Function.update n.submissions id .sent }

/-- The caller of `submit` has the future. -/
@[simps]
def handOut (id : ι) (n : WorkerNetwork ω ι J V E) : WorkerNetwork ω ι J V E :=
  { n with returned := Function.update n.returned id true }

/-- Complete or cancel the future of a job. -/
@[simps]
def settle (id : ι) (outcome : JobOutcome ι V E) (n : WorkerNetwork ω ι J V E) :
    WorkerNetwork ω ι J V E :=
  { n with futures := Function.update n.futures id ((n.futures id).settle outcome) }

/-- Append an event to the log. -/
@[simps]
def record (e : NetworkEvent ι E) (n : WorkerNetwork ω ι J V E) : WorkerNetwork ω ι J V E :=
  { n with log := n.log ++ [e] }

/-- Take a callback from those in flight. -/
@[simps]
def deliver [DecidableEq V] [DecidableEq E] (callback : Callback ω ι V E)
    (n : WorkerNetwork ω ι J V E) : WorkerNetwork ω ι J V E :=
  { n with inFlight := n.inFlight.erase callback }

/-- Put callbacks among those in flight. -/
@[simps]
def send (callbacks : List (Callback ω ι V E)) (n : WorkerNetwork ω ι J V E) :
    WorkerNetwork ω ι J V E :=
  { n with inFlight := n.inFlight ++ callbacks }

/-- `worker_process.destroy()`. -/
@[simps]
def destroy (w : ω) (n : WorkerNetwork ω ι J V E) : WorkerNetwork ω ι J V E :=
  { n with destroyed := Function.update n.destroyed w true }

/-- Note what has become of a submission. -/
@[simps]
def setSubmission (id : ι) (s : Submission ι E) (n : WorkerNetwork ω ι J V E) :
    WorkerNetwork ω ι J V E :=
  { n with submissions := Function.update n.submissions id s }

/-! ### `Worker.submit` -/

/-- Control points of `Worker.submit`. -/
inductive SubmitPoint where
  | entry
  /-- The future is registered; the job is yet to be shipped. -/
  | registered
  | shipped
  | returned
deriving DecidableEq

/-- The next step of `submit`: register the future, ship the job, and hand the future out. -/
def submit (id : ι) (w : ω) (job : J) (n : WorkerNetwork ω ι J V E) :
    SubmitPoint → Option (WorkerNetwork ω ι J V E × SubmitPoint)
  | .entry => some (n.notifyJobSubmission id, .registered)
  | .registered => some (n.ship id w job, .shipped)
  | .shipped => some (n.handOut id, .returned)
  | .returned => none

/-! ### `FutureRemote.cancel` -/

/-- Control points of `FutureRemote.cancel`. -/
inductive CancelPoint where
  | entry
  /-- In `cancelOnRemote`, waiting for the worker's answer. -/
  | waiting
  | returned (cancelled : Bool)
deriving DecidableEq

/-- A future can be cancelled once `Worker.submit` has returned it. -/
def cancel (id : ι) (answer : LauncherAnswer ω ι V E) (n : WorkerNetwork ω ι J V E) :
    CancelPoint → Option (WorkerNetwork ω ι J V E × CancelPoint)
  | .entry =>
    if n.returned id then
      let n' := (n.settle id (.completedExceptionally .cancellationException)).record
        (.cancelled id)
      some (n', if (n'.futures id).isCancelled then .waiting else .returned false)
    else none
  | .waiting =>
    match answer with
    | .cancelled result => some (n, .returned (result.getD false))
    | _ => none
  | .returned _ => none

/-! ### `notifyCompletion` and `notifyException` -/

/-- Control points of the handler of a callback. -/
inductive NotifyPoint (ω ι V E : Type) where
  | idle
  | received (callback : Callback ω ι V E)
  /-- `id_future_map` contains the id; the future is yet to be got and completed. -/
  | known (callback : Callback ω ι V E)
  | finished
deriving DecidableEq

/-- The next step of a notification: receive a callback, look its id up, complete the future. -/
def notify [DecidableEq V] [DecidableEq E] (answer : LauncherAnswer ω ι V E)
    (n : WorkerNetwork ω ι J V E) :
    NotifyPoint ω ι V E → Option (WorkerNetwork ω ι J V E × NotifyPoint ω ι V E)
  | .idle =>
    match answer with
    | .receive callback =>
      if callback ∈ n.inFlight then some (n.deliver callback, .received callback) else none
    | _ => none
  | .received callback =>
    some (n, if callback.id ∈ n.idFutureMap then .known callback else .finished)
  | .known callback =>
    some (if callback.id ∈ n.idFutureMap then n.settle callback.id callback.outcome else n,
      .finished)
  | .finished => none

/-! ### `WorkerNetwork.shutdown` -/

/-- Control points of `WorkerNetwork.shutdown`. -/
inductive ShutdownPoint (ι : Type) where
  /-- Inside `super.shutdown()`, up to `stoppingExecutors`. -/
  | entry
  | cancellingScanners
  | killing
  | closingHosts
  | stoppingExecutors
  | unexposing
  | closingFactory
  | closingManager
  /-- Iterating over `id_future_map`; `todo` are the entries that the iteration still has to
  see. -/
  | releasing (todo : List ι)
  /-- `id` was found pending. -/
  | completing (id : ι) (todo : List ι)
  | returned
  | thrown
deriving DecidableEq

/-- A phase of the shutdown ends, or throws. -/
def leave (answer : LauncherAnswer ω ι V E) (n : WorkerNetwork ω ι J V E) (p : ShutdownPoint ι) :
    Option (WorkerNetwork ω ι J V E × ShutdownPoint ι) :=
  match answer with
  | .throws => some (n, .thrown)
  | _ => some (n, p)

/-- The kills are calls of their own. A failure of a kill, of the closure of a host or of
`unexpose` is only logged, and the phase ends as without it. The iteration sees every entry present
when it begins, in any order, and may see later ones. -/
def shutdown (answer : LauncherAnswer ω ι V E) (n : WorkerNetwork ω ι J V E) :
    ShutdownPoint ι → Option (WorkerNetwork ω ι J V E × ShutdownPoint ι)
  | .entry => leave answer n .cancellingScanners
  | .cancellingScanners => leave answer n .killing
  | .killing => leave answer n .closingHosts
  | .closingHosts => leave answer n .stoppingExecutors
  | .stoppingExecutors => leave answer n .unexposing
  | .unexposing => leave answer n .closingFactory
  | .closingFactory => leave answer n .closingManager
  | .closingManager => leave answer n (.releasing n.idFutureMap)
  | .releasing todo =>
    match answer with
    | .visit id =>
      if id ∈ n.idFutureMap then
        some (n, if (n.futures id).isDone then .releasing (todo.erase id)
          else .completing id (todo.erase id))
      else none
    | _ => if todo = [] then some (n, .returned) else none
  | .completing id todo =>
    some ((n.settle id (.completedExceptionally (.exception unexposedLauncherException))).record
      (.released id), .releasing todo)
  | .returned => none
  | .thrown => none

/-- The iteration over `id_future_map` has not begun, and will not if the shutdown has thrown. -/
def ShutdownPoint.unreleased : ShutdownPoint ι → Bool
  | .releasing _ => false
  | .completing _ _ => false
  | .returned => false
  | _ => true

/-! ### `WorkerManager.kill` -/

/-- Control points of `WorkerManager.kill`, for a descriptor that refers to a worker. -/
inductive KillPoint where
  /-- Inside `worker.shutdown()`. -/
  | entry
  /-- The process is destroyed; it is yet to be killed by its process id. -/
  | destroyed
  | returned
  | thrown (e : Throwable)
deriving DecidableEq

/-- The next step of `kill` of a worker: shut it down, destroy its process, and kill by its id. -/
def kill (w : ω) (answer : LauncherAnswer ω ι V E) (n : WorkerNetwork ω ι J V E) :
    KillPoint → Option (WorkerNetwork ω ι J V E × KillPoint)
  | .entry =>
    match answer with
    | .shutdown (.thrown e) => some (n.destroy w, .thrown e)
    | .shutdown _ => some (n.destroy w, .destroyed)
    | _ => none
  | .destroyed =>
    match answer with
    | .execute (.ok ()) => some (n, .returned)
    | .execute (.error e) => some (n, .thrown e)
    | _ => none
  | .returned => none
  | .thrown _ => none

/-! ### The continuation of a submission -/

/-- The continuation of `job_submission`: a failed submission fails the future. -/
def whenComplete (id : ι) (n : WorkerNetwork ω ι J V E) : Option (WorkerNetwork ω ι J V E) :=
  match n.submissions id with
  | .replied (some cause) =>
    some (((n.settle id (.completedExceptionally cause)).record
      (.submissionFailed id cause)).setSubmission id .handled)
  | .replied none => some (n.setSubmission id .handled)
  | _ => none

end WorkerNetwork

open WorkerNetwork

/-! ### The launcher -/

variable {ω ι J V E : Type}

/-- A call on the launcher, before it begins. -/
inductive LauncherOperation (ω ι J : Type) where
  | submit (w : ω) (job : J)
  | cancel (id : ι)
  | notify
  | shutdown
  | kill (w : ω)
deriving DecidableEq

/-- A call in progress, with its control point. -/
inductive LauncherCall (ω ι J V E : Type) where
  | submit (w : ω) (job : J) (p : SubmitPoint)
  | cancel (id : ι) (p : CancelPoint)
  | notify (p : NotifyPoint ω ι V E)
  | shutdown (p : ShutdownPoint ι)
  | kill (w : ω) (p : WorkerNetwork.KillPoint)
deriving DecidableEq

/-- The first control point of a call. -/
def LauncherOperation.start : LauncherOperation ω ι J → LauncherCall ω ι J V E
  | submit w job => .submit w job .entry
  | cancel id => .cancel id .entry
  | notify => .notify .idle
  | shutdown => .shutdown .entry
  | kill w => .kill w .entry

namespace LauncherCall

/-- The operation that a call carries out. -/
def operation : LauncherCall ω ι J V E → LauncherOperation ω ι J
  | submit w job _ => .submit w job
  | cancel id _ => .cancel id
  | notify _ => .notify
  | shutdown _ => .shutdown
  | kill w _ => .kill w

variable [DecidableEq ω] [DecidableEq ι] [DecidableEq V] [DecidableEq E]

/-- One atomic step of call `i`. -/
def next (i : ι) (answer : LauncherAnswer ω ι V E) (n : WorkerNetwork ω ι J V E) :
    LauncherCall ω ι J V E → Option (WorkerNetwork ω ι J V E × LauncherCall ω ι J V E)
  | submit w job p => (WorkerNetwork.submit i w job n p).map fun r => (r.1, submit w job r.2)
  | cancel id p => (WorkerNetwork.cancel id answer n p).map fun r => (r.1, cancel id r.2)
  | notify p => (WorkerNetwork.notify answer n p).map fun r => (r.1, notify r.2)
  | shutdown p => (WorkerNetwork.shutdown answer n p).map fun r => (r.1, shutdown r.2)
  | kill w p => (WorkerNetwork.kill w answer n p).map fun r => (r.1, kill w r.2)

omit [DecidableEq ω] [DecidableEq ι] [DecidableEq V] [DecidableEq E] in
theorem operation_start (o : LauncherOperation ω ι J) :
    (o.start : LauncherCall ω ι J V E).operation = o := by
  cases o <;> rfl

theorem operation_next {i : ι} {answer : LauncherAnswer ω ι V E}
    {n n' : WorkerNetwork ω ι J V E} {k k' : LauncherCall ω ι J V E}
    (h : k.next i answer n = some (n', k')) : k'.operation = k.operation := by
  cases k <;> obtain ⟨r, -, hr⟩ := Option.map_eq_some_iff.mp h <;>
    obtain rfl := congrArg Prod.snd hr <;> rfl

end LauncherCall

/-- The calls on the launcher. -/
@[simps]
def launcherCalls (ω ι J V E : Type) [DecidableEq ω] [DecidableEq ι] [DecidableEq V]
    [DecidableEq E] :
    Interleaving ι (WorkerNetwork ω ι J V E) (LauncherOperation ω ι J) (LauncherCall ω ι J V E)
      (LauncherAnswer ω ι V E) where
  initial := .new
  start := LauncherOperation.start
  next i answer n k := k.next i answer n
  op := LauncherCall.operation
  op_start := LauncherCall.operation_start
  op_next := LauncherCall.operation_next

/-- The launcher, with all calls made on it. -/
abbrev LauncherConfig (ω ι J V E : Type) :=
  Config ι (WorkerNetwork ω ι J V E) (LauncherOperation ω ι J) (LauncherCall ω ι J V E)

/-! ### Everything a step of the launcher can do -/

section Step

variable [DecidableEq ω] [DecidableEq ι] [DecidableEq V] [DecidableEq E]

/-- The steps of call `i`, with what each does to the launcher. -/
inductive LauncherStep (i : ι) (answer : LauncherAnswer ω ι V E) (n : WorkerNetwork ω ι J V E) :
    LauncherCall ω ι J V E → WorkerNetwork ω ι J V E → LauncherCall ω ι J V E → Prop where
  | register {w job} :
      LauncherStep i answer n (.submit w job .entry) (n.notifyJobSubmission i)
        (.submit w job .registered)
  | ship {w job} :
      LauncherStep i answer n (.submit w job .registered) (n.ship i w job) (.submit w job .shipped)
  | handOut {w job} :
      LauncherStep i answer n (.submit w job .shipped) (n.handOut i) (.submit w job .returned)
  | cancel {id p} (h : n.returned id = true) :
      LauncherStep i answer n (.cancel id .entry)
        ((n.settle id (.completedExceptionally .cancellationException)).record (.cancelled id))
        (.cancel id p)
  | cancelOnRemote {id b} :
      LauncherStep i answer n (.cancel id .waiting) n (.cancel id (.returned b))
  | receive {callback} (h : callback ∈ n.inFlight) :
      LauncherStep i answer n (.notify .idle) (n.deliver callback) (.notify (.received callback))
  | know {callback} (h : callback.id ∈ n.idFutureMap) :
      LauncherStep i answer n (.notify (.received callback)) n (.notify (.known callback))
  | ignore {callback} (h : callback.id ∉ n.idFutureMap) :
      LauncherStep i answer n (.notify (.received callback)) n (.notify .finished)
  | complete {callback} (h : callback.id ∈ n.idFutureMap) :
      LauncherStep i answer n (.notify (.known callback)) (n.settle callback.id callback.outcome)
        (.notify .finished)
  | forget {callback} (h : callback.id ∉ n.idFutureMap) :
      LauncherStep i answer n (.notify (.known callback)) n (.notify .finished)
  | leave {p p'} (hp : p.unreleased = true) (hp' : p'.unreleased = true) :
      LauncherStep i answer n (.shutdown p) n (.shutdown p')
  | iterate :
      LauncherStep i answer n (.shutdown .closingManager) n (.shutdown (.releasing n.idFutureMap))
  | skip {id todo} (h : (n.futures id).isDone = true) :
      LauncherStep i answer n (.shutdown (.releasing todo)) n
        (.shutdown (.releasing (todo.erase id)))
  | visit {id todo} :
      LauncherStep i answer n (.shutdown (.releasing todo)) n
        (.shutdown (.completing id (todo.erase id)))
  | release {id todo} :
      LauncherStep i answer n (.shutdown (.completing id todo))
        ((n.settle id (.completedExceptionally (.exception unexposedLauncherException))).record
          (.released id))
        (.shutdown (.releasing todo))
  | shutdownReturns :
      LauncherStep i answer n (.shutdown (.releasing [])) n (.shutdown .returned)
  | destroy {w} {p : WorkerNetwork.KillPoint} :
      LauncherStep i answer n (.kill w .entry) (n.destroy w) (.kill w p)
  | execute {w} {p : WorkerNetwork.KillPoint} :
      LauncherStep i answer n (.kill w .destroyed) n (.kill w p)

variable {i : ι} {answer : LauncherAnswer ω ι V E} {n n' : WorkerNetwork ω ι J V E}

theorem launcherStep_of_submit {w : ω} {job : J} {p p' : SubmitPoint}
    (h : WorkerNetwork.submit i w job n p = some (n', p')) :
    LauncherStep i answer n (.submit w job p) n' (.submit w job p') := by
  cases p with
  | entry =>
    obtain ⟨rfl, rfl⟩ := Prod.mk.inj (Option.some.inj h)
    exact .register
  | registered =>
    obtain ⟨rfl, rfl⟩ := Prod.mk.inj (Option.some.inj h)
    exact .ship
  | shipped =>
    obtain ⟨rfl, rfl⟩ := Prod.mk.inj (Option.some.inj h)
    exact .handOut
  | returned => cases h

theorem launcherStep_of_cancel {id : ι} {p p' : CancelPoint}
    (h : WorkerNetwork.cancel id answer n p = some (n', p')) :
    LauncherStep i answer n (.cancel id p) n' (.cancel id p') := by
  cases p with
  | entry =>
    simp only [WorkerNetwork.cancel] at h
    split at h
    · rename_i hreturned
      obtain ⟨rfl, rfl⟩ := Prod.mk.inj (Option.some.inj h)
      exact .cancel hreturned
    · cases h
  | waiting =>
    simp only [WorkerNetwork.cancel] at h
    split at h
    · obtain ⟨rfl, rfl⟩ := Prod.mk.inj (Option.some.inj h)
      exact .cancelOnRemote
    · cases h
  | returned cancelled => cases h

theorem launcherStep_of_notify {p p' : NotifyPoint ω ι V E}
    (h : WorkerNetwork.notify answer n p = some (n', p')) :
    LauncherStep i answer n (.notify p) n' (.notify p') := by
  cases p with
  | idle =>
    simp only [WorkerNetwork.notify] at h
    split at h
    · split at h
      · rename_i hmem
        obtain ⟨rfl, rfl⟩ := Prod.mk.inj (Option.some.inj h)
        exact .receive hmem
      · cases h
    · cases h
  | received callback =>
    obtain ⟨rfl, rfl⟩ := Prod.mk.inj (Option.some.inj h)
    split
    · exact .know ‹_›
    · exact .ignore ‹_›
  | known callback =>
    obtain ⟨rfl, rfl⟩ := Prod.mk.inj (Option.some.inj h)
    split
    · exact .complete ‹_›
    · exact .forget ‹_›
  | finished => cases h

omit [DecidableEq ω] [DecidableEq ι] [DecidableEq V] [DecidableEq E] in
theorem leave_cases {p p' : ShutdownPoint ι} (h : leave answer n p = some (n', p')) :
    n' = n ∧ (p' = .thrown ∨ p' = p) := by
  simp only [leave] at h
  split at h
  · obtain ⟨rfl, rfl⟩ := Prod.mk.inj (Option.some.inj h)
    exact ⟨rfl, Or.inl rfl⟩
  · obtain ⟨rfl, rfl⟩ := Prod.mk.inj (Option.some.inj h)
    exact ⟨rfl, Or.inr rfl⟩

/-- A phase that is followed by another one. -/
theorem launcherStep_of_leave {p p₁ p' : ShutdownPoint ι} (h : leave answer n p₁ = some (n', p'))
    (hp : p.unreleased = true) (hp₁ : p₁.unreleased = true) :
    LauncherStep i answer n (.shutdown p) n' (.shutdown p') := by
  obtain ⟨rfl, rfl | rfl⟩ := leave_cases h
  · exact .leave hp rfl
  · exact .leave hp hp₁

theorem launcherStep_of_shutdown {p p' : ShutdownPoint ι}
    (h : WorkerNetwork.shutdown answer n p = some (n', p')) :
    LauncherStep i answer n (.shutdown p) n' (.shutdown p') := by
  cases p with
  | entry => exact launcherStep_of_leave h rfl rfl
  | cancellingScanners => exact launcherStep_of_leave h rfl rfl
  | killing => exact launcherStep_of_leave h rfl rfl
  | closingHosts => exact launcherStep_of_leave h rfl rfl
  | stoppingExecutors => exact launcherStep_of_leave h rfl rfl
  | unexposing => exact launcherStep_of_leave h rfl rfl
  | closingFactory => exact launcherStep_of_leave h rfl rfl
  | closingManager =>
    obtain ⟨rfl, rfl | rfl⟩ := leave_cases h
    · exact .leave rfl rfl
    · exact .iterate
  | releasing todo =>
    simp only [WorkerNetwork.shutdown] at h
    split at h
    · split at h
      · obtain ⟨rfl, rfl⟩ := Prod.mk.inj (Option.some.inj h)
        split
        · exact .skip ‹_›
        · exact .visit
      · cases h
    · split at h
      · rename_i htodo
        obtain ⟨rfl, rfl⟩ := Prod.mk.inj (Option.some.inj h)
        subst htodo
        exact .shutdownReturns
      · cases h
  | completing id todo =>
    obtain ⟨rfl, rfl⟩ := Prod.mk.inj (Option.some.inj h)
    exact .release
  | returned => cases h
  | thrown => cases h

theorem launcherStep_of_kill {w : ω} {p p' : WorkerNetwork.KillPoint}
    (h : WorkerNetwork.kill w answer n p = some (n', p')) :
    LauncherStep i answer n (.kill w p) n' (.kill w p') := by
  cases p with
  | entry =>
    simp only [WorkerNetwork.kill] at h
    split at h
    · obtain ⟨rfl, rfl⟩ := Prod.mk.inj (Option.some.inj h)
      exact .destroy
    · obtain ⟨rfl, rfl⟩ := Prod.mk.inj (Option.some.inj h)
      exact .destroy
    · cases h
  | destroyed =>
    simp only [WorkerNetwork.kill] at h
    split at h
    · obtain ⟨rfl, rfl⟩ := Prod.mk.inj (Option.some.inj h)
      exact .execute
    · obtain ⟨rfl, rfl⟩ := Prod.mk.inj (Option.some.inj h)
      exact .execute
    · cases h
  | returned => cases h
  | thrown e => cases h

/-- **The list of steps is complete.** -/
theorem launcherStep_of_next {k k' : LauncherCall ω ι J V E}
    (h : k.next i answer n = some (n', k')) : LauncherStep i answer n k n' k' := by
  cases k <;> obtain ⟨⟨n₁, p₁⟩, hp, heq⟩ := Option.map_eq_some_iff.mp h <;>
    obtain ⟨rfl, rfl⟩ := Prod.mk.inj heq
  case submit => exact launcherStep_of_submit hp
  case cancel => exact launcherStep_of_cancel hp
  case notify => exact launcherStep_of_notify hp
  case shutdown => exact launcherStep_of_shutdown hp
  case kill => exact launcherStep_of_kill hp

end Step

/-! ### What a submission has done so far -/

/-- Where call `i` has shipped its job to. -/
def shippedBy : Thread (LauncherOperation ω ι J) (LauncherCall ω ι J V E) → Option (ω × J)
  | .running (.submit w job .shipped) => some (w, job)
  | .running (.submit w job .returned) => some (w, job)
  | _ => none

theorem shippedBy_eq_some {t : Thread (LauncherOperation ω ι J) (LauncherCall ω ι J V E)} {w : ω}
    {job : J} (h : shippedBy t = some (w, job)) :
    ∃ p, t = .running (.submit w job p) ∧ p ≠ .entry := by
  unfold shippedBy at h
  split at h
  · obtain ⟨rfl, rfl⟩ := Prod.mk.inj (Option.some.inj h)
    exact ⟨_, rfl, by simp⟩
  · obtain ⟨rfl, rfl⟩ := Prod.mk.inj (Option.some.inj h)
    exact ⟨_, rfl, by simp⟩
  · cases h

/-- The part of the bookkeeping about call `i`: its future is registered, then its job is shipped,
then its future is returned. -/
structure Booked (i : ι) (n : WorkerNetwork ω ι J V E)
    (t : Thread (LauncherOperation ω ι J) (LauncherCall ω ι J V E)) : Prop where
  request : n.requests i = shippedBy t
  registered : ∀ w job p, t = .running (.submit w job p) → p ≠ .entry → i ∈ n.idFutureMap
  submitted : i ∈ n.idFutureMap → ∃ w job p, t = .running (.submit w job p)
  returned : n.returned i = true → ∃ w job, t = .running (.submit w job .returned)
  unsent : n.submissions i = .unsent ↔ n.requests i = none

theorem Booked.mem_idFutureMap {i : ι} {n : WorkerNetwork ω ι J V E}
    {t : Thread (LauncherOperation ω ι J) (LauncherCall ω ι J V E)} (h : Booked i n t) {w : ω}
    {job : J} (hi : n.requests i = some (w, job)) : i ∈ n.idFutureMap := by
  obtain ⟨p, rfl, hp⟩ := shippedBy_eq_some (h.request.symm.trans hi)
  exact h.registered w job p rfl hp

/-- A call that begins has done nothing yet. -/
theorem Booked.start {i : ι} {n : WorkerNetwork ω ι J V E} {o : LauncherOperation ω ι J}
    (hb : Booked i n (.ready o)) : Booked i n (.running o.start) := by
  refine ⟨?_, ?_, fun hmem => ?_, fun hr => ?_, hb.unsent⟩
  · rw [hb.request]
    cases o <;> rfl
  · intro w job p ht hp
    cases o with
    | submit w' job' =>
      obtain ⟨rfl, rfl, rfl⟩ := LauncherCall.submit.inj (Thread.running.inj ht)
      exact absurd rfl hp
    | _ => cases ht
  · obtain ⟨w, job, p, ht⟩ := hb.submitted hmem
    cases ht
  · obtain ⟨w, job, ht⟩ := hb.returned hr
    cases ht

/-! ### What the launcher never undoes -/

/-- What the memory of the launcher keeps. -/
structure WorkerNetwork.Grows (n n' : WorkerNetwork ω ι J V E) : Prop where
  registered : ∀ id ∈ n.idFutureMap, id ∈ n'.idFutureMap
  request : ∀ id r, n.requests id = some r → n'.requests id = some r
  outcome : ∀ id o, (n.futures id).outcome = some o → (n'.futures id).outcome = some o
  returned : ∀ id, n.returned id = true → n'.returned id = true
  destroyed : ∀ w, n.destroyed w = true → n'.destroyed w = true
  log : ∀ e ∈ n.log, e ∈ n'.log

section Grows

variable {n n' n'' : WorkerNetwork ω ι J V E}

theorem WorkerNetwork.Grows.refl : WorkerNetwork.Grows n n :=
  ⟨fun _ h => h, fun _ _ h => h, fun _ _ h => h, fun _ h => h, fun _ h => h, fun _ h => h⟩

theorem WorkerNetwork.Grows.trans (h : WorkerNetwork.Grows n n')
    (h' : WorkerNetwork.Grows n' n'') : WorkerNetwork.Grows n n'' where
  registered id hid := h'.registered id (h.registered id hid)
  request id r hr := h'.request id r (h.request id r hr)
  outcome id o ho := h'.outcome id o (h.outcome id o ho)
  returned id hid := h'.returned id (h.returned id hid)
  destroyed w hw := h'.destroyed w (h.destroyed w hw)
  log e he := h'.log e (h.log e he)

theorem WorkerNetwork.Grows.isDone {id : ι} (h : WorkerNetwork.Grows n n')
    (hdone : (n.futures id).isDone = true) : (n'.futures id).isDone = true := by
  obtain ⟨o, ho⟩ := CompletableFuture.isDone_iff.mp hdone
  exact CompletableFuture.isDone_iff.mpr ⟨o, h.outcome id o ho⟩

theorem grows_record (e : NetworkEvent ι E) : WorkerNetwork.Grows n (n.record e) :=
  { WorkerNetwork.Grows.refl with log := fun _ h => List.mem_append_left _ h }

variable [DecidableEq ι]

theorem grows_settle (id : ι) (o : JobOutcome ι V E) : WorkerNetwork.Grows n (n.settle id o) :=
  { WorkerNetwork.Grows.refl with
    outcome := by
      intro id' o' h
      rw [settle_futures]
      by_cases hid : id' = id
      · subst hid
        rw [Function.update_self]
        exact CompletableFuture.settle_outcome_of_eq h
      · rwa [Function.update_of_ne hid] }

/-- A job may be shipped again, as long as it is shipped to the same worker. -/
theorem grows_ship {id : ι} {w : ω} {job : J}
    (h : ∀ r, n.requests id = some r → r = (w, job)) :
    WorkerNetwork.Grows n (n.ship id w job) :=
  { WorkerNetwork.Grows.refl with
    request := by
      intro id' r hr
      rw [ship_requests]
      by_cases hid : id' = id
      · subst hid
        rw [Function.update_self, h r hr]
      · rwa [Function.update_of_ne hid] }

variable [DecidableEq ω] [DecidableEq V] [DecidableEq E]

theorem LauncherStep.grows {i : ι} {answer : LauncherAnswer ω ι V E} {k k' : LauncherCall ω ι J V E}
    (h : LauncherStep i answer n k n' k')
    (hship : ∀ w job r, k.operation = .submit w job → n.requests i = some r → r = (w, job)) :
    WorkerNetwork.Grows n n' := by
  cases h with
  | register =>
    exact { WorkerNetwork.Grows.refl with registered := fun _ h => List.mem_cons_of_mem _ h }
  | ship => exact grows_ship fun r hr => hship _ _ r rfl hr
  | handOut =>
    refine { WorkerNetwork.Grows.refl with returned := fun id hid => ?_ }
    rw [handOut_returned]
    by_cases hi : id = i
    · rw [hi, Function.update_self]
    · rwa [Function.update_of_ne hi]
  | cancel => exact (grows_settle _ _).trans (grows_record _)
  | complete => exact grows_settle _ _
  | release => exact (grows_settle _ _).trans (grows_record _)
  | @destroy w p =>
    refine { WorkerNetwork.Grows.refl with destroyed := fun w' hw => ?_ }
    rw [destroy_destroyed]
    by_cases hww : w' = w
    · rw [hww, Function.update_self]
    · rwa [Function.update_of_ne hww]
  | receive => exact { WorkerNetwork.Grows.refl with }
  | _ => exact .refl

theorem LauncherStep.operation_eq {i : ι} {answer : LauncherAnswer ω ι V E}
    {k k' : LauncherCall ω ι J V E} (h : LauncherStep i answer n k n' k') :
    k'.operation = k.operation := by
  cases h <;> rfl

omit [DecidableEq ω] [DecidableEq V] [DecidableEq E] in
/-- The RPC layer completes submissions that are sent. -/
theorem Booked.setSubmission {j id : ι} {s : Submission ι E}
    {t : Thread (LauncherOperation ω ι J) (LauncherCall ω ι J V E)} (hb : Booked j n t)
    (hsent : n.submissions id ≠ .unsent) (hs : s ≠ .unsent) :
    Booked j (n.setSubmission id s) t := by
  refine { hb with unsent := ?_ }
  rw [setSubmission_submissions, setSubmission_requests]
  by_cases hj : j = id
  · subst hj
    have hrequest : n.requests j ≠ none := fun h => hsent (hb.unsent.mpr h)
    rw [Function.update_self]
    exact ⟨fun h => absurd h hs, fun h => absurd h hrequest⟩
  · rw [Function.update_of_ne hj]
    exact hb.unsent

/-- A step of call `i` keeps the books of call `i`. -/
theorem Booked.step {i : ι} {answer : LauncherAnswer ω ι V E} {k k' : LauncherCall ω ι J V E}
    (hb : Booked i n (.running k)) (h : LauncherStep i answer n k n' k') :
    Booked i n' (.running k') := by
  cases h with
  | register =>
    refine ⟨hb.request, fun _ _ _ _ _ => List.mem_cons_self, fun _ => ⟨_, _, _, rfl⟩,
      fun hr => ?_, hb.unsent⟩
    obtain ⟨w, job, ht⟩ := hb.returned hr
    cases ht
  | ship =>
    refine ⟨by simp [shippedBy], ?_, fun _ => ⟨_, _, _, rfl⟩, fun hr => ?_, by simp⟩
    · intro w' job' p hp _
      exact hb.registered _ _ _ rfl (by simp)
    · obtain ⟨w, job, ht⟩ := hb.returned hr
      cases ht
  | handOut =>
    refine ⟨hb.request, ?_, fun _ => ⟨_, _, _, rfl⟩, fun _ => ⟨_, _, rfl⟩, hb.unsent⟩
    intro w' job' p hp _
    exact hb.registered _ _ _ rfl (by simp)
  | _ =>
    refine ⟨hb.request, by simp, fun hi => ?_, fun hr => ?_, hb.unsent⟩
    · obtain ⟨w, job, p, ht⟩ := hb.submitted hi
      cases ht
    · obtain ⟨w, job, ht⟩ := hb.returned hr
      cases ht

/-- A step of call `i` keeps the books of the other calls. -/
theorem Booked.other {i j : ι} {answer : LauncherAnswer ω ι V E} {k k' : LauncherCall ω ι J V E}
    {t : Thread (LauncherOperation ω ι J) (LauncherCall ω ι J V E)} (hb : Booked j n t)
    (h : LauncherStep i answer n k n' k') (hj : j ≠ i) : Booked j n' t := by
  cases h with
  | register =>
    refine { hb with
      registered := fun w job p ht hp => List.mem_cons_of_mem _ (hb.registered w job p ht hp)
      submitted := fun hmem => ?_ }
    exact hb.submitted ((List.mem_cons.mp hmem).resolve_left hj)
  | ship =>
    refine ⟨?_, hb.registered, hb.submitted, hb.returned, ?_⟩
    · rw [ship_requests, Function.update_of_ne hj]
      exact hb.request
    · rw [ship_requests, ship_submissions, Function.update_of_ne hj, Function.update_of_ne hj]
      exact hb.unsent
  | handOut =>
    refine { hb with returned := fun hr => hb.returned ?_ }
    rwa [handOut_returned, Function.update_of_ne hj] at hr
  | _ => exact { hb with }

end Grows

end Shabdiz
