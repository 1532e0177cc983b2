import Shabdiz.Job.WorkerNetwork

/-!
# A network of workers

The launcher, any number of workers, and the RPC layer between them. The RPC layer completes
submissions, delivers callbacks in any order, and may duplicate, delay or lose them; it may also
bring in a callback with an id that no submission has. A worker handles `submit` for a job that was
shipped to it, and takes no step once its process is destroyed.

Cancel and shutdown requests may reach a worker at any time. That a worker has answered a shutdown
request is known to the `Worker.shutdown` that sent it.

## Main definitions

* `NetworkConfig` — the launcher and the workers, with the callbacks in flight
* `jobMachine` — their steps, and those of the RPC layer
* `OnTheWay` — a callback that the launcher has yet to act on

## Main results

* `networkStep_of_step` — everything a step can do
* `worker_reachable` — a run of the network is, seen from a worker, a run of that worker
* `grows_of_run` — what is never undone
-/

namespace Shabdiz

variable {ω ι J V E : Type}

/-- The launcher and the workers. -/
structure NetworkConfig (ω ι J V E : Type) where
  launcher : LauncherConfig ω ι J V E
  workers : ω → WorkerConfig ι J V E

/-- What a step of the network does. -/
inductive NetworkAction (ω ι V E : Type) where
  /-- Call `i` on the launcher begins or takes a step. -/
  | launcher (i : ι) (answer : LauncherAnswer ω ι V E)
  /-- Call `i` on worker `w` begins or takes a step. -/
  | worker (w : ω) (i : ι) (answer : WorkerRemoteAnswer ι V E)
  /-- The submission of job `id` is completed, exceptionally if there is an error. -/
  | reply (id : ι) (error : Option (Cause (JobException ι E)))
  /-- The continuation of the submission of job `id` runs. -/
  | handle (id : ι)
  | duplicate (callback : Callback ω ι V E)
  | lose (callback : Callback ω ι V E)
  /-- A callback that no worker of the network has sent. -/
  | stray (id : ι) (outcome : JobOutcome ι V E)

/-- The callbacks that worker `w` sends when it records `events`. -/
def callbacksOf (w : ω) (events : List (WorkerEvent ι J V E)) : List (Callback ω ι V E) :=
  events.filterMap fun
    | .notified id outcome => some ⟨some w, id, outcome⟩
    | _ => none

theorem mem_callbacksOf {w : ω} {events : List (WorkerEvent ι J V E)}
    {callback : Callback ω ι V E} :
    callback ∈ callbacksOf w events ↔
      callback.sender = some w ∧ .notified callback.id callback.outcome ∈ events := by
  obtain ⟨sender, id, outcome⟩ := callback
  rw [callbacksOf, List.mem_filterMap]
  constructor
  · rintro ⟨e, he, heq⟩
    cases e <;> simp only [Option.some.injEq, Callback.mk.injEq, reduceCtorEq] at heq
    obtain ⟨rfl, rfl, rfl⟩ := heq
    exact ⟨rfl, he⟩
  · rintro ⟨rfl, he⟩
    exact ⟨_, he, rfl⟩

namespace NetworkConfig

variable (c : NetworkConfig ω ι J V E)

/-- The memory of the launcher. -/
abbrev network : WorkerNetwork ω ι J V E := c.launcher.shared

/-- The operation of a call on the launcher. -/
def operation (i : ι) : LauncherOperation ω ι J :=
  match c.launcher.thread i with
  | .ready o => o
  | .running k => k.operation

/-- Change the memory of the launcher. -/
@[simps]
def mapNetwork (f : WorkerNetwork ω ι J V E → WorkerNetwork ω ι J V E) :
    NetworkConfig ω ι J V E :=
  { c with launcher := { c.launcher with shared := f c.launcher.shared } }

end NetworkConfig

open NetworkConfig WorkerNetwork

variable [DecidableEq ω] [DecidableEq ι] [DecidableEq J] [DecidableEq V] [DecidableEq E]

/-- A worker has answered the shutdown request of a kill that goes on as after an answer. -/
def shutdownAnswered (c : NetworkConfig ω ι J V E) (i : ι) : LauncherAnswer ω ι V E → Bool
  | .shutdown .returned =>
    match c.launcher.thread i with
    | .running (.kill w .entry) => (c.workers w).shared.executorShutDown
    | _ => true
  | _ => true

/-- A worker begins to handle `submit` only if the job was shipped to it. -/
def shipped (c : NetworkConfig ω ι J V E) (w : ω) (i : ι) : Bool :=
  match (c.workers w).thread i with
  | .ready (.submit job) => c.network.requests i = some (w, job)
  | _ => true

/-- The worker that job `id` was shipped to has accepted it. -/
def acceptedBy (c : NetworkConfig ω ι J V E) (id : ι) : Bool :=
  (c.network.requests id).any fun request => .accepted id ∈ (c.workers request.1).shared.log

/-- The steps of the launcher, the workers and the RPC layer, in any order. -/
def jobMachine (ω ι J V E : Type) [DecidableEq ω] [DecidableEq ι] [DecidableEq J]
    [DecidableEq V] [DecidableEq E] :
    Machine (NetworkConfig ω ι J V E) (NetworkAction ω ι V E) where
  init c := (launcherCalls ω ι J V E).machine.init c.launcher ∧
    ∀ w, (workerMachine ι J V E).init (c.workers w)
  step c
    | .launcher i answer =>
      if shutdownAnswered c i answer then
        ((launcherCalls ω ι J V E).machine.step c.launcher (i, answer)).map fun launcher =>
          { c with launcher }
      else none
    | .worker w i answer =>
      if !c.network.destroyed w && shipped c w i then
        ((workerMachine ι J V E).step (c.workers w) (i, answer)).map fun worker =>
          let events := worker.shared.log.drop (c.workers w).shared.log.length
          { c.mapNetwork (.send (callbacksOf w events)) with
            workers := Function.update c.workers w worker }
      else none
    | .reply id error =>
      if c.network.submissions id = .sent ∧ (error.isSome || acceptedBy c id) then
        some (c.mapNetwork (.setSubmission id (.replied error)))
      else none
    | .handle id => (c.network.whenComplete id).map fun n => c.mapNetwork fun _ => n
    | .duplicate callback =>
      if c.network.inFlight.contains callback then some (c.mapNetwork (.send [callback])) else none
    | .lose callback =>
      if c.network.inFlight.contains callback then some (c.mapNetwork (.deliver callback)) else none
    | .stray id outcome =>
      match c.operation id with
      | .submit _ _ => none
      | _ => some (c.mapNetwork (.send [⟨none, id, outcome⟩]))

/-! ### Everything a step can do -/

/-- The steps of the network, with what each does. -/
inductive NetworkStep (c : NetworkConfig ω ι J V E) :
    NetworkAction ω ι V E → NetworkConfig ω ι J V E → Prop where
  | start {i answer o} (h : c.launcher.thread i = .ready o) :
      NetworkStep c (.launcher i answer)
        { c with launcher :=
          ⟨c.network, Function.update c.launcher.thread i (.running o.start)⟩ }
  | launcher {i answer k n' k'} (hanswered : shutdownAnswered c i answer = true)
      (hk : c.launcher.thread i = .running k) (h : LauncherStep i answer c.network k n' k') :
      NetworkStep c (.launcher i answer)
        { c with launcher := ⟨n', Function.update c.launcher.thread i (.running k')⟩ }
  | worker {w i answer worker} (halive : c.network.destroyed w = false)
      (hshipped : shipped c w i = true)
      (h : (workerMachine ι J V E).step (c.workers w) (i, answer) = some worker) :
      NetworkStep c (.worker w i answer)
        { c.mapNetwork (.send (callbacksOf w
            (worker.shared.log.drop (c.workers w).shared.log.length))) with
          workers := Function.update c.workers w worker }
  | reply {id error} (hsent : c.network.submissions id = .sent)
      (haccepted : error = none → acceptedBy c id = true) :
      NetworkStep c (.reply id error) (c.mapNetwork (.setSubmission id (.replied error)))
  | fail {id cause} (h : c.network.submissions id = .replied (some cause)) :
      NetworkStep c (.handle id) (c.mapNetwork fun n =>
        ((n.settle id (.completedExceptionally cause)).record
          (.submissionFailed id cause)).setSubmission id .handled)
  | succeed {id} (h : c.network.submissions id = .replied none) :
      NetworkStep c (.handle id) (c.mapNetwork (.setSubmission id .handled))
  | duplicate {callback} (h : callback ∈ c.network.inFlight) :
      NetworkStep c (.duplicate callback) (c.mapNetwork (.send [callback]))
  | lose {callback} (h : callback ∈ c.network.inFlight) :
      NetworkStep c (.lose callback) (c.mapNetwork (.deliver callback))
  | stray {id outcome} (h : ∀ w job, c.operation id ≠ .submit w job) :
      NetworkStep c (.stray id outcome) (c.mapNetwork (.send [⟨none, id, outcome⟩]))

/-! ### Callbacks on their way -/

/-- The callback that a thread of the launcher is handling. -/
def handles : Thread (LauncherOperation ω ι J) (LauncherCall ω ι J V E) →
    Option (Callback ω ι V E)
  | .running (.notify (.received callback)) => some callback
  | .running (.notify (.known callback)) => some callback
  | _ => none

/-- The launcher has yet to act on a callback: it is in flight, or a thread is handling it. -/
def OnTheWay (c : NetworkConfig ω ι J V E) (callback : Callback ω ι V E) : Prop :=
  callback ∈ c.network.inFlight ∨ ∃ j, handles (c.launcher.thread j) = some callback

section Step

variable {c c' : NetworkConfig ω ι J V E} {a : NetworkAction ω ι V E}

/-- **The list of steps is complete.** -/
theorem networkStep_of_step (h : (jobMachine ω ι J V E).step c a = some c') :
    NetworkStep c a c' := by
  cases a with
  | launcher i answer =>
    simp only [jobMachine] at h
    split at h
    · rename_i hanswered
      obtain ⟨launcher, hl, rfl⟩ := Option.map_eq_some_iff.mp h
      obtain ⟨o, ho, rfl⟩ | ⟨k, n', k', hk, hn, rfl⟩ := Interleaving.step_cases hl
      · exact .start ho
      · exact .launcher hanswered hk (launcherStep_of_next hn)
    · cases h
  | worker w i answer =>
    simp only [jobMachine] at h
    split at h
    · rename_i hguard
      obtain ⟨halive, hshipped⟩ : c.network.destroyed w = false ∧ shipped c w i = true := by
        simpa using hguard
      obtain ⟨worker, hw, rfl⟩ := Option.map_eq_some_iff.mp h
      exact .worker halive hshipped hw
    · cases h
  | reply id error =>
    simp only [jobMachine] at h
    split at h
    · rename_i hguard
      obtain rfl := Option.some.inj h
      refine .reply hguard.1 fun herror => ?_
      subst herror
      simpa using hguard.2
    · cases h
  | handle id =>
    obtain ⟨n, hn, rfl⟩ := Option.map_eq_some_iff.mp h
    simp only [whenComplete] at hn
    split at hn
    · obtain rfl := Option.some.inj hn
      exact .fail ‹_›
    · obtain rfl := Option.some.inj hn
      exact .succeed ‹_›
    · cases hn
  | duplicate callback =>
    simp only [jobMachine] at h
    split at h
    · rename_i hmem
      obtain rfl := Option.some.inj h
      exact .duplicate (List.contains_iff_mem.mp hmem)
    · cases h
  | lose callback =>
    simp only [jobMachine] at h
    split at h
    · rename_i hmem
      obtain rfl := Option.some.inj h
      exact .lose (List.contains_iff_mem.mp hmem)
    · cases h
  | stray id outcome =>
    simp only [jobMachine] at h
    split at h
    · cases h
    · rename_i hne
      obtain rfl := Option.some.inj h
      exact .stray hne

/-- What a step means for call `j` on the launcher: nothing, its beginning, or a step of its own. -/
theorem NetworkStep.thread_cases (h : NetworkStep c a c') (j : ι) :
    c'.launcher.thread j = c.launcher.thread j ∨
      (∃ o, c.launcher.thread j = .ready o ∧ c'.launcher.thread j = .running o.start ∧
        c'.network = c.network) ∨
      ∃ answer k k', c.launcher.thread j = .running k ∧ c'.launcher.thread j = .running k' ∧
        LauncherStep j answer c.network k c'.network k' := by
  cases h with
  | @start i answer o ho =>
    by_cases hj : j = i
    · subst hj
      exact Or.inr (Or.inl ⟨o, ho, Function.update_self _ _ _, rfl⟩)
    · exact Or.inl (Function.update_of_ne hj _ _)
  | @launcher i answer k n' k' hanswered hk hn =>
    by_cases hj : j = i
    · subst hj
      exact Or.inr (Or.inr ⟨answer, k, k', hk, Function.update_self _ _ _, hn⟩)
    · exact Or.inl (Function.update_of_ne hj _ _)
  | _ => exact Or.inl rfl

theorem network_of_init (h : (jobMachine ω ι J V E).init c) : c.network = .new := h.1.1

theorem thread_of_init (h : (jobMachine ω ι J V E).init c) (j : ι) :
    ∃ o, c.launcher.thread j = .ready o := h.1.2 j

/-- **The invariant rule for the network.** -/
theorem network_invariant {P : NetworkConfig ω ι J V E → NetworkAction ω ι V E → Prop}
    {I : NetworkConfig ω ι J V E → Prop} (h : (jobMachine ω ι J V E).ReachableOf P c)
    (hinit : ∀ c, (jobMachine ω ι J V E).init c → I c)
    (hstep : ∀ c a c', (jobMachine ω ι J V E).ReachableOf P c → I c → P c a →
      NetworkStep c a c' → I c') : I c :=
  h.invariant hinit fun c a c' hr hc hP hs => hstep c a c' hr hc hP (networkStep_of_step hs)

/-- **A worker of the network is a worker.** -/
theorem worker_reachable (h : (jobMachine ω ι J V E).Reachable c) (w : ω) :
    (workerMachine ι J V E).Reachable (c.workers w) := by
  refine network_invariant (I := fun c => (workerMachine ι J V E).Reachable (c.workers w)) h
    (fun c hc => ⟨c.workers w, hc.2 w, Machine.RunOf.refl⟩) ?_
  intro c a c' _ hw _ hs
  cases hs with
  | @worker w' i answer worker halive hshipped h =>
    by_cases hww : w = w'
    · subst hww
      have hworker : (workerMachine ι J V E).Reachable worker :=
        hw.trans (Machine.RunOf.refl.tail trivial h)
      simpa using hworker
    · simpa [Function.update_of_ne hww] using hw
  | _ => exact hw

/-! ### What is never undone -/

/-- What the network keeps: the calls made on the launcher, and all that was recorded. -/
structure NetworkConfig.Grows (c c' : NetworkConfig ω ι J V E) : Prop where
  operation : ∀ i, c'.operation i = c.operation i
  network : WorkerNetwork.Grows c.network c'.network
  workerLog : ∀ w, ∀ e ∈ (c.workers w).shared.log, e ∈ (c'.workers w).shared.log

/-- The books of all submissions. -/
def Bookkeeping (c : NetworkConfig ω ι J V E) : Prop :=
  ∀ i, Booked i c.network (c.launcher.thread i)

/-- **A call is made once, with fixed arguments.** -/
theorem NetworkStep.operation_eq (h : NetworkStep c a c') (i : ι) :
    c'.operation i = c.operation i := by
  obtain heq | ⟨o, ho, heq, -⟩ | ⟨answer, k, k', hk, heq, hn⟩ := h.thread_cases i
  · simp only [operation, heq]
  · simp only [operation, ho, heq, LauncherCall.operation_start]
  · simp only [operation, hk, heq, hn.operation_eq]

omit [DecidableEq ω] [DecidableEq ι] [DecidableEq J] [DecidableEq V] [DecidableEq E] in
theorem operation_of_thread {i : ι} {k : LauncherCall ω ι J V E}
    (hk : c.launcher.thread i = .running k) : c.operation i = k.operation := by
  simp only [operation, hk]

omit [DecidableEq ω] [DecidableEq ι] [DecidableEq J] [DecidableEq V] [DecidableEq E] in
/-- A job is shipped as its `Worker.submit` says. -/
theorem Bookkeeping.operation (hc : Bookkeeping c) {id : ι} {w : ω} {job : J}
    (h : c.network.requests id = some (w, job)) : c.operation id = .submit w job := by
  obtain ⟨p, ht, -⟩ := shippedBy_eq_some ((hc id).request.symm.trans h)
  exact operation_of_thread ht

theorem NetworkStep.bookkeeping (h : NetworkStep c a c') (hc : Bookkeeping c) :
    Bookkeeping c' := by
  intro j
  cases h with
  | @start i answer o ho =>
    change Booked j c.network (Function.update c.launcher.thread i (.running o.start) j)
    by_cases hj : j = i
    · subst hj
      rw [Function.update_self]
      exact (ho ▸ hc j).start
    · rw [Function.update_of_ne hj]
      exact hc j
  | @launcher i answer k n' k' hanswered hk hn =>
    change Booked j n' (Function.update c.launcher.thread i (.running k') j)
    by_cases hj : j = i
    · subst hj
      rw [Function.update_self]
      exact (hk ▸ hc j).step hn
    · rw [Function.update_of_ne hj]
      exact (hc j).other hn hj
  | @reply id error hsent haccepted => exact (hc j).setSubmission (by simp [hsent]) (by simp)
  | @fail id cause hreplied =>
    have hb : Booked j ((c.network.settle id (.completedExceptionally cause)).record
        (.submissionFailed id cause)) (c.launcher.thread j) := { hc j with }
    exact hb.setSubmission (by simp [hreplied]) (by simp)
  | @succeed id hreplied => exact (hc j).setSubmission (by simp [hreplied]) (by simp)
  | _ => exact { hc j with }

theorem NetworkStep.grows (h : NetworkStep c a c') (hc : Bookkeeping c) : c.Grows c' := by
  refine ⟨h.operation_eq, ?_, fun w e he => ?_⟩
  · cases h with
    | @launcher i answer k n' k' hanswered hk hn =>
      refine hn.grows fun w job r hop hr => ?_
      have hsubmit := hc.operation hr
      rw [operation_of_thread hk, hop] at hsubmit
      obtain ⟨rfl, rfl⟩ := LauncherOperation.submit.inj hsubmit
      rfl
    | fail hr =>
      exact ((grows_settle _ _).trans (grows_record _)).trans { WorkerNetwork.Grows.refl with }
    | _ => exact { WorkerNetwork.Grows.refl with }
  · cases h with
    | @worker w' i answer worker halive hshipped hstep =>
      change e ∈ (Function.update c.workers w' worker w).shared.log
      by_cases hw : w = w'
      · subst hw
        rw [Function.update_self]
        obtain heq | ⟨e', heq⟩ := log_step hstep
        · rwa [heq]
        · rw [heq]
          exact List.mem_append_left _ he
      · rwa [Function.update_of_ne hw]
    | _ => exact he

theorem bookkeeping_of_reachable (h : (jobMachine ω ι J V E).Reachable c) : Bookkeeping c := by
  refine network_invariant h (fun c hc i => ?_) fun c a c' _ hc _ hs => hs.bookkeeping hc
  obtain ⟨o, ho⟩ := thread_of_init hc i
  rw [network_of_init hc, ho]
  exact ⟨rfl, by simp, by simp, by simp, by simp⟩

omit [DecidableEq ω] [DecidableEq ι] [DecidableEq J] [DecidableEq V] [DecidableEq E] in
theorem NetworkConfig.Grows.refl : c.Grows c := ⟨fun _ => rfl, .refl, fun _ _ h => h⟩

omit [DecidableEq ω] [DecidableEq ι] [DecidableEq J] [DecidableEq V] [DecidableEq E] in
theorem NetworkConfig.Grows.trans {c'' : NetworkConfig ω ι J V E} (h : c.Grows c')
    (h' : c'.Grows c'') : c.Grows c'' where
  operation i := (h'.operation i).trans (h.operation i)
  network := h.network.trans h'.network
  workerLog w e he := h'.workerLog w e (h.workerLog w e he)

/-- **What is never undone.** -/
theorem grows_of_run (h : (jobMachine ω ι J V E).Reachable c)
    (hrun : (jobMachine ω ι J V E).Run c c') : c.Grows c' := by
  refine hrun.invariant (I := fun d => c.Grows d) .refl fun d a d' hd hg _ hs => ?_
  exact hg.trans ((networkStep_of_step hs).grows (bookkeeping_of_reachable (h.trans hd)))

end Step

end Shabdiz
